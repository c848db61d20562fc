/-
  RequestRouter/Http/Reply.lean
  =============================
  **Replies: what a handler answers, and how it is written to a response.**
-/
import RequestRouter.Http.Request
import RequestRouter.Http.Response
import RequestRouter.Json.Printer
import RequestRouter.Text.Html

namespace RequestRouter.Http

/-- What a handler answers. -/
inductive Reply where
  /-- The response stays as it is. -/
  | noResult
  /-- Status 200 and nothing else. -/
  | ok
  | text (body : String)
  | html (body : String)
  /-- A JSON document as text. -/
  | json (body : String)
  | xml (body : String)
  | redirect (location : String) (status : Nat)
  | badRequest (why : String)
  /-- Asks for a name and a password in a realm. -/
  | unauthorized (realm : String)
  | forbidden (why : String)
  | notFound (why : String)
  /-- An error page. -/
  | error (status : Nat) (reason : String)
deriving DecidableEq, Repr

namespace Reply

/-- A JSON document as a reply, the members of its objects in the order of their names. -/
def ofJson (v : Json.Value) : Reply := .json v.sorted.compact

/-- A page with status 500. -/
def internalError (reason : String) : Reply := .error 500 reason

/-- Method and path of a request that no route serves, with status 404. -/
def notRouted (request : Request) : Reply := .notFound (request.method ++ " " ++ request.path)

/-- The status that the reply writes, if it writes one. -/
def status? : Reply → Option Nat
  | .noResult => none
  | .ok | .text _ | .html _ | .json _ | .xml _ => some 200
  | .redirect _ status => some status
  | .badRequest _ => some 400
  | .unauthorized _ => some 401
  | .forbidden _ => some 403
  | .notFound _ => some 404
  | .error status _ => some status

/-- Whether a location names a scheme: letters, digits or `_` before `://`. -/
def isAbsolute (location : List Char) : Bool :=
  match location.takeWhile (fun c => c.isAlphanum || c == '_'), location.dropWhile (fun c => c.isAlphanum || c == '_') with
  | _ :: _, ':' :: '/' :: '/' :: _ => true
  | _, _ => false

/-- A location that is not absolute starts with a slash. -/
def rooted (location : String) : String :=
  if isAbsolute location.toList || location.toList.head? == some '/' then location
  else "/" ++ location

/-- The error page before the status. -/
def pageStart : String :=
  "<!DOCTYPE html><html><head><meta charset=\"utf-8\"><title>Error - "

/-- The error page between the status and the reason. -/
def pageMiddle : String :=
  "</title></head><body><div style=\"padding:30px; font-size:16px; color:#cc0000; " ++
    "text-align:center;\">"

/-- The error page after the reason. -/
def pageEnd : String := "</div></body></html>"

def errorPage (status : Nat) (reason : String) : String :=
  pageStart ++ toString status ++ pageMiddle ++ Text.escapeHtml reason ++ pageEnd

/-- Headers and body of the reply written to a response. -/
def write (reply : Reply) (response : Response) : Response :=
  match reply with
  | .noResult | .ok => response
  | .text body => response.setContent "text/plain; charset=utf-8" body
  | .html body => response.setContent "text/html; charset=utf-8" body
  | .json body => response.setContent "application/json; charset=utf-8" body
  | .xml body => response.setContent "text/xml; charset=utf-8" body
  | .redirect location _ => response.setHeader "location" (rooted location)
  | .unauthorized realm =>
    response.setHeader "www-authenticate" ("Basic realm=\"" ++ realm ++ "\"")
  | .badRequest why | .forbidden why | .notFound why =>
    response.setContent "text/plain; charset=utf-8" why
  | .error status reason =>
    response.setContent "text/html; charset=utf-8" (errorPage status reason)

/-- The reply written to a response: its status, if it has one, then headers and body. -/
def apply (reply : Reply) (response : Response) : Response :=
  reply.write (match reply.status? with
    | some status => response.setStatus status
    | none => response)

@[simp] theorem apply_noResult (response : Response) : Reply.noResult.apply response = response :=
  rfl

end Reply

end RequestRouter.Http
