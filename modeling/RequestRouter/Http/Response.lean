/-
  RequestRouter/Http/Response.lean
  ================================
  **Responses.**
-/
import RequestRouter.Http.Headers
import RequestRouter.Text.Utf8

namespace RequestRouter.Http

/-- A response with its whole body. -/
structure Response where
  status : Nat
  headers : Headers
  body : List UInt8
deriving DecidableEq, Repr

namespace Response

def empty : Response := ⟨200, [], []⟩

def setStatus (r : Response) (status : Nat) : Response := { r with status := status }

/-- The response with a header in place of those of its name. A value that no header can have is
    dropped, and the response keeps what it had. -/
def setHeader (r : Response) (name value : String) : Response :=
  if value.toList.all isHeaderChar then { r with headers := r.headers.insert name value } else r

def setText (r : Response) (text : String) : Response :=
  { r with body := Text.encode text.toList }

def setBody (r : Response) (body : List UInt8) : Response := { r with body := body }

/-- The response with a text of a type as its body. -/
def setContent (r : Response) (contentType text : String) : Response :=
  { r with headers := r.headers.insert "content-type" contentType }.setText text

/-- A header value, if there is one and it can be read as text. -/
def header? (r : Response) (name : String) : Option String := r.headers.text? name

def bodyText (r : Response) : String := String.ofList (Text.decodeLossy r.body)

end Response

end RequestRouter.Http
