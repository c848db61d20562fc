/-
  RequestRouter/Http/Request.lean
  ===============================
  **Requests.**

  A request is built from a target as it stands in a request line, or from an address that may name
  scheme and host and end in a fragment. Either way the path is percent-decoded once and the query is
  read into pairs.
-/
import RequestRouter.Http.Headers
import RequestRouter.Http.Percent
import RequestRouter.RouteError

namespace RequestRouter.Http

/-- A request with its whole body. -/
structure Request where
  method : String
  path : String
  query : List (String × String)
  headers : Headers
  body : List UInt8
deriving DecidableEq, Repr

namespace Request

def idHeader : String := "x-request-id"

/-- The text before the first question mark, and the text after it if there is one. -/
def splitTarget (target : List Char) : List Char × Option (List Char) :=
  match target.dropWhile (· != '?') with
  | [] => (target, none)
  | _ :: query => (target.takeWhile (· != '?'), some query)

/-- A request for a target: a path, and a query after a question mark. -/
def ofTarget (method : String) (target : String) : Request :=
  let (path, query) := splitTarget target.toList
  { method := method
    path := if path.isEmpty then "/" else decodePath path
    query := (query.map queryPairs).getD []
    headers := []
    body := [] }

/-- What follows scheme and authority in an address that has them; nothing in an address that is an
    authority alone. -/
def afterAuthority (address : List Char) : List Char :=
  let endsAuthority (c : Char) := c == '/' || c == '?'
  match address with
  | '/' :: _ => address
  | ['*'] => address
  | _ =>
    match address.dropWhile (· != ':') with
    | ':' :: '/' :: '/' :: rest =>
      match rest.dropWhile (!endsAuthority ·) with
      | '/' :: more => '/' :: more
      | more => '/' :: more
    | _ => []

/-- A request for an address. The fragment is no part of the request. -/
def ofAddress (method : String) (address : String) (headers : Headers) (body : List UInt8) :
    Request :=
  let (path, query) := splitTarget (afterAuthority (address.toList.takeWhile (· != '#')))
  { method := method
    path := decodePath path
    query := (query.map queryPairs).getD []
    headers := headers
    body := body }

/-- The request with a header in place of those of its name. -/
def withHeader (r : Request) (name value : String) : Request :=
  { r with headers := r.headers.insert name value }

def withBody (r : Request) (body : List UInt8) : Request := { r with body := body }

/-- The verb of the method; methods that no route can be declared for have none. -/
def verb (r : Request) : Except RouteError Verb :=
  match Verb.ofText? r.method with
  | some v => .ok v
  | none => .error (.unknownVerb r.method)

/-- Every value of a query parameter, in order. -/
def queryAll (r : Request) (name : String) : List String :=
  (r.query.filter (·.1 == name)).map (·.2)

/-- The first value of a query parameter. -/
def query? (r : Request) (name : String) : Option String := (r.queryAll name).head?

/-- A header value, if there is one and it can be read as text. -/
def header? (r : Request) (name : String) : Option String := r.headers.text? name

def id? (r : Request) : Option String := r.header? idHeader

end Request

end RequestRouter.Http
