/-
  RequestRouter/UserStore.lean
  ============================
  **A store of users behind `/api/users`: the controller of the demonstration host.**

  Users are kept by id, the lowest first. Saving a user replaces the one of its id. A parameter that is
  missing or cannot be read is answered with status 400.
-/
import RequestRouter.Application.Basic

namespace RequestRouter

open RequestRouter.Http

structure User where
  id : Nat
  name : String
deriving DecidableEq, Repr

def User.toJson (u : User) : Json.Value := .object [("id", .count u.id), ("name", .text u.name)]

/-- Users by id, the lowest first. -/
abbrev UserStore := List User

namespace UserStore

/-- The store with a user in place of the one of its id. -/
def save (user : User) : UserStore → UserStore
  | [] => [user]
  | u :: more =>
    if user.id < u.id then user :: u :: more
    else if user.id = u.id then user :: more
    else u :: save user more

def remove (store : UserStore) (id : Nat) : UserStore := store.filter (·.id != id)

def get? (store : UserStore) (id : Nat) : Option User := store.find? (·.id == id)

/-! ### Arguments -/

/-- The type of ids: whole numbers of 64 bits without sign. -/
def idType : ArgumentType := ⟨.one, .whole false 64⟩

def nameType : ArgumentType := ⟨.one, .text⟩

/-- The id in the path of a request. -/
def boundId (x : Exchange) : Except Failure Nat :=
  match x.bind idType (.path "id") with
  | .ok (.one (.whole n)) => .ok n.toNat
  | .ok _ => .error (.ofText "")
  | .error e => .error (.ofBind e)

/-- The name in the query of a request. -/
def boundName (x : Exchange) : Except Failure String :=
  match x.bind nameType (.query "name") with
  | .ok (.one (.text name)) => .ok name
  | .ok _ => .error (.ofText "")
  | .error e => .error (.ofBind e)

/-! ### Actions -/

/-- Every user, as a JSON list. -/
def listUsers : Callback UserStore Outcome := fun x store =>
  Left.done (.reply (.json (Json.Value.array (store.map User.toJson)).compact)) x store

def showUser : Callback UserStore Outcome := fun x store =>
  (Left.ofExcept (boundId x) x store).andThen x fun id x store =>
    match store.get? id with
    | some user => Left.done (.reply (.json user.toJson.compact)) x store
    | none => Left.done (.reply (.notFound ("user " ++ toString id))) x store

def saveUser : Callback UserStore Outcome := fun x store =>
  (Left.ofExcept (boundId x) x store).andThen x fun id x store =>
    (Left.ofExcept (boundName x) x store).andThen x fun name x store =>
      let user : User := ⟨id, name⟩
      Left.done (.reply (.json user.toJson.compact)) x (store.save user)

/-- Removes the user of an id, if there is one. -/
def removeUser : Callback UserStore Outcome := fun x store =>
  (Left.ofExcept (boundId x) x store).andThen x fun id x store =>
    Left.done (.reply .ok) x (store.remove id)

/-! ### The controller -/

/-- Answers a parameter that is missing or cannot be read. -/
def badParams : Interceptor UserStore :=
  (Interceptor.recover "bad-params" fun failure =>
    Left.done (.reply (.badRequest failure.message))).recoveringFrom .bind

/-- Looks at requests when they are done with. -/
def audit : InterceptorGroup UserStore :=
  (InterceptorGroup.empty "audit").interceptor
    (Interceptor.conclude "access-log" fun _ => Left.done ())

def userPath : String := "/users/:id(\\d+)"

def controller : Controller UserStore :=
  Controller.empty "users" ["/api"]
    |>.route [.get] ["/users"] "list" listUsers
    |>.route [.get] [userPath] "show" showUser
    |>.route [.post, .put] [userPath] "save" saveUser
    |>.route [.delete] [userPath] "remove" removeUser
    |>.interceptor badParams
    |>.group audit

/-- The application of the store, with the settings that nobody set. -/
def application : Application UserStore :=
  Application.ofControllers {} [controller] Hooks.standard

end UserStore

end RequestRouter
