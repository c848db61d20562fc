/-
  RequestRouter/Interceptor/Basic.lean
  ====================================
  **Interceptors: callbacks around the actions of a controller.**

  Interceptors run before a handler, after one that succeeded, in recovery from a failure, or at the
  end whatever happened. Those of one kind run by priority, the lowest first; of equal priorities the
  one declared first.
-/
import RequestRouter.Dispatch.Exchange
import RequestRouter.Interceptor.Scope

namespace RequestRouter

/-- When an interceptor runs. -/
inductive InterceptorKind where
  | before
  | after
  /-- When something failed, to reply in its place. -/
  | recover
  /-- At the end, whatever happened. -/
  | conclude
deriving DecidableEq, Repr

def InterceptorKind.name : InterceptorKind → String
  | .before => "Before"
  | .after => "After"
  | .recover => "Catch"
  | .conclude => "Finally"

/-- A callback around the actions of a controller. -/
structure Interceptor (S : Type) where
  name : String
  kind : InterceptorKind
  /-- Lower runs first. -/
  priority : Int
  scope : Scope
  /-- The kinds of errors that it recovers from; none stands for all. -/
  recoversFrom : List ErrorKind
  /-- What it does, given the failure that it runs for, if it runs for one. -/
  call : Option Failure → Callback S Outcome

namespace Interceptor

variable {S : Type}

/-- An interceptor for everything, with priority 0. -/
def make (kind : InterceptorKind) (name : String) (call : Option Failure → Callback S Outcome) :
    Interceptor S :=
  ⟨name, kind, 0, .everything, [], call⟩

/-- Runs before the handler. If it replies, handler and later interceptors do not run. -/
def before (name : String) (call : Callback S Outcome) : Interceptor S :=
  make .before name fun _ => call

/-- Runs after a handler that succeeded. If it replies, it replaces the reply. -/
def after (name : String) (call : Callback S Outcome) : Interceptor S :=
  make .after name fun _ => call

/-- Replies in place of a failure. -/
def recover (name : String) (call : Failure → Callback S Outcome) : Interceptor S :=
  make .recover name fun
    | some failure => call failure
    | none => Left.done .pass

/-- Runs at the end, with the failure if there was one. It has no reply. -/
def conclude (name : String) (call : Option Failure → Callback S Unit) : Interceptor S :=
  make .conclude name fun failure x s =>
    (call failure x s).andThen x fun _ => Left.done .pass

def withPriority (i : Interceptor S) (priority : Int) : Interceptor S :=
  { i with priority := priority }

/-- The interceptor for the actions and paths that rules name, beside those named before. -/
def onlyFor (i : Interceptor S) (rules : List String) : Interceptor S :=
  { i with scope := { i.scope with named := i.scope.named ++ rules.filterMap ScopeRule.ofText? } }

/-- The interceptor without the actions and paths that rules name. -/
def exceptFor (i : Interceptor S) (rules : List String) : Interceptor S :=
  { i with
    scope := { i.scope with excepted := i.scope.excepted ++ rules.filterMap ScopeRule.ofText? } }

/-- The interceptor for failures with an error of a kind, beside the kinds declared before. -/
def recoveringFrom (i : Interceptor S) (kind : ErrorKind) : Interceptor S :=
  { i with recoversFrom := i.recoversFrom ++ [kind] }

/-- Whether the interceptor runs for a target that serves a path. -/
def appliesTo (i : Interceptor S) (target : Target) (path : String) : Bool :=
  i.scope.admits target path

/-- Whether the interceptor recovers from a failure: no kinds are declared, or some error of the chain
    is of a declared kind. -/
def handles (i : Interceptor S) (failure : Failure) : Bool :=
  i.recoversFrom.isEmpty || i.recoversFrom.any failure.hasKind

end Interceptor

/-! ### Groups -/

/-- Interceptors under one name, and further groups. -/
inductive InterceptorGroup (S : Type) where
  | mk (name : String) (interceptors : List (Interceptor S)) (groups : List (InterceptorGroup S))

namespace InterceptorGroup

variable {S : Type}

mutual

/-- Every interceptor of the group: its own, then those of its groups from the first on. -/
def flatten : InterceptorGroup S → List (Interceptor S)
  | .mk _ interceptors groups => interceptors ++ flattenAll groups

def flattenAll : List (InterceptorGroup S) → List (Interceptor S)
  | [] => []
  | group :: more => group.flatten ++ flattenAll more

end

def name : InterceptorGroup S → String
  | .mk name _ _ => name

def empty (name : String) : InterceptorGroup S := .mk name [] []

def interceptor : InterceptorGroup S → Interceptor S → InterceptorGroup S
  | .mk name interceptors groups, i => .mk name (interceptors ++ [i]) groups

def withGroup : InterceptorGroup S → InterceptorGroup S → InterceptorGroup S
  | .mk name interceptors groups, group => .mk name interceptors (groups ++ [group])

end InterceptorGroup

end RequestRouter
