/-
  RequestRouter/Dispatch/Failure.lean
  ===================================
  **Failures that callbacks end with, and what caused them.**

  A failure is a chain: the error itself, then the error that caused it, and so on. A callback that
  handles errors of some kind handles a failure if any error of its chain is of that kind.
-/
import RequestRouter.Binding
import RequestRouter.RouteError

namespace RequestRouter

/-- The kinds of errors that a handler of errors can tell apart. -/
inductive ErrorKind where
  /-- An error type of the application. -/
  | custom (name : String)
  /-- Input and output. -/
  | io
  /-- An argument that cannot be bound. -/
  | bind
  /-- A route that cannot be declared. -/
  | route
  /-- A request that cannot be dispatched. -/
  | dispatch
  /-- A pattern that is no regular expression. -/
  | pattern
  /-- A message and nothing more. -/
  | text
deriving DecidableEq, Repr

/-- One error of a chain. -/
structure Cause where
  kind : ErrorKind
  message : String
deriving DecidableEq, Repr

/-- An error, and what caused it from the nearest cause to the first. -/
structure Failure where
  top : Cause
  causes : List Cause
deriving DecidableEq, Repr

namespace Failure

def chain (f : Failure) : List Cause := f.top :: f.causes

/-- The failure in words: those of the error itself. -/
def message (f : Failure) : String := f.top.message

/-- A message and nothing more. -/
def ofText (message : String) : Failure := ⟨⟨.text, message⟩, []⟩

/-- An error type of the application, with what caused it if anything did. -/
def custom (name message : String) (source : Option Failure) : Failure :=
  ⟨⟨.custom name, message⟩, (source.map chain).getD []⟩

/-- An error of input or output. One that wraps another error takes its words and stands in its place
    before its causes. -/
def io (message : String) : Option Failure → Failure
  | none => ⟨⟨.io, message⟩, []⟩
  | some source => ⟨⟨.io, source.message⟩, source.causes⟩

/-- An argument that cannot be bound. -/
def ofBind (e : BindError) : Failure := ⟨⟨.bind, e.message⟩, []⟩

/-- A route that cannot be declared. An invalid pattern is caused by an error of the engine. -/
def ofRoute (e : RouteError) (words : Regex.Wording := .silent) : Failure :=
  ⟨⟨.route, e.message words⟩,
    match e with
    | .invalidPattern _ cause => [⟨.pattern, (words cause).getD ""⟩]
    | _ => []⟩

def hasKind (f : Failure) (kind : ErrorKind) : Bool := f.chain.any (·.kind == kind)

end Failure

/-- Why a request cannot be dispatched. That no route serves it is no error. -/
inductive DispatchError where
  /-- The table of routes still takes declarations. -/
  | notNormalized
  /-- The table of routes cannot be built. -/
  | routes (e : RouteError)
  /-- A callback failed and no other one dealt with it. -/
  | unhandled (action : String) (source : Failure)
deriving DecidableEq, Repr

namespace DispatchError

def message (e : DispatchError) (words : Regex.Wording := .silent) : String :=
  match e with
  | .notNormalized => "route table has not been normalized"
  | .routes e => "route table failed to load: " ++ e.message words
  | .unhandled action source => "action " ++ action ++ " failed: " ++ source.message

def causes (e : DispatchError) (words : Regex.Wording := .silent) : List Cause :=
  match e with
  | .notNormalized => []
  | .routes e => (Failure.ofRoute e words).chain
  | .unhandled _ source => source.chain

end DispatchError

namespace Failure

/-- A request that cannot be dispatched. -/
def ofDispatch (e : DispatchError) (words : Regex.Wording := .silent) : Failure :=
  ⟨⟨.dispatch, e.message words⟩, e.causes words⟩

/-- A route that cannot be declared is traced to the engine exactly if its pattern is invalid. -/
theorem hasKind_pattern_ofRoute {e : RouteError} {words : Regex.Wording} :
    (ofRoute e words).hasKind .pattern = true ↔ ∃ path cause, e = .invalidPattern path cause := by
  cases e <;> simp [ofRoute, hasKind, chain]

/-- A request that cannot be dispatched is traced to what its error is traced to. -/
theorem hasKind_pattern_ofDispatch {e : DispatchError} {words : Regex.Wording} :
    (ofDispatch e words).hasKind .pattern = true ↔
      (∃ path cause, e = .routes (.invalidPattern path cause)) ∨
        ∃ action source, e = .unhandled action source ∧ source.hasKind .pattern = true := by
  have hchain : (ofDispatch e words).hasKind .pattern =
      (e.causes words).any (·.kind == .pattern) := rfl
  rw [hchain]
  cases e with
  | notNormalized => simp [DispatchError.causes]
  | routes e =>
    change (ofRoute e words).hasKind .pattern = true ↔ _
    rw [hasKind_pattern_ofRoute]
    simp
  | unhandled action source =>
    change source.hasKind .pattern = true ↔ _
    constructor
    · exact fun h => .inr ⟨action, source, rfl, h⟩
    · rintro (⟨path, cause, h⟩ | ⟨action', source', h, hsource⟩)
      · cases h
      · cases h
        exact hsource

end Failure

end RequestRouter
