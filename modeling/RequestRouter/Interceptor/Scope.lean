/-
  RequestRouter/Interceptor/Scope.lean
  ====================================
  **Scopes: which actions and paths an interceptor is for.**

  A rule with a slash is for request paths, one with a dot but no slash for qualified actions, any
  other for bare actions. What is excepted wins over what is named, and a scope that names nothing is
  for everything that is not excepted.
-/
import RequestRouter.Glob
import RequestRouter.Route

namespace RequestRouter

/-- A glob, and what it is compared with. -/
inductive ScopeRule where
  | action (glob : Glob)
  /-- Controller and action in one name. -/
  | qualified (glob : Glob)
  | path (glob : Glob)
deriving DecidableEq, Repr

namespace ScopeRule

/-- Reads a rule, blanks around it aside; a blank rule is none. A path rule starts with a slash. -/
def ofText? (text : String) : Option ScopeRule :=
  let rule := Text.trim text
  let chars := rule.toList
  if chars.isEmpty then none
  else if chars.contains '/' then
    some (.path (.ignoringCase (if chars.head? = some '/' then rule else "/" ++ rule)))
  else if chars.contains '.' then some (.qualified (.ignoringCase rule))
  else some (.action (.ignoringCase rule))

/-- Whether the rule is for a target that serves a path. -/
def admits (rule : ScopeRule) (target : Target) (path : String) : Bool :=
  match rule with
  | .action glob => glob.matchesText target.action
  | .qualified glob => glob.matchesText target.qualified
  | .path glob => glob.matchesText path

end ScopeRule

/-- What an interceptor is for, and what is excepted from it. -/
structure Scope where
  named : List ScopeRule
  excepted : List ScopeRule
deriving DecidableEq, Repr

namespace Scope

def everything : Scope := ⟨[], []⟩

def ofTexts (named excepted : List String) : Scope :=
  ⟨named.filterMap ScopeRule.ofText?, excepted.filterMap ScopeRule.ofText?⟩

/-- Whether the scope takes in a target that serves a path. -/
def admits (scope : Scope) (target : Target) (path : String) : Bool :=
  !scope.excepted.any (·.admits target path) &&
    (scope.named.isEmpty || scope.named.any (·.admits target path))

def isEmpty (scope : Scope) : Bool := scope.named.isEmpty && scope.excepted.isEmpty

@[simp] theorem admits_everything (target : Target) (path : String) :
    everything.admits target path = true := rfl

end Scope

end RequestRouter
