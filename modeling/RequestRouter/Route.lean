/-
  RequestRouter/Route.lean
  ========================
  **Routes, and what a request finds of them.**

  A route is known by its verb and its path spec, ignoring the case of ASCII letters; where it leads is
  not part of its identity.
-/
import RequestRouter.Pattern

namespace RequestRouter

/-- Where a route leads: an action of a controller. -/
structure Target where
  controller : String
  action : String
deriving DecidableEq, Repr

def Target.qualified (t : Target) : String := t.controller ++ "." ++ t.action

/-- A verb and a path pattern, and where they lead. -/
structure Route where
  verb : Verb
  pattern : Pattern
  target : Target
deriving DecidableEq, Repr

namespace Route

/-- The path spec as it was declared. -/
def spec (r : Route) : String := r.pattern.spec

/-- Whether the route takes parameters from a path. -/
def isDynamic (r : Route) : Bool := r.pattern.isDynamic

/-- Whether the route was declared for a verb and a path spec. -/
def hasKey (r : Route) (verb : Verb) (spec : String) : Bool :=
  r.verb == verb && Text.sameIgnoringCase r.spec spec

/-- Whether two routes were declared for the same verb and path spec. -/
def sameKey (a b : Route) : Bool := a.hasKey b.verb b.spec

def summary (r : Route) : String := r.verb.name ++ " " ++ r.spec ++ " -> " ++ r.target.qualified

def compile (options : CompileOptions) (verb : Verb) (spec : String) (target : Target) :
    Except RouteError Route :=
  match Pattern.compile options spec with
  | .ok pattern => .ok ⟨verb, pattern, target⟩
  | .error e => .error e

theorem sameKey_comm (a b : Route) : a.sameKey b = b.sameKey a := by
  simp only [sameKey, hasKey, Text.sameIgnoringCase_comm a.spec b.spec]
  cases a.verb <;> cases b.verb <;> rfl

/-- A compiled route has the verb, the spec and the target that it was compiled from. -/
theorem of_compile {options : CompileOptions} {verb : Verb} {spec : String} {target : Target}
    {r : Route} (h : compile options verb spec target = .ok r) :
    r.verb = verb ∧ r.spec = spec ∧ r.target = target := by
  unfold compile at h
  split at h
  · next pattern hp =>
    cases h
    exact ⟨rfl, Pattern.spec_of_compile hp, rfl⟩
  · cases h

end Route

/-- A route that matched a request, with the parameters it took. -/
structure RouteMatch where
  route : Route
  params : Params
deriving DecidableEq, Repr

end RequestRouter
