/-
  RequestRouter/Params.lean
  =========================
  **Parameters taken from a path.**

  Named parameters stand in the order in which their names are first seen; a name that comes again,
  in whatever ASCII case, adds a value. Anonymous captures are kept in order beside them.
-/
import RequestRouter.Text.Case

namespace RequestRouter

/-- The values taken under one name, in the spelling first seen. -/
structure NamedParam where
  name : String
  values : List String
deriving DecidableEq, Repr

/-- The parameters of a matched path. -/
structure Params where
  named : List NamedParam
  splats : List String
deriving DecidableEq, Repr

namespace Params

def empty : Params := ⟨[], []⟩

/-- A value added under a name: to the entry of that name, or as a new entry at the end. -/
def addNamed (name value : String) : List NamedParam → List NamedParam
  | [] => [⟨name, [value]⟩]
  | p :: more =>
    if Text.sameIgnoringCase p.name name then { p with values := p.values ++ [value] } :: more
    else p :: addNamed name value more

def pushNamed (params : Params) (name value : String) : Params :=
  { params with named := addNamed name value params.named }

/-- An anonymous value added. -/
def pushSplat (params : Params) (value : String) : Params :=
  { params with splats := params.splats ++ [value] }

/-- Every value under a name, in the order in which they were taken. -/
def getAll (params : Params) (name : String) : List String :=
  match params.named.find? (Text.sameIgnoringCase ·.name name) with
  | some p => p.values
  | none => []

/-- The first value under a name. -/
def get? (params : Params) (name : String) : Option String := (params.getAll name).head?

/-- The anonymous capture at an index. -/
def splat? (params : Params) (index : Nat) : Option String := params.splats[index]?

/-- Whether nothing was taken. -/
def isEmpty (params : Params) : Bool := params.named.isEmpty && params.splats.isEmpty

@[simp] theorem getAll_empty (name : String) : empty.getAll name = [] := rfl

@[simp] theorem splats_pushNamed (params : Params) (name value : String) :
    (params.pushNamed name value).splats = params.splats := rfl

@[simp] theorem named_pushSplat (params : Params) (value : String) :
    (params.pushSplat value).named = params.named := rfl

end Params

end RequestRouter
