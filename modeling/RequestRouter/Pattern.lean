/-
  RequestRouter/Pattern.lean
  ==========================
  **Path patterns: a path spec compiled, and the parameters that it takes from a path.**

  A pattern always matches a whole path, with repeated slashes made one. Slot `i` describes capture
  group `i + 1`; a group that took no part in the match gives no value.
-/
import RequestRouter.Params
import RequestRouter.Path
import RequestRouter.Regex.Match
import RequestRouter.Regex.Parser
import RequestRouter.Spec.Compile

namespace RequestRouter

/-- A compiled path spec. -/
structure Pattern where
  spec : String
  /-- The text of the expression, anchored at both ends. -/
  source : String
  expr : Regex.Expr
  slots : List Slot
deriving DecidableEq, Repr

namespace Pattern

/-- A pattern text that has to match from end to end. -/
def anchored (pattern : List Char) : List Char :=
  ['^', '(', '?', ':'] ++ pattern ++ [')', '$']

/-- Compiles a path spec. The pattern must be an expression with one capture group for each slot. -/
def compile (options : CompileOptions) (spec : String) : Except RouteError Pattern :=
  match Spec.compile options spec.toList with
  | .error e => .error e
  | .ok compiled =>
    let source := anchored compiled.pattern
    match Regex.compile options.budget { ignoreCase := !options.caseSensitive } source with
    | .error cause => .error (.invalidPattern spec cause)
    | .ok expr =>
      if expr.groupCount = compiled.slots.length then
        .ok ⟨spec, String.ofList source, expr, compiled.slots⟩
      else .error (.slotMismatch spec compiled.slots.length expr.groupCount)

/-- The parameters with the text of one group added, if it took part. -/
def addGroup (params : Params) (slot : Slot) (text : Option (List Char)) : Params :=
  match text, slot with
  | none, _ => params
  | some text, some key => params.pushNamed key.name (String.ofList text)
  | some text, none => params.pushSplat (String.ofList text)

/-- The parameters of a match, slot by slot, the first slot belonging to group `index`. -/
def collect (found : Regex.Cursor) (params : Params) (index : Nat) : List Slot → Params
  | [] => params
  | slot :: more => collect found (addGroup params slot (found.group? index)) (index + 1) more

/-- The parameters that the pattern takes from a path; `none` if it does not match. -/
def captures (p : Pattern) (path : String) : Option Params :=
  (p.expr.find (Path.collapseChars path.toList)).map fun found =>
    collect found Params.empty 1 p.slots

/-- Whether the pattern captures anything. -/
def isDynamic (p : Pattern) : Bool := !p.slots.isEmpty

/-- A compiled pattern has one capture group for each slot. -/
theorem groupCount_of_compile {options : CompileOptions} {spec : String} {p : Pattern}
    (h : compile options spec = .ok p) : p.expr.groupCount = p.slots.length := by
  unfold compile at h
  split at h
  · cases h
  · simp only at h
    split at h
    · cases h
    · split at h
      · cases h; assumption
      · cases h

theorem spec_of_compile {options : CompileOptions} {spec : String} {p : Pattern}
    (h : compile options spec = .ok p) : p.spec = spec := by
  unfold compile at h
  split at h
  · cases h
  · simp only at h
    split at h
    · cases h
    · split at h
      · cases h; rfl
      · cases h

end Pattern

end RequestRouter
