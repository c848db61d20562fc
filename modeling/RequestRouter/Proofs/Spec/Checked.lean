/-
  RequestRouter/Proofs/Spec/Checked.lean
  ======================================
  **The passes by offsets, with every access checked.**

  `compile` works on lists of characters, where every step has a result.  A text in memory is worked
  on otherwise: it is cut at offsets in octets, places are looked up in a table by their offset, a
  list is gone on with behind an index, and groups are counted down.  Each of these may go wrong, and
  then there is no answer at all, neither a source nor an error of the route.

  Here are the passes of `compile` once more with these accesses in them.  An access that goes wrong
  is a `Fault`.  What is asked for is exact: `slice_eq_ok_iff` says which slices there are, and a
  counter at zero has nothing below it.
-/
import RequestRouter.Proofs.Spec.Alignment

namespace RequestRouter.Spec

open RequestRouter.Text

/-- An access that goes wrong. -/
inductive Fault where
  /-- An index beyond the end of a list. -/
  | index (i length : Nat)
  /-- A slice that starts behind its end. -/
  | reversed (start stop : Nat)
  /-- An offset behind the end of a text, or within a character. -/
  | offset (o : Nat)
  /-- A counter at zero that is counted down. -/
  | underflow
deriving DecidableEq, Repr

/-- A step that may go wrong. -/
abbrev Checked (α : Type) := Except Fault α

namespace Checked

@[simp] theorem ok_bind {α β : Type} (a : α) (f : α → Checked β) : (Except.ok a >>= f) = f a := rfl

@[simp] theorem pure_eq_ok {α : Type} (a : α) : (pure a : Checked α) = .ok a := rfl

/-! ### Accesses -/

/-- A text in two at an offset; `none` behind its end and within a character. -/
def splitAt? : Nat → List Char → Option (List Char × List Char)
  | 0, cs => some ([], cs)
  | _ + 1, [] => none
  | n + 1, c :: cs =>
    if c.utf8Size ≤ n + 1 then
      (splitAt? (n + 1 - c.utf8Size) cs).map fun (front, back) => (c :: front, back)
    else none

/-- The text from one offset up to another. -/
def slice (text : List Char) (start stop : Nat) : Checked (List Char) :=
  if stop < start then .error (.reversed start stop)
  else
    match splitAt? stop text with
    | none => .error (.offset stop)
    | some (front, _) =>
      match splitAt? start front with
      | none => .error (.offset start)
      | some (_, inside) => .ok inside

/-- An entry of a table. -/
def entry (table : List Bool) (i : Nat) : Checked Bool :=
  match table[i]? with
  | none => .error (.index i table.length)
  | some found => .ok found

/-- The table with an entry marked. -/
def mark (table : List Bool) (i : Nat) : Checked (List Bool) :=
  if i < table.length then .ok (table.set i true) else .error (.index i table.length)

/-- A list from an index on. -/
def fromIndex {α : Type} (xs : List α) (i : Nat) : Checked (List α) :=
  if i ≤ xs.length then .ok (xs.drop i) else .error (.index i xs.length)

/-- A counter one lower. -/
def decrement : Nat → Checked Nat
  | 0 => .error .underflow
  | n + 1 => .ok n

/-! ### Pieces -/

/-- The characters of a text with their offsets, the first at `offset`. -/
def located (offset : Nat) : List Char → List (Nat × Char)
  | [] => []
  | c :: cs => (offset, c) :: located (offset + c.utf8Size) cs

/-- The characters without the first one if it is `d`. -/
def skip (d : Char) : List (Nat × Char) → List (Nat × Char)
  | [] => []
  | (i, c) :: rest => if c = d then rest else (i, c) :: rest

theorem length_skip_le (d : Char) (cs : List (Nat × Char)) : (skip d cs).length ≤ cs.length := by
  unfold skip
  split
  · exact Nat.le_refl _
  · split
    · exact Nat.le_succ _
    · exact Nat.le_refl _

/-- The offset behind the bracket that closes the outermost of `depth` brackets. -/
def closingFrom (start depth : Nat) (escaped : Bool) : List (Nat × Char) → Checked (Option Nat)
  | [] => .ok none
  | (i, c) :: rest =>
    if escaped then closingFrom start depth false rest
    else if c = '\\' then closingFrom start depth true rest
    else if c = '[' then closingFrom start (depth + 1) false (skip ']' (skip '^' rest))
    else if c = ']' then
      match decrement depth with
      | .error fault => .error fault
      | .ok depth =>
        if depth = 0 then .ok (some (start + i + 1)) else closingFrom start depth false rest
    else closingFrom start depth false rest
termination_by cs => cs.length
decreasing_by
  all_goals
    have h1 := length_skip_le ']' (skip '^' rest)
    have h2 := length_skip_le '^' rest
    simp only [List.length_cons]
    omega

/-- The offset behind the class that starts at an offset; `none` if the class never ends. -/
def classEnd (source : List Char) (start : Nat) : Checked (Option Nat) := do
  let cs ← slice source start (utf8Length source)
  closingFrom start 0 false (located 0 cs)

/-- The piece of a character that stands for itself or is a parenthesis. -/
def pieceOf (c : Char) : Piece :=
  if c = '(' then .opening else if c = ')' then .closing else .char c

/-- The pieces of a text from a place on. -/
def piecesFrom (source : List Char) : List (Nat × Char) → Checked (Option (List (Nat × Piece)))
  | [] => .ok (some [])
  | (at_, c) :: rest =>
    if c = '\\' then
      match rest with
      | [] => .ok (some [(at_, .char '\\')])
      | (next, d) :: behind => do
        let text ← slice source at_ (next + d.utf8Size)
        let more ← piecesFrom source behind
        return more.map ((at_, .verbatim text) :: ·)
    else if c = '[' then do
      match ← classEnd source at_ with
      | none => return none
      | some stop =>
        let text ← slice source at_ stop
        let more ← piecesFrom source (rest.dropWhile (·.1 < stop))
        return more.map ((at_, .verbatim text) :: ·)
    else do
      let more ← piecesFrom source rest
      return more.map ((at_, pieceOf c) :: ·)
termination_by cs => cs.length
decreasing_by
  · simp only [List.length_cons]
    omega
  · have := (List.dropWhile_sublist (l := rest) (·.1 < stop)).length_le
    simp only [List.length_cons]
    omega
  · exact Nat.lt_succ_self _

/-- The pieces of a text with their offsets; `none` if a class never ends. -/
def pieces (source : List Char) : Checked (Option (List (Nat × Piece))) :=
  piecesFrom source (located 0 source)

/-! ### Named tokens -/

/-- The table of offsets with those of plain characters outside all groups marked. -/
def markShallow (table : List Bool) (depth : Nat) : List (Nat × Piece) → Checked (List Bool)
  | [] => .ok table
  | (_, .opening) :: more => markShallow table (depth + 1) more
  | (_, .closing) :: more => markShallow table (depth - 1) more
  | (_, .verbatim _) :: more => markShallow table depth more
  | (at_, .char _) :: more =>
    if depth = 0 then do markShallow (← mark table at_) depth more
    else markShallow table depth more

/-- A token and where it stands in a text. -/
structure Found where
  token : Token
  start : Nat
deriving DecidableEq, Repr

namespace Found

/-- Where its name starts. -/
def nameStart (f : Found) : Nat := f.start + utf8Length f.token.lead + 1

/-- Where it ends. -/
def stop (f : Found) : Nat := f.start + utf8Length f.token.text

end Found

/-- The tokens of a text from left to right, the first character at `offset`; the next `taken`
    characters belong to the token before them. -/
def foundFrom : Nat → Nat → List Char → List Found
  | _, _, [] => []
  | offset, taken + 1, c :: rest => foundFrom (offset + c.utf8Size) taken rest
  | offset, 0, c :: rest =>
    match readToken? (c :: rest) with
    | none => foundFrom (offset + c.utf8Size) 0 rest
    | some token => ⟨token, offset⟩ :: foundFrom (offset + c.utf8Size) (token.text.length - 1) rest

/-- What substitution has written, the offsets of its wrappers in it, and how far it has copied. -/
structure Substituted where
  text : List Char
  keys : List Key
  wrappers : List Nat
  copied : Nat

def Substituted.start : Substituted := ⟨[], [], [], 0⟩

/-- The wrapper of a token after a literal lead, with the slash and the dot that stand for
    themselves. -/
def render (lead : List Char) (slash dot : Bool) (token : Token) : Part :=
  let slash := if slash then ['/'] else []
  let inside := (if dot then ['\\', '.'] else []) ++ captureOf token.constraint token.rest dot
  let key : Key := ⟨String.ofList token.name, token.optional⟩
  if token.optional then .wrapper key lead (slash ++ inside)
  else .wrapper key (lead ++ slash) inside

/-- How far into a part its wrapper opens. -/
def wrapperIn : Part → Nat
  | .copied _ => 0
  | .wrapper _ before _ => utf8Length before

/-- Substitution goes on behind a part that is written after what is copied before it. -/
def Substituted.write (s : Substituted) (before : List Char) (part : Part) (stop : Nat) :
    Substituted where
  text := s.text ++ before ++ part.text
  keys := s.keys ++ part.key?.toList
  wrappers := s.wrappers ++ [utf8Length (s.text ++ before) + wrapperIn part]
  copied := stop

/-- What precedes the colon of a token and stays as it is: nothing, if it leads the token. -/
def literalLead (source : List Char) (f : Found) (leads : Bool) (colon : Nat) :
    Checked (List Char) :=
  if leads then .ok [] else slice source f.start colon

/-- The next token of the text: it gets a wrapper, unless its colon is not shallow. -/
def substituteNext (source : List Char) (shallow : List Bool) (s : Substituted) (f : Found) :
    Checked Substituted := do
  let colon ← decrement f.nameStart
  if ← entry shallow colon then
    let leads ← entry shallow f.start
    let lead ← literalLead source f leads colon
    let before ← slice source s.copied f.start
    return s.write before (render lead (leads && f.token.slash) (leads && f.token.dot) f.token) f.stop
  else return s

/-- In front of each token that has been found, substitution has copied no further than to its start,
    and the colon that it looks up stands in the token. -/
def InOrder (source : List Char) (shallow : List Bool) (s : Substituted) (found : List Found) :
    Prop :=
  ∀ front f back, found = front ++ f :: back →
    ∃ s' colon, front.foldlM (substituteNext source shallow) s = .ok s' ∧
      decrement f.nameStart = .ok colon ∧ s'.copied ≤ f.start ∧ f.start ≤ colon ∧
      colon < f.stop ∧ f.stop ≤ utf8Length source

/-- The text with every token outside groups replaced by its wrapper. -/
def substitute (source : List Char) : Checked (Option Substituted) := do
  match ← pieces source with
  | none => return none
  | some ps =>
    let shallow ← markShallow (List.replicate (utf8Length source + 1) false) 0 ps
    let s ← (foundFrom 0 0 source).foldlM (substituteNext source shallow) .start
    let rest ← slice source s.copied (utf8Length source)
    return some { s with text := s.text ++ rest }

/-! ### Literal characters -/

/-- The text with dots escaped and stars expanded outside groups, and the offsets moved with it. -/
def spell (source : List Char) (offsets : List Nat) : Checked (Option (List Char × List Nat)) := do
  return (← pieces source).map (spellFrom 0 0 offsets)

/-! ### Slots -/

/-- The groups outside all others that are done, the one that is open, and how many are open. -/
structure Walk where
  groups : List TopGroup
  current : Option TopGroup
  depth : Nat

namespace Walk

def start : Walk := ⟨[], none, 0⟩

/-- The walk after a parenthesis that opens a group. -/
def opening (w : Walk) (wrapper : Bool) (opener : Opener) : Walk :=
  if w.depth = 0 then
    let opener := if wrapper then .named else opener
    ⟨w.groups, some ⟨opener, if opener = .capturing then 1 else 0⟩, w.depth + 1⟩
  else if opener = .capturing then
    ⟨w.groups, w.current.map fun g => { g with captures := g.captures + 1 }, w.depth + 1⟩
  else ⟨w.groups, w.current, w.depth + 1⟩

/-- The walk after a parenthesis that leaves so many groups open. -/
def closing (w : Walk) (depth : Nat) : Walk :=
  if depth = 0 then ⟨w.groups ++ w.current.toList, none, depth⟩ else ⟨w.groups, w.current, depth⟩

end Walk

/-- The walk through pieces, from the one with an index on; `none` at a parenthesis that closes
    nothing. -/
def walkFrom (ps : List (Nat × Piece)) (wrappers : List Nat) (index : Nat) (w : Walk) :
    List (Nat × Piece) → Checked (Option Walk)
  | [] => .ok (some w)
  | (at_, .opening) :: more => do
    let behind ← fromIndex ps (index + 1)
    walkFrom ps wrappers (index + 1) (w.opening (at_ ∈ wrappers) (openerOf behind)) more
  | (_, .closing) :: more =>
    if w.depth = 0 then .ok none
    else do
      let depth ← decrement w.depth
      walkFrom ps wrappers (index + 1) (w.closing depth) more
  | (_, .char _) :: more => walkFrom ps wrappers (index + 1) w more
  | (_, .verbatim _) :: more => walkFrom ps wrappers (index + 1) w more

/-- The slots of a pattern text whose wrappers open at the given offsets. -/
def assignSlots (spec pattern : List Char) (keys : List Key) (wrappers : List Nat) :
    Checked (Except RouteError (List Slot)) := do
  match ← pieces pattern with
  | none => return .error (unbalanced spec pattern)
  | some ps =>
    match ← walkFrom ps wrappers 0 Walk.start ps with
    | none => return .error (unbalanced spec pattern)
    | some w =>
      if w.depth ≠ 0 then return .error (unbalanced spec pattern)
      match slotsOf w.groups keys with
      | .ok slots => return .ok slots
      | .error key => return .error (.orphanKey (String.ofList spec) key.name)

/-! ### Compilation -/

/-- The pattern text and the slots of a path spec. -/
def compile (options : CompileOptions) (spec : List Char) :
    Checked (Except RouteError Source) := do
  let text := textFor options spec
  match ← substitute text with
  | none => return .error (unbalanced spec text)
  | some s =>
    match ← spell s.text s.wrappers with
    | none => return .error (unbalanced spec s.text)
    | some (pattern, wrappers) =>
      match ← assignSlots spec pattern s.keys wrappers with
      | .ok slots => return .ok ⟨pattern, slots⟩
      | .error e => return .error e

end Checked

end RequestRouter.Spec
