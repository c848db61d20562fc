/-
  RequestRouter/Regex/Match.lean
  ==============================
  **Where an expression can stop reading, in order of preference.**

  `Expr.ends` lists, for a place in the text, the places that the expression can reach from there:
  the preferred one first, each place once. The match of a whole search is the first place reached
  from the leftmost start that reaches any. Groups travel with the place, the newest first, so
  a group read in several rounds keeps its last text.
-/
import RequestRouter.Regex.Expr

namespace RequestRouter.Regex

open RequestRouter.Unicode

/-- A stretch of the text: what is read from its start on, and how many characters belong to it. -/
structure Span where
  start : List Char
  length : Nat
deriving DecidableEq, Repr

def Span.chars (s : Span) : List Char := s.start.take s.length

/-- A place in the text, with the groups read on the way to it. -/
structure Cursor where
  /-- The character before the place. -/
  before : Option Char
  /-- The text after the place. -/
  rest : List Char
  /-- How many characters stand before the place. -/
  offset : Nat
  groups : List (Nat × Span)
deriving DecidableEq, Repr

namespace Cursor

def start (text : List Char) : Cursor := ⟨none, text, 0, []⟩

def step? (set : CharSet) (p : Cursor) : Option Cursor :=
  match p.rest with
  | [] => none
  | c :: rest => if set.contains c then some ⟨some c, rest, p.offset + 1, p.groups⟩ else none

/-- The place with the stretch read since `origin` kept under `index`. -/
def keep (p : Cursor) (index : Nat) (origin : Cursor) : Cursor :=
  { p with groups := (index, ⟨origin.rest, p.offset - origin.offset⟩) :: p.groups }

/-- The text last kept under `index`. -/
def group? (p : Cursor) (index : Nat) : Option (List Char) :=
  (p.groups.lookup index).map Span.chars

end Cursor

/-! ### Assertions -/

def wordAt (unicode : Bool) : Option Char → Bool
  | none => false
  | some c => if unicode then isWord c else c.isAlphanum || c == '_'

/-- Whether the assertion holds between the character before and the text after. -/
def Assertion.holds (a : Assertion) (before : Option Char) (rest : List Char) : Bool :=
  match a with
  | .textStart => before.isNone
  | .textEnd => rest.isEmpty
  | .lineStart false => before.isNone || before == some '\n'
  | .lineStart true =>
    before.isNone || before == some '\n' || (before == some '\r' && rest.head? != some '\n')
  | .lineEnd false => rest.isEmpty || rest.head? == some '\n'
  | .lineEnd true =>
    rest.isEmpty || rest.head? == some '\r' || (rest.head? == some '\n' && before != some '\r')
  | .boundary u => wordAt u before != wordAt u rest.head?
  | .noBoundary u => wordAt u before == wordAt u rest.head?
  | .wordStart u => !wordAt u before && wordAt u rest.head?
  | .wordEnd u => wordAt u before && !wordAt u rest.head?
  | .wordStartHalf u => !wordAt u before
  | .wordEndHalf u => !wordAt u rest.head?

/-! ### Lists of places -/

/-- The places whose offset is neither in `seen` nor taken by an earlier one. -/
def firstsFrom (seen : List Nat) : List Cursor → List Cursor
  | [] => []
  | p :: more =>
    if p.offset ∈ seen then firstsFrom seen more
    else p :: firstsFrom (p.offset :: seen) more

def firsts (places : List Cursor) : List Cursor := firstsFrom [] places

/-- A place added to those found, the newest first, unless its offset is taken. -/
def note (found : List Cursor) (p : Cursor) : List Cursor :=
  if found.any (·.offset == p.offset) then found else p :: found

/-! ### Rounds -/

section Rounds

variable (step : Cursor → List Cursor) (greedy : Bool)

/-- Exactly `n` rounds. -/
def exactly (p : Cursor) : Nat → List Cursor
  | 0 => [p]
  | n + 1 => firsts ((exactly p n).flatMap step)

/-- Any number of further rounds that each read something, from `p` on; the places found, the newest
    first, are added to `found`. The number bounds the rounds. -/
def onward : Nat → Cursor → List Cursor → List Cursor
  | 0, p, found => note found p
  | n + 1, p, found =>
    if found.any (·.offset == p.offset) then found
    else
      let start := if greedy then found else p :: found
      let after := (step p).foldl
        (fun found q => if q.offset = p.offset then found else onward n q found) start
      if greedy then p :: after else after

/-- One round or more. A first round that reads nothing is the last. -/
def oneOrMore (p : Cursor) : List Cursor :=
  ((step p).foldl
    (fun found q =>
      if q.offset = p.offset then note found q
      else onward step greedy (q.rest.length + 1) q found) []).reverse

/-- Any number of rounds. -/
def zeroOrMore (p : Cursor) : List Cursor :=
  firsts (if greedy then oneOrMore step greedy p ++ [p] else p :: oneOrMore step greedy p)

/-- What a bounded repetition has found, and from which places it has gone on with how many rounds
    left. -/
structure Trail where
  tried : List (Nat × Nat)
  found : List Cursor

/-- At most so many further rounds from `p` on. -/
def upTo : Nat → Cursor → Trail → Trail
  | 0, p, t => { t with found := note t.found p }
  | n + 1, p, t =>
    if (n, p.offset) ∈ t.tried then t
    else
      let found := if greedy then t.found else note t.found p
      let t := (step p).foldl (fun t q => upTo n q t) ⟨(n, p.offset) :: t.tried, found⟩
      if greedy then { t with found := note t.found p } else t

/-- At most `n` rounds. -/
def atMost (n : Nat) (p : Cursor) : List Cursor := (upTo step greedy n p ⟨[], []⟩).found.reverse

end Rounds

/-! ### Matching -/

/-- The places that the expression can reach from `p`, in order of preference. -/
def Expr.ends : Expr → Cursor → List Cursor
  | .empty, p => [p]
  | .one set, p => (p.step? set).toList
  | .look a, p => if a.holds p.before p.rest then [p] else []
  | .group index e, p => (e.ends p).map (·.keep index p)
  | .seq a b, p => firsts ((a.ends p).flatMap b.ends)
  | .alt a b, p => firsts (a.ends p ++ b.ends p)
  | .rounds e 0 none greedy, p => zeroOrMore e.ends greedy p
  | .rounds e (n + 1) none greedy, p =>
    firsts ((exactly e.ends p n).flatMap (oneOrMore e.ends greedy))
  | .rounds e least (some most) greedy, p =>
    firsts ((exactly e.ends p least).flatMap (atMost e.ends greedy (most - least)))

/-- The preferred match that starts at the given place or, failing that, at the next that has one. -/
def Expr.findFrom (e : Expr) (before : Option Char) (offset : Nat) (rest : List Char) :
    Option Cursor :=
  match e.ends ⟨before, rest, offset, []⟩ with
  | p :: _ => some p
  | [] =>
    match rest with
    | [] => none
    | c :: rest => e.findFrom (some c) (offset + 1) rest

/-- The preferred match in the text that starts leftmost. -/
def Expr.find (e : Expr) (text : List Char) : Option Cursor := e.findFrom none 0 text

end RequestRouter.Regex
