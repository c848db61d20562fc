/-
  RequestRouter/Regex/Budget.lean
  ===============================
  **How large an expression may be.**

  An engine refuses an expression that takes too many octets once it is compiled.  What expressions
  take is the engine's own affair, so it is a parameter: a budget says what each expression costs and
  which cost is the last that is accepted.  The standard budget allows ten mebioctets and estimates the
  cost of an expression from the octet sequences that its sets consist of.
-/
import RequestRouter.Regex.Expr

namespace RequestRouter.Regex

open RequestRouter.Unicode

/-- What expressions cost, and the highest cost that is accepted. -/
structure Budget where
  cost : Expr → Nat
  limit : Nat

/-- What the expressions cost, each by itself. -/
def Budget.costs (b : Budget) : List Expr → Nat
  | [] => 0
  | e :: more => b.cost e + b.costs more

/-! ### An estimate -/

/-- The last code points before encodings become longer or their octets range differently. -/
def octetBounds : List Nat := [0x7F, 0x7FF, 0xFFF, 0xCFFF, 0xD7FF, 0xFFFF, 0x3FFFF, 0xFFFFF]

/-- How many sequences of octet ranges the encodings of the code points fall into, roughly. -/
def octetSequences : Intervals → Nat
  | [] => 0
  | (first, last) :: rest =>
    1 + octetBounds.countP (fun bound => first ≤ bound && bound < last) + octetSequences rest

namespace CharSet

/-- The intervals that the set consists of, case variants left out. -/
def intervals : CharSet → Intervals
  | .none => []
  | .single code => [(code, code)]
  | .range first last => [(first, last)]
  | .word => wordIntervals
  | .digit => digitIntervals
  | .space => spaceIntervals
  | .table intervals => intervals
  | .union a b => a.intervals.join b.intervals
  | .inter a b => a.intervals.meet b.intervals
  | .diff a b => a.intervals.meet (Intervals.gapsFrom 0 b.intervals)
  | .symmDiff a b => (a.intervals.meet (Intervals.gapsFrom 0 b.intervals)).join
      (b.intervals.meet (Intervals.gapsFrom 0 a.intervals))
  | .compl a => Intervals.gapsFrom 0 a.intervals
  | .folded a => a.intervals
  | .foldedAscii a => a.intervals

/-- How many sequences of octet ranges the set falls into, roughly. -/
def pieces : CharSet → Nat
  | .folded a => octetSequences a.intervals + 1
  | .foldedAscii a => octetSequences a.intervals + 1
  | s => octetSequences s.intervals

end CharSet

/-- Roughly how many octets the expression takes once every counted round is written out. -/
def Expr.size : Expr → Nat
  | .empty => 0
  | .one set => 64 + 70 * set.pieces
  | .look _ => 32
  | .group _ e => 64 + e.size
  | .seq a b => a.size + b.size
  | .alt a b => 64 + a.size + b.size
  | .rounds e least most _ => 64 + e.size * max 1 (most.getD least)

/-- Ten mebioctets, by the estimate. -/
def Budget.standard : Budget where
  cost := Expr.size
  limit := 10485760

end RequestRouter.Regex
