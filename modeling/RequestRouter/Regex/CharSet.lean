/-
  RequestRouter/Regex/CharSet.lean
  ================================
  **Sets of characters, as patterns describe them.**

  A set is a term over single characters, ranges and the tables of the Unicode standard. Membership
  is computed on the term, so a complement or an intersection needs no normal form.
-/
import RequestRouter.Unicode.Classes
import RequestRouter.Unicode.Folding

namespace RequestRouter.Regex

open RequestRouter.Unicode

/-- A set of code points. -/
inductive CharSet where
  | none
  | single (code : Nat)
  | range (first last : Nat)
  /-- The characters of identifiers. -/
  | word
  | digit
  | space
  | table (intervals : Intervals)
  | union (a b : CharSet)
  | inter (a b : CharSet)
  | diff (a b : CharSet)
  | symmDiff (a b : CharSet)
  | compl (a : CharSet)
  /-- Every case variant of a member. -/
  | folded (a : CharSet)
  /-- Every variant of a member by the case of ASCII letters. -/
  | foldedAscii (a : CharSet)
deriving DecidableEq, Repr

namespace CharSet

/-- A code point with the case of an ASCII letter changed; other code points unchanged. -/
def swapAscii (n : Nat) : Nat :=
  if 65 ≤ n ∧ n ≤ 90 then n + 32 else if 97 ≤ n ∧ n ≤ 122 then n - 32 else n

/-- Membership of a code point. -/
def holds : CharSet → Nat → Bool
  | .none, _ => false
  | .single code, n => n == code
  | .range first last, n => first ≤ n && n ≤ last
  | .word, n => wordIntervals.contains n
  | .digit, n => digitIntervals.contains n
  | .space, n => spaceIntervals.contains n
  | .table intervals, n => intervals.contains n
  | .union a b, n => a.holds n || b.holds n
  | .inter a b, n => a.holds n && b.holds n
  | .diff a b, n => a.holds n && !b.holds n
  | .symmDiff a b, n => a.holds n != b.holds n
  | .compl a, n => !a.holds n
  | .folded a, n => (variantCodes n).any a.holds
  | .foldedAscii a, n => a.holds n || a.holds (swapAscii n)

def contains (s : CharSet) (c : Char) : Bool := s.holds c.toNat

def ofChar (c : Char) : CharSet := .single c.toNat

/-- The characters between two, both included. -/
def between (first last : Char) : CharSet := .range first.toNat last.toNat

def unions (sets : List CharSet) : CharSet := sets.foldl .union .none

@[simp] theorem contains_ofChar (a c : Char) : (ofChar a).contains c = (c == a) := by
  simp only [contains, ofChar, holds]
  rw [Bool.eq_iff_iff, beq_iff_eq, beq_iff_eq]
  exact ⟨fun h => Char.ext (UInt32.toNat_inj.mp h), fun h => h ▸ rfl⟩

@[simp] theorem contains_compl (a : CharSet) (c : Char) :
    (CharSet.compl a).contains c = !a.contains c := rfl

@[simp] theorem contains_union (a b : CharSet) (c : Char) :
    (CharSet.union a b).contains c = (a.contains c || b.contains c) := rfl

end CharSet

end RequestRouter.Regex
