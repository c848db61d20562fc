/-
  RequestRouter/Unicode/Interval.lean
  ===================================
  **Sets of code points as ascending lists of closed intervals.**

  Every character class that a standard fixes by enumeration is stored this way. A search stops at
  the first interval that starts above the code point, so a lookup of a low character reads only the
  first few entries.
-/

namespace RequestRouter.Unicode

/-- Closed intervals `(first, last)` of code points, ascending and disjoint. -/
abbrev Intervals := List (Nat × Nat)

/-- Whether code point `n` lies in one of the intervals. -/
def Intervals.contains : Intervals → Nat → Bool
  | [], _ => false
  | (first, last) :: rest, n => first ≤ n && (n ≤ last || Intervals.contains rest n)

/-- The intervals and one more, joined with those that it touches. -/
def Intervals.insert (first last : Nat) : Intervals → Intervals
  | [] => [(first, last)]
  | (a, b) :: rest =>
    if last + 1 < a then (first, last) :: (a, b) :: rest
    else if b + 1 < first then (a, b) :: insert first last rest
    else insert (min a first) (max b last) rest

def Intervals.join (s t : Intervals) : Intervals := t.foldl (fun u (a, b) => u.insert a b) s

/-- What lies between the intervals from a code point on. -/
def Intervals.gapsFrom (start : Nat) : Intervals → Intervals
  | [] => if start ≤ 0x10FFFF then [(start, 0x10FFFF)] else []
  | (a, b) :: rest =>
    if start < a then (start, a - 1) :: gapsFrom (b + 1) rest else gapsFrom (b + 1) rest

def Intervals.meet (s t : Intervals) : Intervals :=
  gapsFrom 0 ((gapsFrom 0 s).join (gapsFrom 0 t))

@[simp] theorem Intervals.contains_nil (n : Nat) : Intervals.contains [] n = false := rfl

end RequestRouter.Unicode
