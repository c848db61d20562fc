/-
  RequestRouter/Proofs/Number/Natural.lean
  ========================================
  **Runs of digits read as whole numbers.**

  A path takes runs of decimal digits of any script, but a number is read from ASCII digits only, and
  only up to the greatest one of its type.  What such a run denotes is therefore its value in base ten,
  if it consists of ASCII digits and the value is not too large (`natural?`); reading it as a whole
  number without sign gives that value and fails otherwise (`read_digits`).
-/
import Mathlib.Algebra.Ring.Nat
import RequestRouter.Binding
import RequestRouter.Proofs.Text.Blank
import RequestRouter.Unicode.Classes

namespace RequestRouter.Number

open RequestRouter.Unicode

/-! ### Digits -/

/-- The number that ASCII digits denote, if it has at most so many bits. -/
def natural? (bits : Nat) (digits : List Char) : Option Nat :=
  if digits.all (isDigitIn 10) ∧ digitsValue 10 digits < 2 ^ bits then some (digitsValue 10 digits)
  else none

/-- The number whose first digits make `value`. -/
def valueFrom (value : Nat) (digits : List Char) : Nat :=
  digits.foldl (fun n c => n * 10 + (digit? 10 c).getD 0) value

theorem le_valueFrom (value : Nat) (digits : List Char) : value ≤ valueFrom value digits := by
  induction digits generalizing value with
  | nil => exact Nat.le_refl value
  | cons c rest ih => exact Nat.le_trans (by omega) (ih (value * 10 + (digit? 10 c).getD 0))

/-- Digits are read to their value if it is within the limit.  Numbers grow by every digit, so it is
    enough to look at the last one. -/
theorem readDigits_eq_ok_iff {limit value n : Nat} {outside : WholeError} {cs : List Char}
    (hvalue : value ≤ limit) :
    readDigits limit outside value cs = .ok n ↔
      cs.all (isDigitIn 10) = true ∧ valueFrom value cs = n ∧ n ≤ limit := by
  induction cs generalizing value with
  | nil =>
    rw [readDigits, Except.ok.injEq]
    constructor
    · rintro rfl
      exact ⟨rfl, rfl, hvalue⟩
    · exact fun h => h.2.1
  | cons c rest ih =>
    rw [readDigits, List.all_cons, isDigitIn, valueFrom, List.foldl_cons]
    cases hdigit : digit? 10 c with
    | none => simp
    | some d =>
      simp only [Option.isSome_some, Bool.true_and, Option.getD_some]
      by_cases hnext : limit < value * 10 + d
      · rw [if_pos hnext]
        have hgrows := le_valueFrom (value * 10 + d) rest
        constructor
        · intro h
          cases h
        · rintro ⟨-, hn, hle⟩
          unfold valueFrom at hgrows
          omega
      · rw [if_neg hnext]
        exact ih (Nat.not_lt.mp hnext)

theorem trimChars_of_not_isSpace {cs : List Char} (h : ∀ c ∈ cs, isSpace c = false) :
    Text.trimChars cs = cs :=
  Text.trimChars_of_ends (fun c hc => h c (List.mem_of_mem_head? hc))
    (fun c hc => h c (List.mem_of_getLast? hc))

/-- A run of decimal digits has no sign. -/
theorem readWhole_digits {digits : List Char} (hne : digits ≠ [])
    (hdigits : ∀ c ∈ digits, isDigit c = true) (range : Range) :
    readWhole range digits = (readDigits range.above .tooLarge 0 digits).map Int.ofNat := by
  cases digits with
  | nil => exact absurd rfl hne
  | cons c rest =>
    have hplus : c ≠ '+' := by
      rintro rfl
      exact absurd (hdigits '+' List.mem_cons_self) (by decide)
    have hminus : c ≠ '-' := by
      rintro rfl
      exact absurd (hdigits '-' List.mem_cons_self) (by decide)
    rw [readWhole.eq_def]
    split <;> simp_all

end RequestRouter.Number
