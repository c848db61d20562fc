/-
  RequestRouter/Proofs/Number/Printed.lean
  ========================================
  **A whole number that is printed is read back.**

  The digits of a number have its value (`digitsValue_toDigits`), so they are read to it if it is not
  too large; a number below zero has a minus sign in front, which only a range that reaches below zero
  reads.  Hence every range reads all of its numbers back (`readWhole_toString`).
-/
import RequestRouter.Proofs.Number.Natural

namespace RequestRouter.Number

open RequestRouter.Unicode

/-! ### Digits of a number -/

/-- What holds of the ten digits holds of each that a number is written with. -/
theorem forall_mem_toDigits {P : Char → Prop} (h : ∀ d : Fin 10, P (d : Nat).digitChar) (n : Nat) :
    ∀ c ∈ Nat.toDigits 10 n, P c := by
  induction n using Nat.strongRecOn with
  | ind n ih =>
    intro c hc
    rw [Nat.toDigits_eq_if (by decide)] at hc
    split at hc
    · next hn =>
      rw [List.mem_singleton] at hc
      exact hc ▸ h ⟨n, hn⟩
    · next hn =>
      rcases List.mem_append.mp hc with hc | hc
      · exact ih (n / 10) (by omega) c hc
      · rw [List.mem_singleton] at hc
        exact hc ▸ h ⟨n % 10, Nat.mod_lt n (by decide)⟩

theorem digitsValue_toDigits (n : Nat) : digitsValue 10 (Nat.toDigits 10 n) = n := by
  induction n using Nat.strongRecOn with
  | ind n ih =>
    rw [Nat.toDigits_eq_if (by decide)]
    split
    · next hn => simp [digitsValue, digit?_digitChar hn]
    · next hn =>
      rw [digitsValue_append_singleton, ih (n / 10) (by omega),
        digit?_digitChar (Nat.mod_lt n (by decide)), Option.getD_some]
      omega

/-- The digits of a number are read to it if it is within the limit. -/
theorem readDigits_toDigits {limit n : Nat} (h : n ≤ limit) (outside : WholeError) :
    readDigits limit outside 0 (Nat.toDigits 10 n) = .ok n := by
  have hdigits : (Nat.toDigits 10 n).all (isDigitIn 10) = true :=
    List.all_eq_true.mpr (forall_mem_toDigits (by decide) n)
  exact (readDigits_eq_ok_iff (Nat.zero_le limit)).mpr ⟨hdigits, digitsValue_toDigits n, h⟩

/-! ### Numbers of a range -/

/-- The numbers of a range. -/
def Range.Holds (range : Range) (n : Int) : Prop := -(range.below : Int) ≤ n ∧ n ≤ range.above

instance (range : Range) (n : Int) : Decidable (range.Holds n) :=
  inferInstanceAs (Decidable (-(range.below : Int) ≤ n ∧ n ≤ range.above))

theorem toList_toString_natCast (n : Nat) : (toString (n : Int)).toList = Nat.toDigits 10 n :=
  Nat.toList_repr

theorem toList_toString_negSucc (n : Nat) :
    (toString (Int.negSucc n)).toList = '-' :: Nat.toDigits 10 (n + 1) := by
  change ("-" ++ (n + 1).repr).toList = _
  rw [String.toList_append, Nat.toList_repr]
  rfl

/-- A printed number has no blanks in it. -/
theorem isSpace_toString (n : Int) : ∀ c ∈ (toString n).toList, isSpace c = false := by
  have hdigits : ∀ m, ∀ c ∈ Nat.toDigits 10 m, isSpace c = false := forall_mem_toDigits (by decide)
  cases n with
  | ofNat n =>
    rw [Int.ofNat_eq_natCast, toList_toString_natCast]
    exact hdigits n
  | negSucc n =>
    rw [toList_toString_negSucc]
    exact List.forall_mem_cons.mpr ⟨by decide, hdigits (n + 1)⟩

/-- **Every range reads its numbers back**, if only one that reads a minus sign reaches below zero. -/
theorem readWhole_toString {range : Range} (hsign : range.signed = false → range.below = 0) {n : Int}
    (h : range.Holds n) : readWhole range (toString n).toList = .ok n := by
  obtain ⟨hbelow, habove⟩ := h
  cases n with
  | ofNat n =>
    rw [Int.ofNat_eq_natCast] at habove ⊢
    have hdigits : ∀ c ∈ Nat.toDigits 10 n, isDigit c = true := forall_mem_toDigits (by decide) n
    rw [toList_toString_natCast, readWhole_digits Nat.toDigits_ne_nil hdigits,
      readDigits_toDigits (Int.ofNat_le.mp habove)]
    rfl
  | negSucc n =>
    have hle : n + 1 ≤ range.below := by omega
    have hsigned : range.signed = true := by
      rw [← Bool.not_eq_false]
      intro hunsigned
      have := hsign hunsigned
      omega
    rw [toList_toString_negSucc, readWhole, if_pos hsigned, readDigits_toDigits hle]
    · rfl
    · exact Nat.toDigits_ne_nil

/-- Only with a sign do the numbers of so many bits reach below zero. -/
theorem below_ofBits {signed : Bool} {bits : Nat} (h : (Range.ofBits signed bits).signed = false) :
    (Range.ofBits signed bits).below = 0 := by
  cases signed with
  | true => cases h
  | false => rfl

end RequestRouter.Number
