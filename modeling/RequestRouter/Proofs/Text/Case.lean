/-
  RequestRouter/Proofs/Text/Case.lean
  ===================================
  **Making letters small changes nothing but letters.**

  What distinguishes an ASCII letter from other characters does not distinguish a capital from a small
  letter: whether it stands in a word, how many octets it takes, that it is no mark of any syntax.
  There are few letters, so such a fact is seen by a look at each (`forall_isAlpha`).
-/
import RequestRouter.Text.Case
import RequestRouter.Text.Utf8
import RequestRouter.Unicode.Classes

namespace RequestRouter.Text

open RequestRouter.Unicode

theorem toNat_lt_of_isAlpha {c : Char} (h : c.isAlpha = true) : c.toNat < 128 := by
  rcases Bool.or_eq_true_iff.mp h with hupper | hlower
  · obtain ⟨-, hle⟩ := of_decide_eq_true hupper
    exact Nat.lt_of_le_of_lt (UInt32.le_iff_toNat_le.mp hle) (by decide)
  · obtain ⟨-, hle⟩ := Bool.and_eq_true_iff.mp hlower
    exact Nat.lt_of_le_of_lt (UInt32.le_iff_toNat_le.mp (of_decide_eq_true hle)) (by decide)

/-- What holds of every ASCII letter holds of a letter. -/
theorem forall_isAlpha {P : Char → Prop}
    (hall : ∀ n : Fin 128, (Char.ofNat n).isAlpha = true → P (Char.ofNat n)) {c : Char}
    (h : c.isAlpha = true) : P c := by
  have hc := hall ⟨c.toNat, toNat_lt_of_isAlpha h⟩
  rw [Char.ofNat_toNat] at hc
  exact hc h

theorem toLower_of_not_isAlpha {c : Char} (h : c.isAlpha = false) : c.toLower = c := by
  have hupper : c.isUpper = false := (Bool.or_eq_false_iff.mp h).1
  exact dif_neg (of_decide_eq_false hupper)

/-- What letters have in common whatever their case, all characters have. -/
theorem congr_toLower {α : Type} (f : Char → α)
    (hall : ∀ n : Fin 128, (Char.ofNat n).isAlpha = true →
      f (Char.ofNat n).toLower = f (Char.ofNat n)) (c : Char) : f c.toLower = f c := by
  cases h : c.isAlpha with
  | false => rw [toLower_of_not_isAlpha h]
  | true => exact forall_isAlpha (P := fun c => f c.toLower = f c) hall h

/-- Nothing else becomes a character that is no letter. -/
theorem toLower_eq_iff {c d : Char} (hd : d.isAlpha = false) : c.toLower = d ↔ c = d := by
  constructor
  · rintro rfl
    rw [congr_toLower Char.isAlpha (by decide)] at hd
    exact (toLower_of_not_isAlpha hd).symm
  · rintro rfl
    exact toLower_of_not_isAlpha hd

/-- Different characters that are the same when made small are letters. -/
theorem isAlpha_of_toLower_eq {c d : Char} (h : c.toLower = d.toLower) (hne : c ≠ d) :
    c.isAlpha = true := by
  rw [← Bool.not_eq_false]
  intro hc
  rw [toLower_of_not_isAlpha hc] at h
  exact hne ((toLower_eq_iff hc).mp h.symm).symm

@[simp] theorem utf8Size_toLower (c : Char) : c.toLower.utf8Size = c.utf8Size :=
  congr_toLower Char.utf8Size (by decide) c

@[simp] theorem isWord_toLower (c : Char) : isWord c.toLower = isWord c :=
  congr_toLower isWord (by decide +kernel) c

/-! ### Texts -/

/-- The characters with the ASCII capitals among them made small. -/
def small (cs : List Char) : List Char := cs.map Char.toLower

@[simp] theorem small_nil : small [] = [] := rfl

@[simp] theorem small_cons (c : Char) (cs : List Char) :
    small (c :: cs) = c.toLower :: small cs := rfl

@[simp] theorem small_append (a b : List Char) : small (a ++ b) = small a ++ small b :=
  List.map_append

@[simp] theorem length_small (cs : List Char) : (small cs).length = cs.length :=
  List.length_map _

@[simp] theorem utf8Length_small (cs : List Char) : utf8Length (small cs) = utf8Length cs := by
  induction cs with
  | nil => rfl
  | cons c cs ih => simp [ih]

theorem small_flatMap {α : Type} (f : α → List Char) (as : List α) :
    small (as.flatMap f) = as.flatMap fun a => small (f a) := by
  induction as with
  | nil => rfl
  | cons a as ih => simp [ih]

/-- Classes of characters that hold a letter in both cases or in none take the same from a text. -/
theorem takeWhile_small {p : Char → Bool} (hp : ∀ c, p c.toLower = p c) (cs : List Char) :
    (small cs).takeWhile p = small (cs.takeWhile p) := by
  induction cs with
  | nil => rfl
  | cons c cs ih =>
    rw [small_cons, List.takeWhile_cons, List.takeWhile_cons, hp, ih]
    split
    · rfl
    · rfl

theorem dropWhile_small {p : Char → Bool} (hp : ∀ c, p c.toLower = p c) (cs : List Char) :
    (small cs).dropWhile p = small (cs.dropWhile p) := by
  induction cs with
  | nil => rfl
  | cons c cs ih =>
    rw [small_cons, List.dropWhile_cons, List.dropWhile_cons, hp, ih]
    split
    · rfl
    · rfl

end RequestRouter.Text
