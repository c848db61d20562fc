/-
  RequestRouter/Text/Blank.lean
  =============================
  **Surrounding white space.**

  Blank means the property White_Space throughout, so a no-break space or an ideographic space is
  trimmed like a plain one.
-/
import RequestRouter.Unicode.Classes

namespace RequestRouter.Text

open RequestRouter.Unicode

/-- The characters without the blanks at either end. -/
def trimChars (cs : List Char) : List Char :=
  ((cs.dropWhile isSpace).reverse.dropWhile isSpace).reverse

/-- The text without the blanks at either end. -/
def trim (s : String) : String := String.ofList (trimChars s.toList)

/-- Whether a text holds nothing but blanks. -/
def isBlank (cs : List Char) : Bool := cs.all isSpace

theorem dropWhile_eq_nil_of_all {p : Char → Bool} {cs : List Char} (h : cs.all p = true) :
    cs.dropWhile p = [] := by
  induction cs with
  | nil => rfl
  | cons c rest ih =>
    simp only [List.all_cons, Bool.and_eq_true] at h
    simp [h.1, ih h.2]

/-- Nothing is left of a blank text. -/
theorem trimChars_of_isBlank {cs : List Char} (h : isBlank cs = true) : trimChars cs = [] := by
  simp [trimChars, dropWhile_eq_nil_of_all h]

end RequestRouter.Text
