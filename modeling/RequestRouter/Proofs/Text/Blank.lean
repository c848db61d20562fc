/-
  RequestRouter/Proofs/Text/Blank.lean
  ====================================
  **A text with no blank at either end is trimmed to itself.**
-/
import RequestRouter.Text.Blank

namespace RequestRouter.Text

open RequestRouter.Unicode

theorem dropWhile_of_head? {p : Char → Bool} {cs : List Char} (h : ∀ c ∈ cs.head?, p c = false) :
    cs.dropWhile p = cs := by
  cases cs with
  | nil => rfl
  | cons c cs =>
    have hc : p c = false := h c rfl
    rw [List.dropWhile_cons, hc, if_neg Bool.false_ne_true]

theorem trimChars_of_ends {cs : List Char} (hfirst : ∀ c ∈ cs.head?, isSpace c = false)
    (hlast : ∀ c ∈ cs.getLast?, isSpace c = false) : trimChars cs = cs := by
  have hreverse : ∀ c ∈ cs.reverse.head?, isSpace c = false := by rwa [List.head?_reverse]
  rw [trimChars, dropWhile_of_head? hfirst, dropWhile_of_head? hreverse, List.reverse_reverse]

/-- A text that begins with no blank is trimmed at its end only, and not to nothing. -/
theorem head?_trimChars {cs : List Char} (h : ∀ c ∈ cs.head?, isSpace c = false) :
    (trimChars cs).head? = cs.head? := by
  rw [trimChars, dropWhile_of_head? h]
  cases cs with
  | nil => rfl
  | cons c cs =>
    have hc : isSpace c = false := h c rfl
    rw [List.reverse_cons, List.dropWhile_append, List.dropWhile_cons, hc,
      if_neg Bool.false_ne_true]
    split
    · rfl
    · rw [List.reverse_append]
      rfl

theorem trim_of_ends {s : String} (hfirst : ∀ c ∈ s.toList.head?, isSpace c = false)
    (hlast : ∀ c ∈ s.toList.getLast?, isSpace c = false) : trim s = s := by
  rw [trim, trimChars_of_ends hfirst hlast, String.ofList_toList]

end RequestRouter.Text
