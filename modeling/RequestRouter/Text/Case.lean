/-
  RequestRouter/Text/Case.lean
  ============================
  **Texts compared without regard to the case of ASCII letters.**

  Names of parameters, route keys, methods and headers are compared this way. Letters outside ASCII
  keep their case.
-/

namespace RequestRouter.Text

/-- The text with its ASCII capitals made small. -/
def lower (s : String) : String := String.ofList (s.toList.map Char.toLower)

/-- Whether two texts differ at most in the case of ASCII letters. -/
def sameIgnoringCase (a b : String) : Bool :=
  a.toList.map Char.toLower == b.toList.map Char.toLower

@[simp] theorem sameIgnoringCase_refl (a : String) : sameIgnoringCase a a = true := by
  simp [sameIgnoringCase]

theorem sameIgnoringCase_iff {a b : String} :
    sameIgnoringCase a b = true ↔ a.toList.map Char.toLower = b.toList.map Char.toLower := by
  simp [sameIgnoringCase]

theorem sameIgnoringCase_comm (a b : String) : sameIgnoringCase a b = sameIgnoringCase b a := by
  simp only [sameIgnoringCase, Bool.beq_comm]

theorem sameIgnoringCase_trans {a b c : String} (hab : sameIgnoringCase a b = true)
    (hbc : sameIgnoringCase b c = true) : sameIgnoringCase a c = true := by
  rw [sameIgnoringCase_iff] at *
  exact hab.trans hbc

end RequestRouter.Text
