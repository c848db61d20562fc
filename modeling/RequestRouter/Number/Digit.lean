/-
  RequestRouter/Number/Digit.lean
  ===============================
  **Digits in a base of at most sixteen, letters in either case.**
-/

namespace RequestRouter.Number

def digit? (base : Nat) (c : Char) : Option Nat :=
  let value :=
    if '0' ≤ c ∧ c ≤ '9' then some (c.toNat - 48)
    else if 'a' ≤ c ∧ c ≤ 'f' then some (c.toNat - 87)
    else if 'A' ≤ c ∧ c ≤ 'F' then some (c.toNat - 55)
    else none
  value.filter (· < base)

def isDigitIn (base : Nat) (c : Char) : Bool := (digit? base c).isSome

/-- The number that digits write in a base. A character that is no digit counts as zero. -/
def digitsValue (base : Nat) (digits : List Char) : Nat :=
  digits.foldl (fun n c => n * base + (digit? base c).getD 0) 0

/-- The digit that is written for a number below ten has that value. -/
theorem digit?_digitChar {d : Nat} (h : d < 10) : digit? 10 d.digitChar = some d := by
  have small : ∀ n : Fin 10, digit? 10 (n : Nat).digitChar = some (n : Nat) := by decide
  exact small ⟨d, h⟩

@[simp] theorem digitsValue_nil (base : Nat) : digitsValue base [] = 0 := rfl

@[simp] theorem digitsValue_append_singleton (base : Nat) (digits : List Char) (c : Char) :
    digitsValue base (digits ++ [c]) =
      digitsValue base digits * base + (digit? base c).getD 0 := by
  simp [digitsValue]

end RequestRouter.Number
