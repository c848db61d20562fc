/-
  RequestRouter/Number/Shortest.lean
  ==================================
  **The fewest decimal digits that read back as the same floating-point number.**

  For one digit, two digits and so on, the two decimals next to the exact value are tried; the first
  that reads back as the number is taken, the nearer one if both do.
-/
import RequestRouter.Number.Binary

namespace RequestRouter.Number

/-- The decimal exponent of the leading digit of a positive quotient. -/
def leadingPlace (num den : Nat) : Int :=
  let estimate : Int := (Nat.toDigits 10 num).length - (Nat.toDigits 10 den).length
  let reaches :=
    if 0 ≤ estimate then den * tenTo estimate.toNat ≤ num else den ≤ num * tenTo (-estimate).toNat
  if reaches then estimate else estimate - 1

/-- The decimal of at most `count` digits that is nearest to `num / den` among the two neighbours
    that read back as `bits`. -/
def Format.digitsReading? (f : Format) (bits num den : Nat) (place : Int) (count : Nat) :
    Option Decimal :=
  let exponent := place - (count - 1)
  let (n, d) :=
    if 0 ≤ exponent then (num, den * tenTo exponent.toNat)
    else (num * tenTo (-exponent).toNat, den)
  let below : Decimal := ⟨false, n / d, exponent⟩
  let above : Decimal := ⟨false, n / d + 1, exponent⟩
  let readsBack (x : Decimal) := f.ofDecimal x == bits
  let nearest := roundDiv n d
  if readsBack below && (nearest == n / d || !readsBack above) then some below
  else if readsBack above then some above
  else none

/-- Digits without the zeros at their end. -/
def stripZeros : Nat → Nat → Int → Nat × Int
  | 0, digits, exponent => (digits, exponent)
  | fuel + 1, digits, exponent =>
    if digits % 10 = 0 ∧ digits ≠ 0 then stripZeros fuel (digits / 10) (exponent + 1)
    else (digits, exponent)

/-- The shortest decimal that reads back as the finite number `bits`. -/
def Format.shortest (f : Format) (bits : Nat) : Decimal :=
  match f.decode? bits with
  | none => ⟨false, 0, 0⟩
  | some (negative, 0, _) => ⟨negative, 0, 0⟩
  | some (negative, significand, exponent) =>
    let num := significand * twoTo exponent.toNat
    let den := twoTo (-exponent).toNat
    let magnitude := bits % f.signBit
    let place := leadingPlace num den
    let found := (List.range 17).findSome? fun k =>
      f.digitsReading? magnitude num den place (k + 1)
    let d := found.getD ⟨false, 0, 0⟩
    let (digits, exponent) := stripZeros 17 d.digits d.exponent
    ⟨negative, digits, exponent⟩

end RequestRouter.Number
