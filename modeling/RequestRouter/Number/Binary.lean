/-
  RequestRouter/Number/Binary.lean
  ================================
  **Binary floating point, computed on natural numbers.**

  A floating-point number is its bit pattern. `ofDecimal` rounds a decimal to the nearest number of a
  format, ties to the even significand; `decode?` gives the exact value back. No arithmetic of the
  machine is involved.
-/

namespace RequestRouter.Number

/-- `digits · 10 ^ exponent`, with a sign. -/
structure Decimal where
  negative : Bool
  digits : Nat
  exponent : Int
deriving DecidableEq, Repr

def twoTo (n : Nat) : Nat := Nat.pow 2 n

def tenTo (n : Nat) : Nat := Nat.pow 10 n

/-- A quotient rounded to a whole number, a tie to the even one. -/
def roundDiv (num den : Nat) : Nat :=
  let q := num / den
  let r := num % den
  if 2 * r < den then q
  else if den < 2 * r then q + 1
  else if q % 2 = 0 then q
  else q + 1

/-- A format: so many significant bits, so many bits of exponent. -/
structure Format where
  precision : Nat
  exponentBits : Nat
deriving DecidableEq, Repr

namespace Format

/-- 32 bits. -/
def single : Format := ⟨24, 8⟩

/-- 64 bits. -/
def double : Format := ⟨53, 11⟩

/-- How many bits a number takes. -/
def width (f : Format) : Nat := f.precision + f.exponentBits

/-- The exponent of the least bit of the least numbers. -/
def leastExponent (f : Format) : Int := 3 - (twoTo (f.exponentBits - 1) : Int) - f.precision

def infinity (f : Format) : Nat := (twoTo f.exponentBits - 1) * twoTo (f.precision - 1)

def signBit (f : Format) : Nat := twoTo (f.width - 1)

/-- The pattern of a value that is no number. -/
def nan (f : Format) : Nat := f.infinity + twoTo (f.precision - 2)

def withSign (f : Format) (negative : Bool) (bits : Nat) : Nat :=
  if negative then f.signBit + bits else bits

/-- The pattern nearest to the positive quotient `num / den`. -/
def ofQuotient (f : Format) (num den : Nat) : Nat :=
  let estimate : Int := (num.log2 : Int) - (den.log2 : Int)
  let reaches :=
    if 0 ≤ estimate then den * twoTo estimate.toNat ≤ num else den ≤ num * twoTo (-estimate).toNat
  let leading := if reaches then estimate else estimate - 1
  let shift := max (leading - (f.precision - 1)) f.leastExponent
  let significand :=
    if 0 ≤ shift then roundDiv num (den * twoTo shift.toNat)
    else roundDiv (num * twoTo (-shift).toNat) den
  min f.infinity ((shift - f.leastExponent).toNat * twoTo (f.precision - 1) + significand)

/-- The pattern nearest to a decimal. Decimals beyond all finite numbers of the usual formats are
    not multiplied out. -/
def ofDecimal (f : Format) (d : Decimal) : Nat :=
  let magnitude :=
    if d.digits = 0 then 0
    else
      let places : Int := (Nat.toDigits 10 d.digits).length + d.exponent
      if 400 < places then f.infinity
      else if places < -400 then 0
      else if 0 ≤ d.exponent then f.ofQuotient (d.digits * tenTo d.exponent.toNat) 1
      else f.ofQuotient d.digits (tenTo (-d.exponent).toNat)
  f.withSign d.negative magnitude

/-- The sign and the exact value of a pattern, as a significand and a power of two; `none` for
    infinities and patterns that are no number. -/
def decode? (f : Format) (bits : Nat) : Option (Bool × Nat × Int) :=
  let magnitude := bits % f.signBit
  if f.infinity ≤ magnitude then none
  else
    let fraction := magnitude % twoTo (f.precision - 1)
    let biased := magnitude / twoTo (f.precision - 1)
    let value : Nat × Int :=
      if biased = 0 then (fraction, f.leastExponent)
      else (fraction + twoTo (f.precision - 1), f.leastExponent + (biased - 1))
    some (f.signBit ≤ bits, value)

/-- Whether the pattern is no number. -/
def isNan (f : Format) (bits : Nat) : Bool := f.infinity < bits % f.signBit

end Format

end RequestRouter.Number
