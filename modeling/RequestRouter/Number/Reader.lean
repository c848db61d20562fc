/-
  RequestRouter/Number/Reader.lean
  ================================
  **Numbers from text.**

  A whole number is read digit by digit and refused at the first digit that takes it out of range, so
  an overflow wins over a bad character that comes later. A floating-point number has digits with an
  optional point and exponent, or is one of `inf`, `infinity` and `nan` in any case.
-/
import RequestRouter.Number.Binary
import RequestRouter.Number.Digit
import RequestRouter.Text.Case

namespace RequestRouter.Number

/-! ### Whole numbers -/

/-- Why a text is no whole number of a range. -/
inductive WholeError where
  | empty
  | invalidDigit
  | tooLarge
  | tooSmall
deriving DecidableEq, Repr

namespace WholeError

def message : WholeError → String
  | .empty => "cannot parse integer from empty string"
  | .invalidDigit => "invalid digit found in string"
  | .tooLarge => "number too large to fit in target type"
  | .tooSmall => "number too small to fit in target type"

end WholeError

/-- A range of whole numbers, from `-below` to `above`. Only a range that reaches below zero reads a
    minus sign. -/
structure Range where
  signed : Bool
  below : Nat
  above : Nat
deriving DecidableEq, Repr

namespace Range

/-- The numbers of so many bits, with or without a sign. -/
def ofBits (signed : Bool) (bits : Nat) : Range :=
  if signed then ⟨true, twoTo (bits - 1), twoTo (bits - 1) - 1⟩ else ⟨false, 0, twoTo bits - 1⟩

end Range

/-- The digits after those that make `value`, as long as the number does not pass `limit`. -/
def readDigits (limit : Nat) (outside : WholeError) (value : Nat) :
    List Char → Except WholeError Nat
  | [] => .ok value
  | c :: rest =>
    match digit? 10 c with
    | none => .error .invalidDigit
    | some d =>
      let next := value * 10 + d
      if limit < next then .error outside else readDigits limit outside next rest

/-- The whole number that a text writes. -/
def readWhole (range : Range) (cs : List Char) : Except WholeError Int :=
  match cs with
  | [] => .error .empty
  | ['+'] => .error .invalidDigit
  | ['-'] => .error .invalidDigit
  | '+' :: rest => (readDigits range.above .tooLarge 0 rest).map Int.ofNat
  | '-' :: rest =>
    if range.signed then (readDigits range.below .tooSmall 0 rest).map fun n => -(n : Int)
    else .error .invalidDigit
  | cs => (readDigits range.above .tooLarge 0 cs).map Int.ofNat

/-! ### Floating-point numbers -/

/-- Why a text is no floating-point number. -/
inductive FloatError where
  | empty
  | invalid
deriving DecidableEq, Repr

namespace FloatError

def message : FloatError → String
  | .empty => "cannot parse float from empty string"
  | .invalid => "invalid float literal"

end FloatError

/-- A sign at the start of a text: whether it is a minus, and what is left. -/
def readSign : List Char → Bool × List Char
  | '-' :: rest => (true, rest)
  | '+' :: rest => (false, rest)
  | cs => (false, cs)

/-- Digits with an optional point and exponent. -/
def readDecimal? (negative : Bool) (cs : List Char) : Option Decimal :=
  let whole := cs.takeWhile Char.isDigit
  let cs := cs.dropWhile Char.isDigit
  let (places, cs) := match cs with
    | '.' :: rest => (rest.takeWhile Char.isDigit, rest.dropWhile Char.isDigit)
    | _ => ([], cs)
  if whole.isEmpty && places.isEmpty then none
  else
    let digits := digitsValue 10 (whole ++ places)
    let shift : Int := -(places.length : Int)
    match cs with
    | [] => some ⟨negative, digits, shift⟩
    | e :: rest =>
      if e != 'e' && e != 'E' then none
      else
        let (minus, rest) := readSign rest
        if rest.isEmpty || !rest.all Char.isDigit then none
        else
          let n : Int := digitsValue 10 rest
          some ⟨negative, digits, shift + (if minus then -n else n)⟩

/-- The floating-point number that a text writes, as a pattern. -/
def readFloat (f : Format) (cs : List Char) : Except FloatError Nat :=
  if cs.isEmpty then .error .empty
  else
    let (negative, body) := readSign cs
    let word := String.ofList (body.map Char.toLower)
    if word = "inf" ∨ word = "infinity" then .ok (f.withSign negative f.infinity)
    else if word = "nan" then .ok (f.withSign negative f.nan)
    else match readDecimal? negative body with
      | some d => .ok (f.ofDecimal d)
      | none => .error .invalid

end RequestRouter.Number
