/-
  RequestRouter/Json/Reader.lean
  ==============================
  **JSON documents from text.**

  A whole number that fits 64 bits, with or without sign, is kept exactly; other numbers are rounded
  to 64-bit floating point, and so is a negative zero. Halves of a surrogate pair are joined; a lone
  half is no text.
-/
import RequestRouter.Json.Value
import RequestRouter.Number.Binary
import RequestRouter.Number.Digit

namespace RequestRouter.Json

open RequestRouter.Number

def skipBlanks (cs : List Char) : List Char :=
  cs.dropWhile fun c => c == ' ' || c == '\t' || c == '\n' || c == '\r'

/-! ### Texts -/

/-- The value of four hexadecimal digits. -/
def hexFour? (a b c d : Char) : Option Nat :=
  let digits := [a, b, c, d]
  if digits.all (isDigitIn 16) then some (digitsValue 16 digits) else none

/-- The character that a letter after a backslash stands for. -/
def shortEscape? : Char → Option Char
  | '"' => some '"'
  | '\\' => some '\\'
  | '/' => some '/'
  | 'b' => some '\x08'
  | 'f' => some '\x0C'
  | 'n' => some '\n'
  | 'r' => some '\r'
  | 't' => some '\t'
  | _ => none

/-- A code point, or half of a surrogate pair, added to the characters read so far. -/
def addCode (seen : List Char) (high : Option Nat) (n : Nat) : Option (List Char × Option Nat) :=
  match high with
  | some h =>
    if 0xDC00 ≤ n ∧ n < 0xE000 then
      some (Char.ofNat (0x10000 + (h - 0xD800) * 1024 + (n - 0xDC00)) :: seen, none)
    else none
  | none =>
    if 0xD800 ≤ n ∧ n < 0xDC00 then some (seen, some n)
    else if n.isValidChar then some (Char.ofNat n :: seen, none)
    else none

/-- Reads a text up to its closing quote. The characters read so far come newest first; `high` is the
    first half of a surrogate pair that waits for the second. -/
def readText (seen : List Char) (high : Option Nat) : List Char → Option (String × List Char)
  | '"' :: rest => if high.isSome then none else some (String.ofList seen.reverse, rest)
  | '\\' :: 'u' :: a :: b :: c :: d :: rest =>
    match (hexFour? a b c d).bind (addCode seen high) with
    | some (seen, high) => readText seen high rest
    | none => none
  | '\\' :: c :: rest =>
    match shortEscape? c with
    | some d => if high.isSome then none else readText (d :: seen) none rest
    | none => none
  | c :: rest => if c.toNat < 32 || high.isSome then none else readText (c :: seen) none rest
  | [] => none

/-! ### Numbers -/

/-- A number: sign, whole part, fraction, exponent. -/
def readNumber? (cs : List Char) : Option (Value × List Char) :=
  let (negative, cs) := match cs with
    | '-' :: rest => (true, rest)
    | _ => (false, cs)
  let whole := cs.takeWhile Char.isDigit
  let cs := cs.dropWhile Char.isDigit
  let (fraction, cs) := match cs with
    | '.' :: rest => (some (rest.takeWhile Char.isDigit), rest.dropWhile Char.isDigit)
    | _ => (none, cs)
  let (exponent, cs) : Option (Int × Bool) × List Char := match cs with
    | e :: rest =>
      if e == 'e' || e == 'E' then
        let (sign, rest) := match rest with
          | '-' :: more => ((-1 : Int), more)
          | '+' :: more => (1, more)
          | _ => (1, rest)
        let digits := rest.takeWhile Char.isDigit
        (some (sign * digitsValue 10 digits, digits.isEmpty), rest.dropWhile Char.isDigit)
      else (none, cs)
    | [] => (none, cs)
  let leadingZero := whole.length > 1 && whole.head? == some '0'
  if whole.isEmpty || leadingZero || fraction == some [] || exponent.any (·.2) then none
  else
    let n := digitsValue 10 whole
    let isWhole := fraction.isNone && exponent.isNone
    if isWhole && !negative && n < twoTo 64 then some (.whole n, cs)
    else if isWhole && negative && 0 < n && n ≤ twoTo 63 then some (.whole (-n), cs)
    else
      let places := fraction.getD []
      let decimal : Decimal :=
        ⟨negative, digitsValue 10 (whole ++ places), (exponent.map (·.1)).getD 0 - places.length⟩
      some (.float (Format.double.ofDecimal decimal), cs)

/-! ### Documents -/

mutual

/-- A document at the start of a text; the number bounds the nesting and the length. -/
def readValue : Nat → List Char → Option (Value × List Char)
  | 0, _ => none
  | fuel + 1, cs =>
    match skipBlanks cs with
    | 'n' :: 'u' :: 'l' :: 'l' :: rest => some (.null, rest)
    | 't' :: 'r' :: 'u' :: 'e' :: rest => some (.bool true, rest)
    | 'f' :: 'a' :: 'l' :: 's' :: 'e' :: rest => some (.bool false, rest)
    | '"' :: rest => (readText [] none rest).map fun (s, rest) => (.text s, rest)
    | '[' :: rest =>
      match skipBlanks rest with
      | ']' :: rest => some (.array [], rest)
      | rest => (readItems fuel rest).map fun (items, rest) => (.array items, rest)
    | '\x7b' :: rest =>
      match skipBlanks rest with
      | '\x7d' :: rest => some (.object [], rest)
      | rest => (readMembers fuel rest).map fun (members, rest) => (.object members, rest)
    | cs => readNumber? cs

/-- The items of an array, with its closing bracket. -/
def readItems : Nat → List Char → Option (List Value × List Char)
  | 0, _ => none
  | fuel + 1, cs =>
    match readValue fuel cs with
    | none => none
    | some (v, rest) =>
      match skipBlanks rest with
      | ',' :: rest => (readItems fuel rest).map fun (items, rest) => (v :: items, rest)
      | ']' :: rest => some ([v], rest)
      | _ => none

/-- The members of an object, with its closing brace. -/
def readMembers : Nat → List Char → Option (List (String × Value) × List Char)
  | 0, _ => none
  | fuel + 1, cs =>
    match skipBlanks cs with
    | '"' :: rest =>
      match readText [] none rest with
      | none => none
      | some (name, rest) =>
        match skipBlanks rest with
        | ':' :: rest =>
          match readValue fuel rest with
          | none => none
          | some (v, rest) =>
            match skipBlanks rest with
            | ',' :: rest =>
              (readMembers fuel rest).map fun (members, rest) => ((name, v) :: members, rest)
            | '\x7d' :: rest => some ([(name, v)], rest)
            | _ => none
        | _ => none
    | _ => none

end

/-- The document that a text is the written form of. -/
def Value.ofText? (text : String) : Option Value :=
  let cs := text.toList
  match readValue (cs.length + 1) cs with
  | some (v, rest) => if (skipBlanks rest).isEmpty then some v else none
  | none => none

end RequestRouter.Json
