/-
  RequestRouter/Json/Printer.lean
  ===============================
  **JSON documents as text, on one line or indented.**
-/
import RequestRouter.Json.Value
import RequestRouter.Number.Shortest

namespace RequestRouter.Json

open RequestRouter.Number

/-! ### Scalars -/

/-- The lower-case hexadecimal digits of a code point below 256. -/
def hexPair (n : Nat) : List Char := [Nat.digitChar (n / 16), Nat.digitChar (n % 16)]

/-- A character as it is written between quotes: quotes, backslashes and control characters are
    escaped. -/
def escapeChar : Char → List Char
  | '"' => ['\\', '"']
  | '\\' => ['\\', '\\']
  | '\x08' => ['\\', 'b']
  | '\x0C' => ['\\', 'f']
  | '\n' => ['\\', 'n']
  | '\r' => ['\\', 'r']
  | '\t' => ['\\', 't']
  | c => if c.toNat < 32 then ['\\', 'u', '0', '0'] ++ hexPair c.toNat else [c]

def quote (s : String) : String :=
  String.ofList ('"' :: s.toList.flatMap escapeChar ++ ['"'])

/-- Digits with the point after the first `before` of them. -/
def pointAt (digits : List Char) (before : Nat) : String :=
  String.ofList (digits.take before ++ '.' :: digits.drop before)

/-- A decimal with a point or an exponent: positional from 0.00001 to below ten to the sixteenth. -/
def decimalText (d : Decimal) : String :=
  let digits := Nat.toDigits 10 d.digits
  let place : Int := digits.length + d.exponent
  let body :=
    if d.digits = 0 then "0.0"
    else if 0 ≤ d.exponent ∧ place ≤ 16 then
      String.ofList (digits ++ List.replicate d.exponent.toNat '0') ++ ".0"
    else if 0 < place ∧ place ≤ 16 then pointAt digits place.toNat
    else if -5 < place ∧ place ≤ 0 then
      "0." ++ String.ofList (List.replicate (-place).toNat '0' ++ digits)
    else
      let significand := if digits.length = 1 then String.ofList digits else pointAt digits 1
      significand ++ "e" ++ toString (place - 1)
  if d.negative then "-" ++ body else body

/-- A floating-point number in its fewest digits; null if it is not finite. -/
def floatText (bits : Nat) : String :=
  match Format.double.decode? bits with
  | none => "null"
  | some _ => decimalText (Format.double.shortest bits)

/-! ### One line -/

mutual

/-- A document on one line, without blanks. -/
def Value.compact : Value → String
  | .null => "null"
  | .bool b => if b then "true" else "false"
  | .whole n => toString n
  | .float bits => floatText bits
  | .text s => quote s
  | .array items => "[" ++ ",".intercalate (compactItems items) ++ "]"
  | .object members => "\x7b" ++ ",".intercalate (compactMembers members) ++ "\x7d"

def compactItems : List Value → List String
  | [] => []
  | v :: more => v.compact :: compactItems more

def compactMembers : List (String × Value) → List String
  | [] => []
  | (name, v) :: more => (quote name ++ ":" ++ v.compact) :: compactMembers more

end

/-! ### Indented -/

/-- The start of a line at a depth: two blanks for each level. -/
def newLine (depth : Nat) : String := "\n" ++ String.ofList (List.replicate (2 * depth) ' ')

/-- Entries between brackets, each on a line of its own; nothing between them if there is none. -/
def block (opening closing : String) (depth : Nat) (entries : List String) : String :=
  if entries.isEmpty then opening ++ closing
  else
    opening ++ newLine (depth + 1) ++ ("," ++ newLine (depth + 1)).intercalate entries ++
      newLine depth ++ closing

mutual

/-- A document over several lines. -/
def Value.indented (depth : Nat) : Value → String
  | .null => "null"
  | .bool b => if b then "true" else "false"
  | .whole n => toString n
  | .float bits => floatText bits
  | .text s => quote s
  | .array items => block "[" "]" depth (indentedItems (depth + 1) items)
  | .object members => block "\x7b" "\x7d" depth (indentedMembers (depth + 1) members)

/-- Each item over several lines. -/
def indentedItems (depth : Nat) : List Value → List String
  | [] => []
  | v :: more => v.indented depth :: indentedItems depth more

/-- Each member over several lines. -/
def indentedMembers (depth : Nat) : List (String × Value) → List String
  | [] => []
  | (name, v) :: more => (quote name ++ ": " ++ v.indented depth) :: indentedMembers depth more

end

/-! ### Sorted members -/

/-- A member put into a list sorted by name; a member of the same name is replaced. -/
def putMember (name : String) (v : Value) : List (String × Value) → List (String × Value)
  | [] => [(name, v)]
  | (n, w) :: more =>
    if name < n then (name, v) :: (n, w) :: more
    else if name = n then (name, v) :: more
    else (n, w) :: putMember name v more

mutual

/-- The document with the members of every object sorted by name, of equal names the last. -/
def Value.sorted : Value → Value
  | .array items => .array (sortedItems items)
  | .object members => .object (sortedMembers [] members)
  | v => v

def sortedItems : List Value → List Value
  | [] => []
  | v :: more => v.sorted :: sortedItems more

/-- The members, each sorted, put among those before them. -/
def sortedMembers (before : List (String × Value)) : List (String × Value) → List (String × Value)
  | [] => before
  | (name, v) :: more => sortedMembers (putMember name v.sorted before) more

end

end RequestRouter.Json
