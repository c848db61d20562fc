/-
  RequestRouter/Toml/Scalar.lean
  ==============================
  **Texts, numbers and moments, each taken from the front of what is left to read.**
-/
import RequestRouter.Number.Reader
import RequestRouter.Text.Front
import RequestRouter.Toml.Tree

namespace RequestRouter.Toml

open RequestRouter.Number RequestRouter.Text

/-! ### Characters -/

/-- A blank within a line. -/
def isBlank (c : Char) : Bool := c == ' ' || c == '\t'

/-- A character that texts and comments may hold: no control character but the tab. -/
def isPrintable (c : Char) : Bool := c == '\t' || (32 ≤ c.toNat && c.toNat != 127)

def isBareKeyChar (c : Char) : Bool :=
  ('a' ≤ c && c ≤ 'z') || ('A' ≤ c && c ≤ 'Z') || ('0' ≤ c && c ≤ '9') || c == '_' || c == '-'

def skipBlanks (cs : List Char) : List Char := cs.dropWhile isBlank

/-- The end of a line, taken from the front. -/
def newline? : List Char → Option (List Char)
  | '\n' :: rest => some rest
  | '\r' :: '\n' :: rest => some rest
  | _ => none

/-- What is left after one line end, if there is one. -/
def skipNewline (cs : List Char) : List Char := (newline? cs).getD cs

/-! ### Escapes -/

/-- The character of a code point in hexadecimal digits. -/
def hexChar? (digits : List Char) : Option Char :=
  let n := digitsValue 16 digits
  if digits.all (isDigitIn 16) && n.isValidChar then some (Char.ofNat n) else none

/-- The character that a letter after a backslash stands for. -/
def shortEscape? : Char → Option Char
  | 'b' => some '\x08'
  | 'f' => some '\x0C'
  | 'n' => some '\n'
  | 'r' => some '\r'
  | 't' => some '\t'
  | '"' => some '"'
  | '\\' => some '\\'
  | _ => none

/-! ### Texts -/

/-- The text of the characters, which come newest first. -/
def textOf (seen : List Char) : String := String.ofList seen.reverse

/-- A text in double quotes, after the opening one. -/
def basicText (seen : List Char) : List Char → Option (String × List Char)
  | '"' :: rest => some (textOf seen, rest)
  | '\\' :: 'u' :: a :: b :: c :: d :: rest =>
    match hexChar? [a, b, c, d] with
    | some x => basicText (x :: seen) rest
    | none => none
  | '\\' :: 'U' :: a :: b :: c :: d :: e :: f :: g :: h :: rest =>
    match hexChar? [a, b, c, d, e, f, g, h] with
    | some x => basicText (x :: seen) rest
    | none => none
  | '\\' :: c :: rest =>
    match shortEscape? c with
    | some x => basicText (x :: seen) rest
    | none => none
  | c :: rest => if isPrintable c then basicText (c :: seen) rest else none
  | [] => none

/-- A text in single quotes, after the opening one. -/
def literalText (seen : List Char) : List Char → Option (String × List Char)
  | '\'' :: rest => some (textOf seen, rest)
  | c :: rest => if isPrintable c then literalText (c :: seen) rest else none
  | [] => none

/-- Whether a line ends here, blanks aside. -/
def endsLine (cs : List Char) : Bool := (newline? (skipBlanks cs)).isSome

/-- A text in three double quotes over several lines, after the opening ones. Up to two quotes may
    stand right before the closing ones. A backslash at the end of a line takes away the line end and
    all blanks and line ends after it; while it does so, `skipping` holds. -/
def basicLines (skipping : Bool) (seen : List Char) : List Char → Option (String × List Char)
  | '"' :: '"' :: '"' :: '"' :: '"' :: rest => some (textOf ('"' :: '"' :: seen), rest)
  | '"' :: '"' :: '"' :: '"' :: rest => some (textOf ('"' :: seen), rest)
  | '"' :: '"' :: '"' :: rest => some (textOf seen, rest)
  | '"' :: rest => basicLines false ('"' :: seen) rest
  | '\n' :: rest => basicLines skipping (if skipping then seen else '\n' :: seen) rest
  | '\r' :: '\n' :: rest => basicLines skipping (if skipping then seen else '\n' :: seen) rest
  | '\\' :: 'u' :: a :: b :: c :: d :: rest =>
    match hexChar? [a, b, c, d] with
    | some x => basicLines false (x :: seen) rest
    | none => none
  | '\\' :: 'U' :: a :: b :: c :: d :: e :: f :: g :: h :: rest =>
    match hexChar? [a, b, c, d, e, f, g, h] with
    | some x => basicLines false (x :: seen) rest
    | none => none
  | '\\' :: c :: rest =>
    if endsLine (c :: rest) then basicLines true seen (c :: rest)
    else match shortEscape? c with
      | some x => basicLines false (x :: seen) rest
      | none => none
  | c :: rest =>
    if skipping && isBlank c then basicLines true seen rest
    else if isPrintable c && c != '\\' then basicLines false (c :: seen) rest
    else none
  | [] => none

/-- A text in three single quotes over several lines, after the opening ones. -/
def literalLines (seen : List Char) : List Char → Option (String × List Char)
  | '\'' :: '\'' :: '\'' :: '\'' :: '\'' :: rest => some (textOf ('\'' :: '\'' :: seen), rest)
  | '\'' :: '\'' :: '\'' :: '\'' :: rest => some (textOf ('\'' :: seen), rest)
  | '\'' :: '\'' :: '\'' :: rest => some (textOf seen, rest)
  | '\n' :: rest => literalLines ('\n' :: seen) rest
  | '\r' :: '\n' :: rest => literalLines ('\n' :: seen) rest
  | c :: rest => if isPrintable c then literalLines (c :: seen) rest else none
  | [] => none

/-! ### Moments -/

/-- Takes a number of two digits from a range. -/
def twoDigits? (least greatest : Nat) : List Char → Option (Nat × List Char)
  | a :: b :: rest =>
    let n := digitsValue 10 [a, b]
    if a.isDigit && b.isDigit && least ≤ n && n ≤ greatest then some (n, rest) else none
  | _ => none

def daysOfMonth (year month : Nat) : Nat :=
  if month = 2 then
    if year % 4 = 0 ∧ (year % 100 ≠ 0 ∨ year % 400 = 0) then 29 else 28
  else if month ∈ [4, 6, 9, 11] then 30
  else 31

def date? (cs : List Char) : Option (List Char) := do
  let (century, cs) ← twoDigits? 0 99 cs
  let (year, cs) ← twoDigits? 0 99 cs
  let cs ← expect? '-' cs
  let (month, cs) ← twoDigits? 1 12 cs
  let cs ← expect? '-' cs
  let (_, cs) ← twoDigits? 1 (daysOfMonth (century * 100 + year) month) cs
  return cs

/-- Takes a fraction of a second, if there is one. -/
def skipFraction : List Char → List Char
  | '.' :: d :: rest => if d.isDigit then rest.dropWhile Char.isDigit else '.' :: d :: rest
  | cs => cs

/-- Takes a time of day. -/
def time? (cs : List Char) : Option (List Char) := do
  let (_, cs) ← twoDigits? 0 23 cs
  let cs ← expect? ':' cs
  let (_, cs) ← twoDigits? 0 59 cs
  let cs ← expect? ':' cs
  let (_, cs) ← twoDigits? 0 60 cs
  return skipFraction cs

/-- Takes a distance from universal time, if there is one. -/
def skipOffset (cs : List Char) : List Char :=
  match cs with
  | c :: rest =>
    if c == 'Z' || c == 'z' then rest
    else if c == '+' || c == '-' then
      let minutes := do
        let (_, cs) ← twoDigits? 0 23 rest
        let cs ← expect? ':' cs
        let (_, cs) ← twoDigits? 0 59 cs
        return cs
      minutes.getD cs
    else cs
  | [] => cs

/-- Takes a date, a time or both. -/
def moment? (cs : List Char) : Option (List Char) :=
  match date? cs with
  | none => time? cs
  | some rest =>
    match rest with
    | c :: more =>
      if c == 'T' || c == 't' || c == ' ' then
        match time? more with
        | some rest => some (skipOffset rest)
        | none => some rest
      else some rest
    | [] => some rest

/-! ### Numbers -/

/-- Takes digits, which single underscores may stand between; the digits come newest first. -/
def digits? (isDigit : Char → Bool) (seen : List Char) : List Char → Option (List Char × List Char)
  | [] => if seen.isEmpty then none else some (seen.reverse, [])
  | '_' :: d :: rest =>
    if seen.isEmpty || !isDigit d then none else digits? isDigit (d :: seen) rest
  | c :: rest =>
    if isDigit c then digits? isDigit (c :: seen) rest
    else if c == '_' || seen.isEmpty then none
    else some (seen.reverse, c :: rest)

/-- Takes the digits of a decimal number before a point; one that starts with a zero ends there. -/
def leadingDigits? : List Char → Option (List Char × List Char)
  | '0' :: rest => some (['0'], rest)
  | cs => digits? Char.isDigit [] cs

/-- Takes a fraction, if there is one, as it is written. -/
def fraction? : List Char → Option (List Char × List Char)
  | '.' :: rest => (digits? Char.isDigit [] rest).map fun (ds, rest) => ('.' :: ds, rest)
  | cs => some ([], cs)

/-- Takes an exponent, if there is one, as it is written. -/
def exponent? : List Char → Option (List Char × List Char)
  | c :: rest =>
    if c == 'e' || c == 'E' then
      let (sign, rest) := match rest with
        | '-' :: more => (['-'], more)
        | '+' :: more => (['+'], more)
        | _ => ([], rest)
      (digits? Char.isDigit [] rest).map fun (ds, rest) => ('e' :: sign ++ ds, rest)
    else some ([], c :: rest)
  | [] => some ([], [])

def wholeRange : Range := .ofBits true 64

/-- A whole number, given by its sign and digits, if it fits. -/
def wholeNode? (sign digits : List Char) : Option Node :=
  match readWhole wholeRange (sign ++ digits) with
  | .ok n => some (.whole n)
  | .error _ => none

/-- A number with a fraction or an exponent, as it is written; none that passes all finite numbers. -/
def floatNode? (written : List Char) : Option Node :=
  match readFloat .double written with
  | .ok bits => if bits = Format.double.infinity then none else some .float
  | .error _ => none

/-- Takes a whole number in a base, after the letters that tell the base. -/
def wholeInBase? (base : Nat) (cs : List Char) : Option (Node × List Char) := do
  let (ds, rest) ← digits? (isDigitIn base) [] cs
  let n := digitsValue base ds
  if n ≤ wholeRange.above then some (.whole n, rest) else none

def number? (cs : List Char) : Option (Node × List Char) :=
  match cs with
  | '0' :: 'x' :: rest => wholeInBase? 16 rest
  | '0' :: 'o' :: rest => wholeInBase? 8 rest
  | '0' :: 'b' :: rest => wholeInBase? 2 rest
  | _ =>
    let (sign, body) := match cs with
      | '-' :: rest => (['-'], rest)
      | '+' :: rest => (['+'], rest)
      | _ => ([], cs)
    match body with
    | 'i' :: 'n' :: 'f' :: rest => some (.float, rest)
    | 'n' :: 'a' :: 'n' :: rest => some (.float, rest)
    | _ => do
      let (whole, cs) ← leadingDigits? body
      let (fraction, cs) ← fraction? cs
      let (exponent, cs) ← exponent? cs
      if fraction.isEmpty && exponent.isEmpty then return (← wholeNode? sign whole, cs)
      else return (← floatNode? (sign ++ whole ++ fraction ++ exponent), cs)

end RequestRouter.Toml
