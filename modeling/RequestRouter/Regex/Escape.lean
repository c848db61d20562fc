/-
  RequestRouter/Regex/Escape.lean
  ===============================
  **What a backslash and the characters after it stand for.**

  Flags decide how a pattern is read: whether blanks and comments in it are ignored, and whether
  letters, classes and boundaries are those of Unicode or of ASCII.
-/
import RequestRouter.Number.Digit
import RequestRouter.Regex.Error
import RequestRouter.Regex.Expr
import RequestRouter.Regex.Property

namespace RequestRouter.Regex

open RequestRouter.Number RequestRouter.Unicode

/-- How a stretch of a pattern is read. -/
structure Flags where
  ignoreCase : Bool := false
  /-- `^` and `$` also match at line ends. -/
  multiLine : Bool := false
  /-- `.` also matches a line end. -/
  dotAll : Bool := false
  /-- Repetitions are reluctant, and greedy with a question mark. -/
  swapGreed : Bool := false
  unicode : Bool := true
  /-- A carriage return ends a line as well. -/
  crlf : Bool := false
  /-- Blanks and comments of the pattern are skipped. -/
  extended : Bool := false
deriving DecidableEq, Repr

/-! ### Blanks and comments -/

/-- What is left after blanks and comments; a comment runs from `#` to the end of the line. -/
def skipIgnored (inComment : Bool) : List Char → List Char
  | [] => []
  | c :: rest =>
    if inComment then skipIgnored (c != '\n') rest
    else if isSpace c then skipIgnored false rest
    else if c = '#' then skipIgnored true rest
    else c :: rest

/-- What is left after blanks and comments, if they are to be skipped. -/
def skip (extended : Bool) (cs : List Char) : List Char :=
  if extended then skipIgnored false cs else cs

/-- The characters up to the first that `p` refuses, with what is ignored between them skipped, and
    what is left. -/
def takeSpaced (p : Char → Bool) (extended : Bool) : Nat → List Char → List Char × List Char
  | 0, cs => ([], cs)
  | n + 1, cs =>
    match cs with
    | [] => ([], [])
    | c :: rest =>
      if p c then
        let (taken, left) := takeSpaced p extended n (skip extended rest)
        (c :: taken, left)
      else ([], c :: rest)

/-! ### Code points by number -/

/-- The character with the code point that the digits write. -/
def charOfHex (digits : List Char) : Except Error Char :=
  let n := digitsValue 16 digits
  if n.isValidChar then .ok (Char.ofNat n) else .error .badCodePoint

/-- Exactly `n` hexadecimal digits, and what is left. -/
def takeHex (extended : Bool) : Nat → List Char → Except Error (List Char × List Char)
  | 0, cs => .ok ([], cs)
  | n + 1, cs =>
    match cs with
    | [] => .error .badEscape
    | c :: rest =>
      if !isDigitIn 16 c then .error .badEscape
      else do
        let (digits, left) ← takeHex extended n (skip extended rest)
        .ok (c :: digits, left)

/-! ### Escapes -/

/-- What an escape, or a character that is none, stands for. -/
inductive Primitive where
  /-- A character; `octet` if it was given by the two digits of an octet. -/
  | literal (c : Char) (octet : Bool)
  | dot
  | look (a : Assertion)
  /-- One of the classes of digits, blanks and words. -/
  | shorthand (c : Char) (negated : Bool)
  | property (set : CharSet) (negated : Bool)
deriving DecidableEq, Repr

/-- A code point by number, after `x`, `u` or `U`. -/
def readHex (extended : Bool) (digits : Nat) (cs : List Char) :
    Except Error (Primitive × List Char) :=
  match skip extended cs with
  | [] => .error .badEscape
  | '\x7b' :: rest =>
    let rest := skip extended rest
    match takeSpaced (isDigitIn 16) extended rest.length rest with
    | ([], _) => .error .badEscape
    | (ds, '\x7d' :: left) => do
      .ok (.literal (← charOfHex ds) false, skip extended left)
    | _ => .error .badEscape
  | cs => do
    let (ds, left) ← takeHex extended digits cs
    .ok (.literal (← charOfHex ds) (digits == 2), left)

/-- A property, after `p` or `P`. -/
def readProperty (extended : Bool) (negated : Bool) (cs : List Char) :
    Except Error (Primitive × List Char) :=
  let found (asked : Option CharSet) (left : List Char) :=
    match asked with
    | none => .error .unknownProperty
    | some set => .ok (.property set negated, left)
  match skip extended cs with
  | [] => .error .badEscape
  | '\x7b' :: rest =>
    let rest := skip extended rest
    match takeSpaced (· != '\x7d') extended rest.length rest with
    | (_, []) => .error .badEscape
    | (name, _ :: left) => found (Property.ofText? name) left
  | '\\' :: _ => .error .unknownProperty
  | c :: rest => found (Property.byName? [c]) (skip extended rest)

/-- A kind of word boundary in braces after `\b`; `none` if the braces hold something else, such as
    a count. -/
def readBoundaryKind (extended : Bool) (unicode : Bool) (cs : List Char) :
    Except Error (Option (Assertion × List Char)) :=
  let inKind (c : Char) := c.isAlpha || c == '-'
  match skip extended cs with
  | [] => .error .badEscape
  | c :: rest =>
    if !inKind c then .ok none
    else match takeSpaced inKind extended (c :: rest).length (c :: rest) with
      | (kind, '\x7d' :: left) =>
        if kind = "start".toList then .ok (some (.wordStart unicode, left))
        else if kind = "end".toList then .ok (some (.wordEnd unicode, left))
        else if kind = "start-half".toList then .ok (some (.wordStartHalf unicode, left))
        else if kind = "end-half".toList then .ok (some (.wordEndHalf unicode, left))
        else .error .badEscape
      | _ => .error .badEscape

/-- What the characters after a backslash stand for, and what is left. Any ASCII character other
    than a letter, a digit, `<` and `>` stands for itself. -/
def readEscape (flags : Flags) : List Char → Except Error (Primitive × List Char)
  | [] => .error .badEscape
  | c :: rest =>
    match c with
    | 'x' => readHex flags.extended 2 rest
    | 'u' => readHex flags.extended 4 rest
    | 'U' => readHex flags.extended 8 rest
    | 'p' => readProperty flags.extended false rest
    | 'P' => readProperty flags.extended true rest
    | 'd' => .ok (.shorthand 'd' false, rest)
    | 's' => .ok (.shorthand 's' false, rest)
    | 'w' => .ok (.shorthand 'w' false, rest)
    | 'D' => .ok (.shorthand 'd' true, rest)
    | 'S' => .ok (.shorthand 's' true, rest)
    | 'W' => .ok (.shorthand 'w' true, rest)
    | 'a' => .ok (.literal '\x07' false, rest)
    | 'f' => .ok (.literal '\x0C' false, rest)
    | 't' => .ok (.literal '\t' false, rest)
    | 'n' => .ok (.literal '\n' false, rest)
    | 'r' => .ok (.literal '\r' false, rest)
    | 'v' => .ok (.literal '\x0B' false, rest)
    | 'A' => .ok (.look .textStart, rest)
    | 'z' => .ok (.look .textEnd, rest)
    | 'B' => .ok (.look (.noBoundary flags.unicode), rest)
    | '<' => .ok (.look (.wordStart flags.unicode), rest)
    | '>' => .ok (.look (.wordEnd flags.unicode), rest)
    | 'b' =>
      match rest with
      | '\x7b' :: inner => do
        match ← readBoundaryKind flags.extended flags.unicode inner with
        | some (a, left) => .ok (.look a, left)
        | none => .ok (.look (.boundary flags.unicode), rest)
      | _ => .ok (.look (.boundary flags.unicode), rest)
    | c =>
      if c.toNat < 128 && !c.isAlphanum then .ok (.literal c false, rest) else .error .badEscape

/-! ### Sets of characters -/

/-- A character as a set: with its case variants, if case is ignored. An octet above 7F is half a
    character unless octets are read as code points. -/
def literalSet (flags : Flags) (c : Char) (octet : Bool) : Except Error CharSet :=
  if !flags.unicode && octet && c.toNat > 127 then .error .splitsCharacters
  else if flags.ignoreCase then
    .ok (if flags.unicode then .folded (.ofChar c) else .foldedAscii (.ofChar c))
  else .ok (.ofChar c)

/-- The class that a shorthand names, by Unicode or by ASCII. -/
def shorthandSet (unicode : Bool) (c : Char) : CharSet :=
  if c = 'd' then
    if unicode then .digit else .range 48 57
  else if c = 's' then
    if unicode then .space else .union (.range 9 13) (.single 32)
  else
    if unicode then .word
    else .unions [.range 48 57, .range 65 90, .single 95, .range 97 122]

/-- The set or, if asked for, its complement. A complement holds characters outside ASCII, which
    only whole characters can match. -/
def negateIf (flags : Flags) (negated : Bool) (set : CharSet) : Except Error CharSet :=
  if !negated then .ok set
  else if flags.unicode then .ok (.compl set)
  else .error .splitsCharacters

/-- The set closed under case, if case is ignored. -/
def foldIf (flags : Flags) (set : CharSet) : CharSet :=
  if !flags.ignoreCase then set else if flags.unicode then .folded set else .foldedAscii set

/-- The set of a shorthand or of a property under the flags. -/
def classSet (flags : Flags) : Primitive → Except Error CharSet
  | .shorthand c negated => negateIf flags negated (shorthandSet flags.unicode c)
  | .property set negated =>
    if flags.unicode then negateIf flags negated (foldIf flags set) else .error .splitsCharacters
  | _ => .error .badClassItem

end RequestRouter.Regex
