/-
  RequestRouter/Toml/Reader.lean
  ==============================
  **Documents from text: keys, values and headers, line by line.**
-/
import RequestRouter.Toml.Scalar

namespace RequestRouter.Toml

open RequestRouter.Text

/-! ### Lines -/

/-- What is left after a comment, which ends before the line does. -/
def skipComment : List Char → List Char
  | '#' :: rest => rest.dropWhile isPrintable
  | cs => cs

/-- Takes the end of a line, or finds the end of the text. -/
def lineEnd? : List Char → Option (List Char)
  | [] => some []
  | cs => newline? cs

/-- Takes what may follow a statement: blanks, a comment and the end of the line. -/
def trailing? (cs : List Char) : Option (List Char) := lineEnd? (skipComment (skipBlanks cs))

/-- What is left after blanks, comments and line ends. The number bounds how many of them there are. -/
def skipSpace : Nat → List Char → List Char
  | 0, cs => cs
  | fuel + 1, cs =>
    match cs with
    | '#' :: _ => skipSpace fuel (skipComment cs)
    | _ =>
      match newline? cs with
      | some rest => skipSpace fuel rest
      | none =>
        match cs with
        | c :: rest => if isBlank c then skipSpace fuel rest else cs
        | [] => cs

/-! ### Keys -/

def keyPart? : List Char → Option (String × List Char)
  | '"' :: rest => basicText [] rest
  | '\'' :: rest => literalText [] rest
  | cs =>
    let part := cs.takeWhile isBareKeyChar
    if part.isEmpty then none else some (String.ofList part, cs.dropWhile isBareKeyChar)

/-- Takes a dotted key, given by its parts. The number bounds how many there are. -/
def keyParts? : Nat → List Char → Option (List String × List Char)
  | 0, _ => none
  | fuel + 1, cs => do
    let (part, cs) ← keyPart? (skipBlanks cs)
    match skipBlanks cs with
    | '.' :: rest =>
      let (parts, cs) ← keyParts? fuel rest
      return (part :: parts, cs)
    | cs => return ([part], cs)

/-- Keys have fewer parts, and values are nested less deeply. -/
def depthLimit : Nat := 80

/-- Takes a dotted key. -/
def key? (cs : List Char) : Option (List String × List Char) := keyParts? (depthLimit - 1) cs

/-! ### Values -/

mutual

/-- Takes a value. The first number bounds the steps, the second is the depth so far. -/
def value? : Nat → Nat → List Char → Option (Node × List Char)
  | 0, _, _ => none
  | fuel + 1, depth, cs =>
    match cs with
    | '"' :: '"' :: '"' :: rest =>
      (basicLines false [] (skipNewline rest)).map fun (s, rest) => (.text s, rest)
    | '"' :: rest => (basicText [] rest).map fun (s, rest) => (.text s, rest)
    | '\'' :: '\'' :: '\'' :: rest =>
      (literalLines [] (skipNewline rest)).map fun (s, rest) => (.text s, rest)
    | '\'' :: rest => (literalText [] rest).map fun (s, rest) => (.text s, rest)
    | '[' :: rest =>
      if depthLimit ≤ depth + 1 then none
      else (items? fuel (depth + 1) rest).map fun (items, rest) => (.array items, rest)
    | '\x7b' :: rest =>
      if depthLimit ≤ depth + 1 then none
      else
        match skipBlanks rest with
        | '\x7d' :: rest => some (.inline [], rest)
        | rest => (members? fuel (depth + 1) [] rest).map fun (es, rest) => (.inline es, rest)
    | 't' :: 'r' :: 'u' :: 'e' :: rest => some (.bool true, rest)
    | 'f' :: 'a' :: 'l' :: 's' :: 'e' :: rest => some (.bool false, rest)
    | _ =>
      match moment? cs with
      | some rest => some (.moment, rest)
      | none => number? cs

/-- Takes the items of an array with its closing bracket. -/
def items? : Nat → Nat → List Char → Option (List Node × List Char)
  | 0, _, _ => none
  | fuel + 1, depth, cs =>
    match skipSpace cs.length cs with
    | ']' :: rest => some ([], rest)
    | cs =>
      match value? fuel depth cs with
      | none => none
      | some (item, cs) =>
        match skipSpace cs.length cs with
        | ',' :: rest => (items? fuel depth rest).map fun (items, rest) => (item :: items, rest)
        | ']' :: rest => some ([item], rest)
        | _ => none

/-- Takes the members of an inline table with its closing brace, after those before them. -/
def members? : Nat → Nat → Entries → List Char → Option (Entries × List Char)
  | 0, _, _, _ => none
  | fuel + 1, depth, entries, cs =>
    match key? cs with
    | none => none
    | some (path, cs) =>
      match cs with
      | '=' :: cs =>
        match value? fuel depth (skipBlanks cs) with
        | none => none
        | some (value, cs) =>
          match Entries.assign value path entries with
          | none => none
          | some entries =>
            match skipBlanks cs with
            | ',' :: rest => members? fuel depth entries rest
            | '\x7d' :: rest => some (entries, rest)
            | _ => none
      | _ => none

end

/-! ### Statements -/

/-- Takes a key and its value, to the end of the line. -/
def assignment? (d : Document) (cs : List Char) : Option (Document × List Char) := do
  let (path, cs) ← key? cs
  let cs ← expect? '=' cs
  let (value, cs) ← value? (2 * cs.length + 2) 0 (skipBlanks cs)
  let rest ← trailing? cs
  return (← d.assign path value, rest)

/-- Takes a header after its opening brackets, to the end of the line. -/
def header? (d : Document) (element : Bool) (cs : List Char) : Option (Document × List Char) := do
  let (path, cs) ← key? cs
  let cs ← expect? ']' cs
  let cs ← if element then expect? ']' cs else some cs
  let rest ← trailing? cs
  return (← d.openHeader path element, rest)

def statement? (d : Document) (cs : List Char) : Option (Document × List Char) :=
  match cs with
  | '#' :: _ => (lineEnd? (skipComment cs)).map (d, ·)
  | '[' :: '[' :: rest => header? d true rest
  | '[' :: rest => header? d false rest
  | c :: _ =>
    if c == '\n' || c == '\r' then (newline? cs).map (d, ·) else assignment? d cs
  | [] => none

/-- Takes statements to the end of the text. The number bounds how many there are. -/
def statements? : Nat → Document → List Char → Option Document
  | 0, _, _ => none
  | fuel + 1, d, cs =>
    match skipBlanks cs with
    | [] => some d
    | cs => do
      let (d, rest) ← statement? d cs
      statements? fuel d rest

/-- The text without the mark of its byte order. -/
def withoutMark : List Char → List Char
  | '\uFEFF' :: rest => rest
  | cs => cs

/-- The table that a text is the written form of. -/
def read? (text : List Char) : Option Entries :=
  (statements? (text.length + 1) Document.empty (withoutMark text)).map (·.root)

end RequestRouter.Toml
