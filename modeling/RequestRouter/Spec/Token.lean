/-
  RequestRouter/Spec/Token.lean
  =============================
  **Parameters as they are written in a path spec.**

  A token is a colon and a name, with an optional slash and dot before it and, after it, an optional
  constraint in parentheses, `?` for an optional parameter and `*` for the rest of the path. The
  constraint ends at the first closing parenthesis on its line.
-/
import RequestRouter.Unicode.Classes

namespace RequestRouter.Spec

open RequestRouter.Unicode

/-- A parameter as it is written. -/
structure Token where
  slash : Bool
  dot : Bool
  name : List Char
  /-- The constraint with its parentheses. -/
  constraint : Option (List Char)
  optional : Bool
  rest : Bool
deriving DecidableEq, Repr

namespace Token

def lead (t : Token) : List Char :=
  (if t.slash then ['/'] else []) ++ (if t.dot then ['.'] else [])

/-- The token as it was written. -/
def text (t : Token) : List Char :=
  t.lead ++ ':' :: t.name ++ t.constraint.getD [] ++ (if t.optional then ['?'] else []) ++
    (if t.rest then ['*'] else [])

end Token

/-- The text to the first closing parenthesis, which is part of it, if one stands on the line. -/
def upToClosing : List Char → Option (List Char × List Char)
  | [] => none
  | c :: rest =>
    if c = ')' then some ([')'], rest)
    else if c = '\n' then none
    else (upToClosing rest).map fun (text, left) => (c :: text, left)

/-- A constraint at the start of a text. -/
def readConstraint : List Char → Option (List Char) × List Char
  | '(' :: rest =>
    match upToClosing rest with
    | some (text, left) => (some ('(' :: text), left)
    | none => (none, '(' :: rest)
  | cs => (none, cs)

/-- Whether the mark comes first, and what is left without it. -/
def readMark (mark : Char) : List Char → Bool × List Char
  | [] => (false, [])
  | c :: rest => if c = mark then (true, rest) else (false, c :: rest)

/-- The token at the start of a text. -/
def readToken? (cs : List Char) : Option Token :=
  let (slash, cs) := readMark '/' cs
  let (dot, cs) := readMark '.' cs
  match cs with
  | ':' :: cs =>
    let name := cs.takeWhile isWord
    if name.isEmpty then none
    else
      let (constraint, cs) := readConstraint (cs.dropWhile isWord)
      let (optional, cs) := readMark '?' cs
      let (rest, _) := readMark '*' cs
      some ⟨slash, dot, name, constraint, optional, rest⟩
  | _ => none

end RequestRouter.Spec
