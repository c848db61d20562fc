/-
  RequestRouter/Spec/Piece.lean
  =============================
  **The pieces of a pattern text: characters, escapes, classes, parentheses.**

  A path spec goes through several passes before it is a pattern. Each pass looks at the pieces only:
  an escape or a whole class is one piece that no pass looks into. A piece is known by its offset,
  the number of octets before it.
-/
import RequestRouter.Text.Utf8

namespace RequestRouter.Spec

open RequestRouter.Text

/-- A unit of a pattern text. -/
inductive Piece where
  | char (c : Char)
  /-- An escape or a whole class, copied as it is. -/
  | verbatim (text : List Char)
  | opening
  | closing
deriving DecidableEq, Repr

namespace Piece

def text : Piece → List Char
  | .char c => [c]
  | .verbatim text => text
  | .opening => ['(']
  | .closing => [')']

end Piece

/-! ### Classes -/

/-- What the next character of a class is read as. -/
inductive ClassScan where
  | plain
  /-- After a backslash: whatever comes is literal. -/
  | escaped
  /-- After an opening bracket: a caret or a literal closing bracket may come. -/
  | opened
  /-- After an opening bracket and a caret: a literal closing bracket may come. -/
  | caret
deriving DecidableEq, Repr

/-- How many characters end the class that `depth` brackets are open in; `none` if it never ends. -/
def classLength (depth : Nat) (scan : ClassScan) : List Char → Option Nat
  | [] => none
  | c :: rest =>
    if scan = .escaped then (classLength depth .plain rest).map (· + 1)
    else if scan = .opened ∧ c = '^' then (classLength depth .caret rest).map (· + 1)
    else if (scan = .opened ∨ scan = .caret) ∧ c = ']' then
      (classLength depth .plain rest).map (· + 1)
    else if c = '\\' then (classLength depth .escaped rest).map (· + 1)
    else if c = '[' then (classLength (depth + 1) .opened rest).map (· + 1)
    else if c = ']' then
      if depth = 1 then some 1 else (classLength (depth - 1) .plain rest).map (· + 1)
    else (classLength depth .plain rest).map (· + 1)

/-! ### Pieces of a text -/

/-- The piece that starts with `c`, and how many further characters belong to it. -/
def pieceAt (c : Char) (rest : List Char) : Option (Piece × Nat) :=
  match c with
  | '\\' =>
    match rest with
    | [] => some (.char '\\', 0)
    | d :: _ => some (.verbatim ['\\', d], 1)
  | '[' => (classLength 1 .opened rest).map fun n => (.verbatim ('[' :: rest.take n), n)
  | '(' => some (.opening, 0)
  | ')' => some (.closing, 0)
  | c => some (.char c, 0)

/-- The pieces of a text with their offsets, the first at `offset`; the next `taken` characters
    belong to the piece before them. -/
def piecesFrom : Nat → Nat → List Char → Option (List (Nat × Piece))
  | _, _, [] => some []
  | offset, taken + 1, c :: rest => piecesFrom (offset + c.utf8Size) taken rest
  | offset, 0, c :: rest =>
    match pieceAt c rest with
    | none => none
    | some (piece, taken) =>
      (piecesFrom (offset + c.utf8Size) taken rest).map ((offset, piece) :: ·)

/-- The pieces of a text with their offsets; `none` if a class never ends. -/
def pieces (text : List Char) : Option (List (Nat × Piece)) := piecesFrom 0 0 text

end RequestRouter.Spec
