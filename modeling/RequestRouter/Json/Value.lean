/-
  RequestRouter/Json/Value.lean
  =============================
  **JSON documents as values.**

  Whole numbers are kept exactly; other numbers are 64-bit floating point, kept as their pattern.
  The members of an object stand in the order in which they were given.
-/

namespace RequestRouter.Json

/-- A JSON document. -/
inductive Value where
  | null
  | bool (b : Bool)
  | whole (n : Int)
  /-- A number that is not whole, or too large to be kept exactly, by its 64-bit pattern. -/
  | float (bits : Nat)
  | text (s : String)
  | array (items : List Value)
  | object (members : List (String × Value))
deriving Repr

namespace Value

/-- The value of a member, the last if the name comes more than once. -/
def member? (v : Value) (name : String) : Option Value :=
  match v with
  | .object members => members.reverse.lookup name
  | _ => none

def texts (items : List String) : Value := .array (items.map .text)

def count (n : Nat) : Value := .whole n

def ofOption (v : Option Value) : Value := v.getD .null

end Value

end RequestRouter.Json
