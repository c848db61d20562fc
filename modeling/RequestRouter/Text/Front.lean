/-
  RequestRouter/Text/Front.lean
  =============================
  **Taking what is expected from the front of a text.**
-/

namespace RequestRouter.Text

/-- What is left after a character that has to come first. -/
def expect? (c : Char) : List Char → Option (List Char)
  | [] => none
  | d :: rest => if c = d then some rest else none

end RequestRouter.Text
