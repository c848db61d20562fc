/-
  RequestRouter/Text/Quoted.lean
  ==============================
  **Text in double quotes, readable on one line.**

  A quote, a backslash and the usual control characters have short escapes; every character that
  does not print on its own, combining marks included, is written by its code point.
-/
import RequestRouter.Unicode.Category
import RequestRouter.Unicode.Property

namespace RequestRouter.Text

open RequestRouter.Unicode

/-- The categories whose characters leave no mark of their own. -/
def invisibleCategories : List String := ["cc", "cf", "cn", "co", "zl", "zp", "zs"]

/-- Whether a character can stand for itself between quotes. -/
def printsAlone (c : Char) : Bool :=
  if c.toNat < 127 then 32 ≤ c.toNat
  else
    !invisibleCategories.any (fun name =>
      ((NamedTable.find? categoryTables name).getD []).contains c.toNat) &&
    !((NamedTable.find? propertyTables "graphemeextend").getD []).contains c.toNat

/-- A character as it is written between double quotes. -/
def quoteChar (c : Char) : List Char :=
  match c with
  | '"' => ['\\', '"']
  | '\\' => ['\\', '\\']
  | '\n' => ['\\', 'n']
  | '\r' => ['\\', 'r']
  | '\t' => ['\\', 't']
  | '\x00' => ['\\', '0']
  | c => if printsAlone c then [c] else
      ['\\', 'u', '\x7b'] ++ Nat.toDigits 16 c.toNat ++ ['\x7d']

/-- The text in double quotes. -/
def quoted (s : String) : String :=
  String.ofList ('"' :: s.toList.flatMap quoteChar ++ ['"'])

end RequestRouter.Text
