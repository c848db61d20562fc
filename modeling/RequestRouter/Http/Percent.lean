/-
  RequestRouter/Http/Percent.lean
  ===============================
  **Percent-encoding, and the pairs of a query.**

  A percent sign with two hexadecimal digits stands for an octet; any other percent sign stands for
  itself. A query is a list of pairs between ampersands, with a plus sign for a blank.
-/
import RequestRouter.Number.Digit
import RequestRouter.Text.Utf8

namespace RequestRouter.Http

open RequestRouter.Text

/-- The value of an octet that is a hexadecimal digit. -/
def hexOctet? (b : UInt8) : Option UInt8 :=
  (Number.digit? 16 (Char.ofNat b.toNat)).map Nat.toUInt8

def percentDecode : List UInt8 → List UInt8
  | [] => []
  | 37 :: a :: b :: rest =>
    match hexOctet? a, hexOctet? b with
    | some x, some y => (x * 16 + y) :: percentDecode rest
    | _, _ => 37 :: percentDecode (a :: b :: rest)
  | b :: rest => b :: percentDecode rest

/-- The path of a request target as text. -/
def decodePath (path : List Char) : String :=
  String.ofList (decodeLossy (percentDecode (encode path)))

/-- The parts of a list between the members that `p` accepts. -/
def splitWhere {α : Type} (p : α → Bool) : List α → List (List α)
  | [] => [[]]
  | a :: rest =>
    if p a then [] :: splitWhere p rest
    else match splitWhere p rest with
      | [] => [[a]]
      | part :: more => (a :: part) :: more

/-- A name or a value of a query as text. -/
def decodeQueryText (bytes : List UInt8) : String :=
  String.ofList (decodeLossy (percentDecode (bytes.map fun b => if b == 43 then 32 else b)))

/-- The pair that a part of a query writes; without an equals sign the value is empty. -/
def queryPair (part : List UInt8) : String × String :=
  let name := part.takeWhile (· != 61)
  (decodeQueryText name, decodeQueryText ((part.dropWhile (· != 61)).drop 1))

/-- The pairs of a query in order; an empty part is no pair. -/
def queryPairs (query : List Char) : List (String × String) :=
  ((splitWhere (· == 38) (encode query)).filter (!·.isEmpty)).map queryPair

end RequestRouter.Http
