/-
  RequestRouter/Config/SocketAddress.lean
  =======================================
  **Addresses of sockets: an address of version 4 or 6 and a number after a colon.**

  An address of version 4 has four numbers below 256 without needless zeros. One of version 6 stands in
  brackets; it has eight groups of up to four hexadecimal digits, the last two of which may be written
  as an address of version 4, or fewer around one `::` that stands for at least one group. A scope
  after a percent sign may follow it.

  Every reader takes what it can from the front of a text and hands back the rest.
-/
import RequestRouter.Number.Digit
import RequestRouter.Text.Front

namespace RequestRouter.SocketAddress

open RequestRouter.Number RequestRouter.Text

/-! ### Numbers -/

/-- What numbers of a kind look like. -/
structure NumberShape where
  base : Nat
  /-- The most digits allowed, if there is such a limit. -/
  maxDigits : Option Nat
  leadingZeros : Bool
  /-- The number that all numbers are below. -/
  bound : Nat

/-- Takes a number from the front of a text: all digits that there are. -/
def number? (shape : NumberShape) (cs : List Char) : Option (Nat × List Char) :=
  let digits := cs.takeWhile (isDigitIn shape.base)
  let rest := cs.dropWhile (isDigitIn shape.base)
  let value := digitsValue shape.base digits
  let tooLong := match shape.maxDigits with
    | some most => most < digits.length
    | none => false
  let needlessZero := !shape.leadingZeros && digits.head? == some '0' && 1 < digits.length
  if digits.isEmpty || tooLong || needlessZero || shape.bound ≤ value then none
  else some (value, rest)

/-- A part of an address of version 4. -/
def octet : NumberShape := ⟨10, some 3, false, 256⟩

def group : NumberShape := ⟨16, some 4, true, 65536⟩

def service : NumberShape := ⟨10, none, true, 65536⟩

def scope : NumberShape := ⟨10, none, true, 4294967296⟩

/-! ### Addresses -/

def version4? (cs : List Char) : Option (List Char) := do
  let (_, cs) ← number? octet cs
  let cs ← expect? '.' cs
  let (_, cs) ← number? octet cs
  let cs ← expect? '.' cs
  let (_, cs) ← number? octet cs
  let cs ← expect? '.' cs
  let (_, cs) ← number? octet cs
  return cs

/-- Groups read from the front of a text. -/
structure Groups where
  count : Nat
  /-- Whether the last two were written as an address of version 4. -/
  mixed : Bool
  rest : List Char

/-- Takes up to `left` groups with colons between them, `count` of them having been read. -/
def groups : (left count : Nat) → List Char → Groups
  | 0, count, cs => ⟨count, false, cs⟩
  | left + 1, count, cs =>
    match if count = 0 then some cs else expect? ':' cs with
    | none => ⟨count, false, cs⟩
    | some next =>
      match if 0 < left then version4? next else none with
      | some rest => ⟨count + 2, true, rest⟩
      | none =>
        match number? group next with
        | some (_, rest) => groups left (count + 1) rest
        | none => ⟨count, false, cs⟩

def version6? (cs : List Char) : Option (List Char) :=
  let head := groups 8 0 cs
  if head.count = 8 then some head.rest
  else if head.mixed then none
  else do
    let cs ← expect? ':' head.rest
    let cs ← expect? ':' cs
    return (groups (7 - head.count) 0 cs).rest

/-- Takes a scope, if there is one. -/
def skipScope (cs : List Char) : List Char :=
  match (expect? '%' cs).bind (number? scope) with
  | some (_, rest) => rest
  | none => cs

/-- Takes a colon and the number after an address. -/
def service? (cs : List Char) : Option (List Char) := do
  let cs ← expect? ':' cs
  let (_, cs) ← number? service cs
  return cs

def socket4? (cs : List Char) : Option (List Char) := do service? (← version4? cs)

def socket6? (cs : List Char) : Option (List Char) := do
  let cs ← version6? (← expect? '[' cs)
  service? (← expect? ']' (skipScope cs))

def isValid (text : String) : Bool :=
  (socket4? text.toList <|> socket6? text.toList) == some []

end RequestRouter.SocketAddress
