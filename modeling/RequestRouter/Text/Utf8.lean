/-
  RequestRouter/Text/Utf8.lean
  ============================
  **Characters as UTF-8 octets.**

  `encode` writes characters as octets. `decodeLossy` reads octets back and puts the replacement
  character for each longest run that starts a character but does not finish one, and for each octet
  that starts none. `decode?` accepts exactly the octets that some text is encoded as.
-/

namespace RequestRouter.Text

/-- How many octets the characters take. -/
def utf8Length : List Char → Nat
  | [] => 0
  | c :: cs => c.utf8Size + utf8Length cs

def encode (cs : List Char) : List UInt8 := cs.flatMap String.utf8EncodeChar

/-- Stands for octets that encode no character. -/
def replacement : Char := '\uFFFD'

/-- What a leading octet above 7F promises: how many octets follow, and the range of the first. -/
structure Promise where
  following : Nat
  least : UInt8
  greatest : UInt8

/-- The promise of a leading octet; `none` for an octet that leads no sequence. -/
def promise? (lead : UInt8) : Option Promise :=
  if lead < 0xC2 then none
  else if lead < 0xE0 then some ⟨1, 0x80, 0xBF⟩
  else if lead = 0xE0 then some ⟨2, 0xA0, 0xBF⟩
  else if lead = 0xED then some ⟨2, 0x80, 0x9F⟩
  else if lead < 0xF0 then some ⟨2, 0x80, 0xBF⟩
  else if lead = 0xF0 then some ⟨3, 0x90, 0xBF⟩
  else if lead < 0xF4 then some ⟨3, 0x80, 0xBF⟩
  else if lead = 0xF4 then some ⟨3, 0x80, 0x8F⟩
  else none

/-- An octet that continues a sequence. -/
def isContinuation (b : UInt8) : Bool := 0x80 ≤ b && b ≤ 0xBF

/-- The payload of a leading octet with `following` octets to come. -/
def leadBits (following : Nat) (b : UInt8) : Nat :=
  match following with
  | 1 => b.toNat % 32
  | 2 => b.toNat % 16
  | _ => b.toNat % 8

/-- A sequence extended by the payload of a continuation octet. -/
def extend (value : Nat) (b : UInt8) : Nat := value * 64 + b.toNat % 64

/-- Reads octets as characters, with `replacement` where they encode none. -/
def decodeLossy : List UInt8 → List Char
  | [] => []
  | a :: r₁ =>
    if a < 0x80 then Char.ofNat a.toNat :: decodeLossy r₁
    else match promise? a with
      | none => replacement :: decodeLossy r₁
      | some p => match r₁ with
        | [] => [replacement]
        | b :: r₂ =>
          if p.least ≤ b && b ≤ p.greatest then
            let v₂ := extend (leadBits p.following a) b
            if p.following = 1 then Char.ofNat v₂ :: decodeLossy r₂
            else match r₂ with
              | [] => [replacement]
              | c :: r₃ =>
                if isContinuation c then
                  let v₃ := extend v₂ c
                  if p.following = 2 then Char.ofNat v₃ :: decodeLossy r₃
                  else match r₃ with
                    | [] => [replacement]
                    | d :: r₄ =>
                      if isContinuation d then Char.ofNat (extend v₃ d) :: decodeLossy r₄
                      else replacement :: decodeLossy (d :: r₄)
                else replacement :: decodeLossy (c :: r₃)
          else replacement :: decodeLossy (b :: r₂)

/-- The text that the octets encode; `none` when they encode none. -/
def decode? (bytes : List UInt8) : Option (List Char) :=
  let cs := decodeLossy bytes
  if encode cs = bytes then some cs else none

@[simp] theorem utf8Length_nil : utf8Length [] = 0 := rfl

@[simp] theorem utf8Length_cons (c : Char) (cs : List Char) :
    utf8Length (c :: cs) = c.utf8Size + utf8Length cs := rfl

@[simp] theorem utf8Length_append (a b : List Char) :
    utf8Length (a ++ b) = utf8Length a + utf8Length b := by
  induction a with
  | nil => simp
  | cons c a ih => simp [ih, Nat.add_assoc]

@[simp] theorem encode_append (a b : List Char) : encode (a ++ b) = encode a ++ encode b := by
  simp [encode]

end RequestRouter.Text
