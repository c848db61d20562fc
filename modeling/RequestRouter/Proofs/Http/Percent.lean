/-
  RequestRouter/Proofs/Http/Percent.lean
  ======================================
  **Percent-encoding and back.**

  Encoding keeps the octets of unreserved characters and writes every other octet as a percent sign
  with two hexadecimal digits.  What it writes has no character that means something in a target
  (`of_mem_percentEncode`), and decoding gives back the octets (`percentDecode_percentEncode`): a
  percent sign of the text is an octet like any other and is decoded once.
-/
import RequestRouter.Http.Request
import RequestRouter.Proofs.Text.Case
import RequestRouter.Proofs.Text.Utf8

namespace RequestRouter.Http

open RequestRouter.Text

/-! ### Encoding -/

/-- The characters that stand for themselves in any part of a target. -/
def isUnreserved (c : Char) : Bool := c.isAlphanum || c ∈ ['-', '.', '_', '~']

/-- The capital hexadecimal digit of a number below sixteen. -/
def hexDigit (n : Nat) : Char := n.digitChar.toUpper

/-- An octet as it is written in a target. -/
def escapeOctet (b : UInt8) : List Char :=
  if isUnreserved (Char.ofNat b.toNat) then [Char.ofNat b.toNat]
  else ['%', hexDigit (b.toNat / 16), hexDigit (b.toNat % 16)]

/-- A text with every octet escaped that is not an unreserved character. -/
def percentEncode (cs : List Char) : List Char := (encode cs).flatMap escapeOctet

theorem toNat_lt_of_isUnreserved {c : Char} (h : isUnreserved c = true) : c.toNat < 128 := by
  rw [isUnreserved, Bool.or_eq_true, decide_eq_true_eq] at h
  rcases h with halnum | hmark
  · rw [Char.isAlphanum, Bool.or_eq_true] at halnum
    rcases halnum with halpha | hdigit
    · exact toNat_lt_of_isAlpha halpha
    · obtain ⟨-, hle⟩ := Bool.and_eq_true_iff.mp hdigit
      exact Nat.lt_of_le_of_lt (UInt32.le_iff_toNat_le.mp (of_decide_eq_true hle)) (by decide)
  · simp only [List.mem_cons, List.not_mem_nil, or_false] at hmark
    rcases hmark with rfl | rfl | rfl | rfl <;> decide

/-- An ASCII character is one octet. -/
theorem encodeChar_ascii {c : Char} (h : c.toNat < 128) :
    String.utf8EncodeChar c = [UInt8.ofNat c.toNat] := by
  have hone : c.val.toNat ≤ 127 := Nat.le_of_lt_succ h
  rw [String.utf8EncodeChar]
  exact if_pos hone

/-! ### Decoding -/

theorem percentDecode_cons_of_ne {b : UInt8} (h : b ≠ 37) (rest : List UInt8) :
    percentDecode (b :: rest) = b :: percentDecode rest := by
  rw [percentDecode.eq_def]
  split <;> simp_all

theorem hexOctet?_hexDigit {n : Nat} (h : n < 16) :
    encode [hexDigit n] = [UInt8.ofNat (hexDigit n).toNat] ∧
      hexOctet? (UInt8.ofNat (hexDigit n).toNat) = some (UInt8.ofNat n) := by
  have hall : ∀ d : Fin 16, encode [hexDigit d] = [UInt8.ofNat (hexDigit d).toNat] ∧
      hexOctet? (UInt8.ofNat (hexDigit d).toNat) = some (UInt8.ofNat d) := by decide +kernel
  exact hall ⟨n, h⟩

/-- An octet is read back from what it is written as. -/
theorem percentDecode_escapeOctet (b : UInt8) (rest : List UInt8) :
    percentDecode (encode (escapeOctet b) ++ rest) = b :: percentDecode rest := by
  have hb : b.toNat < 256 := b.toNat_lt
  unfold escapeOctet
  split
  · next hunreserved =>
    have hvalid : b.toNat.isValidChar := Or.inl (by omega)
    have hchar : (Char.ofNat b.toNat).toNat = b.toNat := by
      rw [Char.ofNat, dif_pos hvalid]
      rfl
    have hself : encode [Char.ofNat b.toNat] = [b] := by
      change String.utf8EncodeChar _ ++ [] = _
      rw [encodeChar_ascii (toNat_lt_of_isUnreserved hunreserved), hchar, UInt8.ofNat_toNat]
      rfl
    have hne : b ≠ 37 := by
      rintro rfl
      exact absurd hunreserved (by decide)
    rw [hself, List.singleton_append, percentDecode_cons_of_ne hne]
  · obtain ⟨hhigh, hhigh'⟩ := @hexOctet?_hexDigit (b.toNat / 16) (by omega)
    obtain ⟨hlow, hlow'⟩ := @hexOctet?_hexDigit (b.toNat % 16) (by omega)
    have hvalue : UInt8.ofNat (b.toNat / 16) * 16 + UInt8.ofNat (b.toNat % 16) = b := by
      apply UInt8.toNat_inj.mp
      simp
      omega
    have hdigits : encode ['%', hexDigit (b.toNat / 16), hexDigit (b.toNat % 16)] =
        37 :: (encode [hexDigit (b.toNat / 16)] ++ encode [hexDigit (b.toNat % 16)]) := by
      rw [← encode_append]
      rfl
    rw [hdigits, hhigh, hlow, List.singleton_append, List.cons_append, List.cons_append,
      List.singleton_append, percentDecode, hhigh', hlow']
    simp only [hvalue]

/-- **A text is read back from its encoding**, whatever follows it. -/
theorem percentDecode_percentEncode (cs : List Char) (rest : List UInt8) :
    percentDecode (encode (percentEncode cs) ++ rest) = encode cs ++ percentDecode rest := by
  unfold percentEncode
  induction encode cs with
  | nil => rfl
  | cons b bytes ih =>
    rw [List.flatMap_cons, encode_append, List.append_assoc, percentDecode_escapeOctet, ih,
      List.cons_append]

/-! ### What is written -/

/-- Unreserved characters are written as they are. -/
theorem percentEncode_of_unreserved {cs : List Char} (h : ∀ c ∈ cs, isUnreserved c = true) :
    percentEncode cs = cs := by
  induction cs with
  | nil => rfl
  | cons c cs ih =>
    have hc := h c List.mem_cons_self
    have hascii := toNat_lt_of_isUnreserved hc
    have hnat : (UInt8.ofNat c.toNat).toNat = c.toNat := by simp; omega
    have hself : (String.utf8EncodeChar c).flatMap escapeOctet = [c] := by
      rw [encodeChar_ascii hascii, List.flatMap_singleton, escapeOctet, hnat, Char.ofNat_toNat,
        if_pos hc]
    change (String.utf8EncodeChar c ++ encode cs).flatMap escapeOctet = _
    rw [List.flatMap_append, hself]
    exact congrArg (c :: ·) (ih fun d hd => h d (List.mem_cons_of_mem _ hd))

/-- Nothing but unreserved characters and percent signs is written. -/
theorem of_mem_percentEncode {cs : List Char} {c : Char} (h : c ∈ percentEncode cs) :
    c = '%' ∨ isUnreserved c = true := by
  obtain ⟨b, -, hc⟩ := List.mem_flatMap.mp h
  have hdigit : ∀ d : Fin 16, isUnreserved (hexDigit d) = true := by decide +kernel
  have hb : b.toNat < 256 := b.toNat_lt
  unfold escapeOctet at hc
  split at hc
  · next hunreserved =>
    rw [List.mem_singleton.mp hc]
    exact Or.inr hunreserved
  · simp only [List.mem_cons, List.not_mem_nil, or_false] at hc
    rcases hc with rfl | rfl | rfl
    · exact Or.inl rfl
    · exact Or.inr (hdigit ⟨b.toNat / 16, by omega⟩)
    · exact Or.inr (hdigit ⟨b.toNat % 16, by omega⟩)

end RequestRouter.Http
