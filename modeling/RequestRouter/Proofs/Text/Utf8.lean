/-
  RequestRouter/Proofs/Text/Utf8.lean
  ===================================
  **What is encoded is decoded again.**

  The octets of a character are told apart by the leading one: it promises how many follow, and the
  range of the first of these keeps out what a shorter sequence encodes, the surrogates, and what lies
  above the last code point.  A character is below that and no surrogate, so its octets keep the
  promise and are read as the character (`decodeLossy_encode`).
-/
import Mathlib.Tactic.SplitIfs
import RequestRouter.Text.Utf8

namespace RequestRouter.Text

variable {a b c d : UInt8}

/-! ### Sequences that keep their promise -/

theorem promise?_two (h : 0xC2 ≤ a.toNat) (h' : a.toNat < 0xE0) :
    promise? a = some ⟨1, 0x80, 0xBF⟩ := by
  have hleast : ¬ a < 0xC2 := by rw [UInt8.lt_iff_toNat_lt]; exact Nat.not_lt.mpr h
  have hlead : a < 0xE0 := UInt8.lt_iff_toNat_lt.mpr h'
  rw [promise?, if_neg hleast, if_pos hlead]

theorem promise?_three (h : 0xE0 ≤ a.toNat) (h' : a.toNat < 0xF0) :
    promise? a = some ⟨2, if a.toNat = 0xE0 then 0xA0 else 0x80,
      if a.toNat = 0xED then 0x9F else 0xBF⟩ := by
  unfold promise?
  simp only [UInt8.lt_iff_toNat_lt, ← UInt8.toNat_inj, UInt8.reduceToNat]
  split_ifs <;> first | omega | rfl

theorem promise?_four (h : 0xF0 ≤ a.toNat) (h' : a.toNat ≤ 0xF4) :
    promise? a = some ⟨3, if a.toNat = 0xF0 then 0x90 else 0x80,
      if a.toNat = 0xF4 then 0x8F else 0xBF⟩ := by
  unfold promise?
  simp only [UInt8.lt_iff_toNat_lt, ← UInt8.toNat_inj, UInt8.reduceToNat]
  split_ifs <;> first | omega | rfl

theorem isContinuation_iff : isContinuation b = true ↔ 0x80 ≤ b.toNat ∧ b.toNat ≤ 0xBF := by
  simp [isContinuation, UInt8.le_iff_toNat_le]

theorem not_ascii (h : 0x80 ≤ a.toNat) : ¬ a < 0x80 := by
  rw [UInt8.lt_iff_toNat_lt]
  exact Nat.not_lt.mpr h

/-- What a leading octet promises of the next one, seen as numbers. -/
theorem within_iff {least greatest : UInt8} :
    (least ≤ b && b ≤ greatest) = true ↔ least.toNat ≤ b.toNat ∧ b.toNat ≤ greatest.toNat := by
  simp [UInt8.le_iff_toNat_le]

theorem decodeLossy_one (h : a.toNat < 0x80) (rest : List UInt8) :
    decodeLossy (a :: rest) = Char.ofNat a.toNat :: decodeLossy rest := by
  have ha : a < 0x80 := UInt8.lt_iff_toNat_lt.mpr h
  rw [decodeLossy, if_pos ha]

theorem decodeLossy_two (h : 0xC2 ≤ a.toNat) (h' : a.toNat < 0xE0)
    (hb : 0x80 ≤ b.toNat ∧ b.toNat ≤ 0xBF) (rest : List UInt8) :
    decodeLossy (a :: b :: rest) =
      Char.ofNat (a.toNat % 32 * 64 + b.toNat % 64) :: decodeLossy rest := by
  rw [decodeLossy, if_neg (not_ascii (Nat.le_trans (by decide) h)), promise?_two h h']
  have hwithin : ((0x80 : UInt8) ≤ b && b ≤ 0xBF) = true := within_iff.mpr hb
  simp only
  rw [if_pos hwithin, if_pos trivial]
  rfl

theorem decodeLossy_three (h : 0xE0 ≤ a.toNat) (h' : a.toNat < 0xF0)
    (hb : (if a.toNat = 0xE0 then 0xA0 else 0x80) ≤ b.toNat ∧
      b.toNat ≤ if a.toNat = 0xED then 0x9F else 0xBF)
    (hc : 0x80 ≤ c.toNat ∧ c.toNat ≤ 0xBF) (rest : List UInt8) :
    decodeLossy (a :: b :: c :: rest) =
      Char.ofNat ((a.toNat % 16 * 64 + b.toNat % 64) * 64 + c.toNat % 64) :: decodeLossy rest := by
  rw [decodeLossy, if_neg (not_ascii (Nat.le_trans (by decide) h)), promise?_three h h']
  have hwithin : ((if a.toNat = 0xE0 then 0xA0 else 0x80) ≤ b &&
      b ≤ if a.toNat = 0xED then 0x9F else 0xBF) = true := by
    rw [within_iff]
    split_ifs at hb ⊢ <;> exact hb
  simp only
  rw [if_pos hwithin, if_neg (by decide), if_pos (isContinuation_iff.mpr hc)]
  rfl

theorem decodeLossy_four (h : 0xF0 ≤ a.toNat) (h' : a.toNat ≤ 0xF4)
    (hb : (if a.toNat = 0xF0 then 0x90 else 0x80) ≤ b.toNat ∧
      b.toNat ≤ if a.toNat = 0xF4 then 0x8F else 0xBF)
    (hc : 0x80 ≤ c.toNat ∧ c.toNat ≤ 0xBF) (hd : 0x80 ≤ d.toNat ∧ d.toNat ≤ 0xBF)
    (rest : List UInt8) :
    decodeLossy (a :: b :: c :: d :: rest) =
      Char.ofNat (((a.toNat % 8 * 64 + b.toNat % 64) * 64 + c.toNat % 64) * 64 + d.toNat % 64) ::
        decodeLossy rest := by
  rw [decodeLossy, if_neg (not_ascii (Nat.le_trans (by decide) h)), promise?_four h h']
  have hwithin : ((if a.toNat = 0xF0 then 0x90 else 0x80) ≤ b &&
      b ≤ if a.toNat = 0xF4 then 0x8F else 0xBF) = true := by
    rw [within_iff]
    split_ifs at hb ⊢ <;> exact hb
  simp only
  rw [if_pos hwithin, if_neg (by decide), if_pos (isContinuation_iff.mpr hc), if_neg (by decide),
    if_pos (isContinuation_iff.mpr hd)]
  rfl

/-! ### Encoding and decoding -/

/-- A code point is below the surrogates, or above them and not above the last one. -/
theorem toNat_valid (c : Char) : c.toNat < 0xD800 ∨ 0xDFFF < c.toNat ∧ c.toNat < 0x110000 := c.valid

/-- The octets of a character are read as that character. -/
theorem decodeLossy_encodeChar (c : Char) (rest : List UInt8) :
    decodeLossy (String.utf8EncodeChar c ++ rest) = c :: decodeLossy rest := by
  have hvalid := toNat_valid c
  have hself := Char.ofNat_toNat c
  have hval : c.val.toNat = c.toNat := rfl
  unfold String.utf8EncodeChar
  simp only [hval]
  generalize c.toNat = v at hvalid hself
  split
  · next hone =>
    have ha : (UInt8.ofNat v).toNat = v := by simp; omega
    rw [List.singleton_append, decodeLossy_one (by omega), ha, hself]
  · split
    · next hone htwo =>
      have ha : (UInt8.ofNat (v / 64 % 32 + 192)).toNat = v / 64 + 192 := by simp; omega
      have hb : (UInt8.ofNat (v % 64 + 128)).toNat = v % 64 + 128 := by simp; omega
      have hcode : (v / 64 + 192) % 32 * 64 + (v % 64 + 128) % 64 = v := by omega
      rw [List.cons_append, List.singleton_append,
        decodeLossy_two (by omega) (by omega) (by omega), ha, hb, hcode, hself]
    · next htwo =>
      split
      · next hthree =>
        have ha : (UInt8.ofNat (v / 4096 % 16 + 224)).toNat = v / 4096 + 224 := by simp; omega
        have hb : (UInt8.ofNat (v / 64 % 64 + 128)).toNat = v / 64 % 64 + 128 := by simp; omega
        have hc : (UInt8.ofNat (v % 64 + 128)).toNat = v % 64 + 128 := by simp; omega
        -- What is shorter and what is a surrogate is kept out by the range of the second octet.
        have hsecond : (if v / 4096 + 224 = 0xE0 then 0xA0 else 0x80) ≤ v / 64 % 64 + 128 ∧
            v / 64 % 64 + 128 ≤ if v / 4096 + 224 = 0xED then 0x9F else 0xBF := by
          split_ifs <;> omega
        have hcode : ((v / 4096 + 224) % 16 * 64 + (v / 64 % 64 + 128) % 64) * 64 +
            (v % 64 + 128) % 64 = v := by omega
        rw [List.cons_append, List.cons_append, List.singleton_append,
          decodeLossy_three (by omega) (by omega) (by rwa [ha, hb]) (by omega), ha, hb, hc, hcode,
          hself]
      · next hthree =>
        have ha : (UInt8.ofNat (v / 262144 % 8 + 240)).toNat = v / 262144 + 240 := by simp; omega
        have hb : (UInt8.ofNat (v / 4096 % 64 + 128)).toNat = v / 4096 % 64 + 128 := by simp; omega
        have hc : (UInt8.ofNat (v / 64 % 64 + 128)).toNat = v / 64 % 64 + 128 := by simp; omega
        have hd : (UInt8.ofNat (v % 64 + 128)).toNat = v % 64 + 128 := by simp; omega
        -- So is what is shorter and what is above the last code point.
        have hsecond : (if v / 262144 + 240 = 0xF0 then 0x90 else 0x80) ≤ v / 4096 % 64 + 128 ∧
            v / 4096 % 64 + 128 ≤ if v / 262144 + 240 = 0xF4 then 0x8F else 0xBF := by
          split_ifs <;> omega
        have hcode : (((v / 262144 + 240) % 8 * 64 + (v / 4096 % 64 + 128) % 64) * 64 +
            (v / 64 % 64 + 128) % 64) * 64 + (v % 64 + 128) % 64 = v := by omega
        rw [List.cons_append, List.cons_append, List.cons_append, List.singleton_append,
          decodeLossy_four (by omega) (by omega) (by rwa [ha, hb]) (by omega) (by omega), ha, hb, hc,
          hd, hcode, hself]

/-- **What is encoded is decoded again**, whatever follows it. -/
theorem decodeLossy_encode_append (cs : List Char) (rest : List UInt8) :
    decodeLossy (encode cs ++ rest) = cs ++ decodeLossy rest := by
  induction cs with
  | nil => rfl
  | cons c cs ih =>
    change decodeLossy ((String.utf8EncodeChar c ++ encode cs) ++ rest) = _
    rw [List.append_assoc, decodeLossy_encodeChar, ih, List.cons_append]

theorem decodeLossy_encode (cs : List Char) : decodeLossy (encode cs) = cs := by
  have happend := decodeLossy_encode_append cs []
  rwa [List.append_nil, decodeLossy, List.append_nil] at happend

theorem encode_inj {cs cs' : List Char} (h : encode cs = encode cs') : cs = cs' := by
  rw [← decodeLossy_encode cs, h, decodeLossy_encode]

end RequestRouter.Text
