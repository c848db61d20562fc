/-
  RequestRouter/Proofs/Spec/Lexing.lean
  =====================================
  **A pattern text and its pieces determine each other.**

  `pieces` hands a text out piece by piece, each with its offset.  Here the pieces are described
  without the reader: a text has the pieces `ps` exactly if it is their texts one after the other
  and every piece is one that can stand before anything (`Piece.Whole`), the last one alone may also
  be a backslash with nothing after it (`Standing`).  The offsets are then those of `locate`.

  `Mode` is the same reading character by character.  Two texts that leave the reader in the same
  mode can be continued alike, which is how a class that is cut in two by a substitution is followed
  through it.  A place of the text is between two pieces exactly if the reader is in the plain mode
  there (`exists_append_of_plain`).
-/
import Mathlib.Data.List.Basic
import RequestRouter.Spec.Compile

namespace RequestRouter.Spec

open RequestRouter.Text

/-! ### Reading by characters -/

/-- What the next character is read as: the start of a piece, the rest of an escape, or a part of a
    class. -/
inductive Mode where
  | plain
  | escaped
  | inClass (depth : Nat) (scan : ClassScan)
deriving DecidableEq, Repr

namespace Mode

/-- The mode after a character of a class. -/
def nextInClass (depth : Nat) (scan : ClassScan) (c : Char) : Mode :=
  if scan = .escaped then .inClass depth .plain
  else if scan = .opened ∧ c = '^' then .inClass depth .caret
  else if (scan = .opened ∨ scan = .caret) ∧ c = ']' then .inClass depth .plain
  else if c = '\\' then .inClass depth .escaped
  else if c = '[' then .inClass (depth + 1) .opened
  else if c = ']' then if depth = 1 then .plain else .inClass (depth - 1) .plain
  else .inClass depth .plain

/-- The mode after a character. -/
def next : Mode → Char → Mode
  | .plain, c => if c = '\\' then .escaped else if c = '[' then .inClass 1 .opened else .plain
  | .escaped, _ => .plain
  | .inClass depth scan, c => nextInClass depth scan c

/-- The mode after a text. -/
def after (m : Mode) (text : List Char) : Mode := text.foldl next m

@[simp] theorem after_nil (m : Mode) : m.after [] = m := rfl

@[simp] theorem after_cons (m : Mode) (c : Char) (cs : List Char) :
    m.after (c :: cs) = (m.next c).after cs := rfl

@[simp] theorem after_append (m : Mode) (a b : List Char) :
    m.after (a ++ b) = (m.after a).after b := List.foldl_append

/-- A character other than a backslash and an opening bracket leaves the plain mode. -/
theorem next_plain {c : Char} (h1 : c ≠ '\\') (h2 : c ≠ '[') : Mode.plain.next c = .plain := by
  simp [next, h1, h2]

theorem after_plain {cs : List Char} (h : ∀ c ∈ cs, c ≠ '\\' ∧ c ≠ '[') :
    Mode.plain.after cs = .plain := by
  induction cs with
  | nil => rfl
  | cons c cs ih =>
    obtain ⟨h1, h2⟩ := h c List.mem_cons_self
    rw [after_cons, next_plain h1 h2]
    exact ih fun d hd => h d (List.mem_cons_of_mem _ hd)

end Mode

/-- The length of a class, by the mode after its first character. -/
theorem classLength_cons (depth : Nat) (scan : ClassScan) (c : Char) (rest : List Char) :
    classLength depth scan (c :: rest) =
      match Mode.nextInClass depth scan c with
      | .inClass d s => (classLength d s rest).map (· + 1)
      | _ => some 1 := by
  rw [classLength]
  unfold Mode.nextInClass
  split
  · rfl
  · split
    · rfl
    · split
      · rfl
      · split
        · rfl
        · split
          · rfl
          · split
            · split <;> rfl
            · rfl

/-- A class ends where the reader first comes back to the plain mode. -/
theorem classLength_eq_some {depth n : Nat} {scan : ClassScan} {cs : List Char}
    (h : classLength depth scan cs = some n) :
    n ≤ cs.length ∧ (∀ rest, classLength depth scan (cs.take n ++ rest) = some n) ∧
      (Mode.inClass depth scan).after (cs.take n) = .plain ∧
      ∀ k < n, (Mode.inClass depth scan).after (cs.take k) ≠ .plain := by
  induction cs generalizing depth scan n with
  | nil => simp [classLength] at h
  | cons c cs ih =>
    rw [classLength_cons] at h
    have hmode : (Mode.inClass depth scan).next c = Mode.nextInClass depth scan c := rfl
    have hescaped : Mode.nextInClass depth scan c ≠ .escaped := by
      unfold Mode.nextInClass
      repeat' split
      all_goals simp
    cases hm : Mode.nextInClass depth scan c with
    | escaped => exact absurd hm hescaped
    | plain =>
      simp only [hm, Option.some.injEq] at h
      subst h
      refine ⟨by simp, ?_, by simp [hmode, hm], ?_⟩
      · intro rest
        simp [classLength_cons, hm]
      · intro k hk
        obtain rfl : k = 0 := by omega
        simp
    | inClass d s =>
      simp only [hm, Option.map_eq_some_iff] at h
      obtain ⟨k, hk, rfl⟩ := h
      obtain ⟨h1, h2, h3, h4⟩ := ih hk
      refine ⟨by simpa using h1, ?_, by simp [hmode, hm, h3], ?_⟩
      · intro rest
        simp [classLength_cons, hm, h2 rest]
      · intro j hj
        cases j with
        | zero => simp
        | succ j =>
          rw [List.take_succ_cons, Mode.after_cons, hmode, hm]
          exact h4 j (by omega)

/-! ### Pieces -/

/-- A piece that is read as itself whatever comes after it. -/
inductive Piece.Whole : Piece → Prop where
  | char {c : Char} (h : c ∉ ['\\', '[', '(', ')']) : Piece.Whole (.char c)
  | escape (c : Char) : Piece.Whole (.verbatim ['\\', c])
  | cls {body : List Char} (h : classLength 1 .opened body = some body.length) :
    Piece.Whole (.verbatim ('[' :: body))
  | opening : Piece.Whole .opening
  | closing : Piece.Whole .closing

/-- Pieces that a text can be read as: each is whole, the last may be a lone backslash. -/
def Standing : List Piece → Prop
  | [] => True
  | [p] => p.Whole ∨ p = .char '\\'
  | p :: q :: more => p.Whole ∧ Standing (q :: more)

/-- Each piece with its offset, the first at `offset`. -/
def locate (offset : Nat) : List Piece → List (Nat × Piece)
  | [] => []
  | p :: more => (offset, p) :: locate (offset + utf8Length p.text) more

/-- The text of pieces. -/
def textOf (ps : List Piece) : List Char := ps.flatMap Piece.text

@[simp] theorem textOf_nil : textOf [] = [] := rfl

@[simp] theorem textOf_cons (p : Piece) (ps : List Piece) :
    textOf (p :: ps) = p.text ++ textOf ps := rfl

@[simp] theorem textOf_append (a b : List Piece) : textOf (a ++ b) = textOf a ++ textOf b :=
  List.flatMap_append

@[simp] theorem locate_nil (offset : Nat) : locate offset [] = [] := rfl

@[simp] theorem locate_cons (offset : Nat) (p : Piece) (ps : List Piece) :
    locate offset (p :: ps) = (offset, p) :: locate (offset + utf8Length p.text) ps := rfl

theorem locate_append (offset : Nat) (a b : List Piece) :
    locate offset (a ++ b) = locate offset a ++ locate (offset + utf8Length (textOf a)) b := by
  induction a generalizing offset with
  | nil => simp
  | cons p a ih => simp [ih, Nat.add_assoc]

@[simp] theorem map_snd_locate (offset : Nat) (ps : List Piece) :
    (locate offset ps).map Prod.snd = ps := by
  induction ps generalizing offset with
  | nil => rfl
  | cons p ps ih => simp [ih]

theorem Standing.tail {p : Piece} {ps : List Piece} (h : Standing (p :: ps)) : Standing ps := by
  cases ps with
  | nil => trivial
  | cons q more => exact h.2

/-- Only the last piece may be a lone backslash. -/
theorem Standing.head {p : Piece} {ps : List Piece} (h : Standing (p :: ps)) :
    p.Whole ∨ p = .char '\\' ∧ ps = [] := by
  cases ps with
  | nil =>
    rcases h with hw | rfl
    · exact Or.inl hw
    · exact Or.inr ⟨rfl, rfl⟩
  | cons q more => exact Or.inl h.1

theorem Standing.whole_of_ne_nil {p : Piece} {ps : List Piece} (h : Standing (p :: ps))
    (hps : ps ≠ []) : p.Whole := by
  rcases h.head with hw | ⟨-, hnil⟩
  · exact hw
  · exact absurd hnil hps

theorem Standing.cons {p : Piece} {ps : List Piece} (hp : p.Whole) (h : Standing ps) :
    Standing (p :: ps) := by
  cases ps with
  | nil => exact Or.inl hp
  | cons q more => exact ⟨hp, h⟩

theorem standing_append {a b : List Piece} (ha : ∀ p ∈ a, p.Whole) (hb : Standing b) :
    Standing (a ++ b) := by
  induction a with
  | nil => exact hb
  | cons p a ih =>
    exact Standing.cons (ha p List.mem_cons_self) (ih fun q hq => ha q (List.mem_cons_of_mem _ hq))

/-- The pieces before any others are whole. -/
theorem Standing.whole_of_append {a b : List Piece} (h : Standing (a ++ b)) (hb : b ≠ []) :
    (∀ p ∈ a, p.Whole) ∧ Standing b := by
  induction a with
  | nil => exact ⟨fun p hp => absurd hp List.not_mem_nil, h⟩
  | cons p a ih =>
    obtain ⟨h1, h2⟩ := ih h.tail
    refine ⟨?_, h2⟩
    intro q hq
    rcases List.mem_cons.mp hq with rfl | hq
    · exact Standing.whole_of_ne_nil h (by simp [hb])
    · exact h1 q hq

namespace Piece

theorem text_ne_nil {p : Piece} {ps : List Piece} (h : Standing (p :: ps)) : p.text ≠ [] := by
  rcases h.head with h | ⟨rfl, -⟩
  · cases h <;> simp [text]
  · simp [text]

/-- The reader is in the plain mode again after a whole piece. -/
theorem Whole.after_text {p : Piece} (h : p.Whole) : Mode.plain.after p.text = .plain := by
  cases h with
  | char hc =>
    simp only [List.mem_cons, List.not_mem_nil, or_false, not_or] at hc
    simp [text, Mode.next, hc]
  | escape c => simp [text, Mode.next]
  | cls hb =>
    have hafter := (classLength_eq_some hb).2.2.1
    rw [List.take_length] at hafter
    simpa [text, Mode.next] using hafter
  | opening => rfl
  | closing => rfl

/-- Within a whole piece the reader is not in the plain mode. -/
theorem Whole.after_take {p : Piece} (h : p.Whole) {k : Nat} (h0 : k ≠ 0)
    (hk : k < p.text.length) : Mode.plain.after (p.text.take k) ≠ .plain := by
  cases h with
  | char hc => simp [text] at hk; omega
  | escape c =>
    simp only [text, List.length_cons, List.length_nil] at hk
    obtain rfl : k = 1 := by omega
    simp [text, Mode.next]
  | cls hb =>
    obtain ⟨j, rfl⟩ : ∃ j, k = j + 1 := ⟨k - 1, by omega⟩
    simp only [text, List.length_cons] at hk
    have := (classLength_eq_some hb).2.2.2 j (by omega)
    simpa [text, Mode.next] using this
  | opening => simp [text] at hk; omega
  | closing => simp [text] at hk; omega

end Piece

theorem after_textOf {ps : List Piece} (h : ∀ p ∈ ps, p.Whole) :
    Mode.plain.after (textOf ps) = .plain := by
  induction ps with
  | nil => rfl
  | cons p ps ih =>
    rw [textOf_cons, Mode.after_append, (h p List.mem_cons_self).after_text]
    exact ih fun q hq => h q (List.mem_cons_of_mem _ hq)

/-! ### The reader and the pieces -/

theorem piecesFrom_taken (offset taken : Nat) (text : List Char) :
    piecesFrom offset taken text =
      piecesFrom (offset + utf8Length (text.take taken)) 0 (text.drop taken) := by
  induction text generalizing offset taken with
  | nil => cases taken <;> simp [piecesFrom]
  | cons c text ih =>
    cases taken with
    | zero => simp
    | succ taken =>
      rw [piecesFrom, ih]
      simp [Nat.add_assoc]

/-- The piece at the front of a text and what is left after it. -/
theorem piecesFrom_cons (offset : Nat) (c : Char) (rest : List Char) :
    piecesFrom offset 0 (c :: rest) =
      match pieceAt c rest with
      | none => none
      | some (p, taken) =>
        (piecesFrom (offset + c.utf8Size + utf8Length (rest.take taken)) 0
          (rest.drop taken)).map ((offset, p) :: ·) := by
  rw [piecesFrom]
  cases pieceAt c rest with
  | none => rfl
  | some found =>
    obtain ⟨p, taken⟩ := found
    simp only
    rw [piecesFrom_taken]

/-- A whole piece is read as itself. -/
theorem piecesFrom_whole {p : Piece} (hp : p.Whole) (offset : Nat) (rest : List Char) :
    piecesFrom offset 0 (p.text ++ rest) =
      (piecesFrom (offset + utf8Length p.text) 0 rest).map ((offset, p) :: ·) := by
  cases hp with
  | char hc =>
    rename_i c
    simp only [List.mem_cons, List.not_mem_nil, or_false, not_or] at hc
    have : pieceAt c rest = some (.char c, 0) := by
      unfold pieceAt
      split <;> simp_all
    simp [Piece.text, piecesFrom_cons, this]
  | escape d => simp [Piece.text, piecesFrom_cons, pieceAt, Nat.add_assoc]
  | cls hb =>
    rename_i body
    have hstable := (classLength_eq_some hb).2.1 rest
    rw [List.take_length] at hstable
    have : pieceAt '[' (body ++ rest) = some (.verbatim ('[' :: body), body.length) := by
      simp [pieceAt, hstable]
    simp [Piece.text, piecesFrom_cons, this, Nat.add_assoc]
  | opening => simp [Piece.text, piecesFrom_cons, pieceAt]
  | closing => simp [Piece.text, piecesFrom_cons, pieceAt]

/-- Standing pieces are read as themselves. -/
theorem piecesFrom_textOf {ps : List Piece} (h : Standing ps) (offset : Nat) :
    piecesFrom offset 0 (textOf ps) = some (locate offset ps) := by
  induction ps generalizing offset with
  | nil => rfl
  | cons p ps ih =>
    rcases h.head with hp | ⟨rfl, rfl⟩
    · rw [textOf_cons, piecesFrom_whole hp, ih h.tail]
      rfl
    · simp [Piece.text, piecesFrom_cons, pieceAt, piecesFrom]

/-- The piece at the front of a text is whole, or it is a backslash that ends the text. -/
theorem pieceAt_eq_some {c : Char} {rest : List Char} {p : Piece} {taken : Nat}
    (h : pieceAt c rest = some (p, taken)) :
    p.text = c :: rest.take taken ∧ (p.Whole ∨ p = .char '\\' ∧ rest = []) := by
  unfold pieceAt at h
  split at h
  · split at h
    · simp only [Option.some.injEq, Prod.mk.injEq] at h
      obtain ⟨rfl, rfl⟩ := h
      exact ⟨rfl, Or.inr ⟨rfl, rfl⟩⟩
    · simp only [Option.some.injEq, Prod.mk.injEq] at h
      obtain ⟨rfl, rfl⟩ := h
      exact ⟨rfl, Or.inl (.escape _)⟩
  · simp only [Option.map_eq_some_iff, Prod.mk.injEq] at h
    obtain ⟨n, hn, rfl, rfl⟩ := h
    refine ⟨rfl, Or.inl (.cls ?_)⟩
    obtain ⟨hle, hstable, -⟩ := classLength_eq_some hn
    have := hstable []
    rw [List.append_nil] at this
    rw [this, List.length_take, Nat.min_eq_left hle]
  · simp only [Option.some.injEq, Prod.mk.injEq] at h
    obtain ⟨rfl, rfl⟩ := h
    exact ⟨rfl, Or.inl .opening⟩
  · simp only [Option.some.injEq, Prod.mk.injEq] at h
    obtain ⟨rfl, rfl⟩ := h
    exact ⟨rfl, Or.inl .closing⟩
  · next h1 h2 h3 h4 =>
    simp only [Option.some.injEq, Prod.mk.injEq] at h
    obtain ⟨rfl, rfl⟩ := h
    refine ⟨rfl, Or.inl (.char ?_)⟩
    simp only [List.mem_cons, List.not_mem_nil, or_false, not_or]
    exact ⟨h1, h2, h3, h4⟩

theorem standing_of_piecesFrom {offset : Nat} {text : List Char} {ps : List (Nat × Piece)}
    (h : piecesFrom offset 0 text = some ps) :
    ∃ qs, Standing qs ∧ textOf qs = text ∧ ps = locate offset qs := by
  match text with
  | [] =>
    simp only [piecesFrom, Option.some.injEq] at h
    subst h
    exact ⟨[], trivial, rfl, rfl⟩
  | c :: rest =>
    rw [piecesFrom_cons] at h
    split at h
    · cases h
    · next p taken hp =>
      obtain ⟨htext, hwhole⟩ := pieceAt_eq_some hp
      simp only [Option.map_eq_some_iff] at h
      obtain ⟨more, hmore, rfl⟩ := h
      have : (rest.drop taken).length < (c :: rest).length := by
        simp only [List.length_drop, List.length_cons]
        omega
      obtain ⟨qs, hqs, hqtext, rfl⟩ := standing_of_piecesFrom hmore
      refine ⟨p :: qs, ?_, ?_, ?_⟩
      · rcases hwhole with hwhole | ⟨rfl, rfl⟩
        · exact Standing.cons hwhole hqs
        · -- Nothing follows a backslash that ends the text.
          cases qs with
          | nil => exact Or.inr rfl
          | cons q more =>
            have hq : q.text ≠ [] := Piece.text_ne_nil hqs
            simp [hq] at hqtext
      · rw [textOf_cons, htext, hqtext]
        simp
      · rw [locate_cons, htext]
        simp [Nat.add_assoc]
termination_by text.length

/-- **The pieces of a text.**  They are standing pieces whose texts make up the text, and there is no
    other way to read it. -/
theorem pieces_eq_some_iff {text : List Char} {ps : List (Nat × Piece)} :
    pieces text = some ps ↔ ∃ qs, Standing qs ∧ textOf qs = text ∧ ps = locate 0 qs := by
  constructor
  · exact standing_of_piecesFrom
  · rintro ⟨qs, hqs, rfl, rfl⟩
    exact piecesFrom_textOf hqs 0

/-- A text that starts with a parenthesis starts with that piece. -/
theorem opening_of_textOf {ps : List Piece} (h : Standing ps) {rest : List Char}
    (htext : textOf ps = '(' :: rest) : ∃ more, ps = .opening :: more ∧ textOf more = rest := by
  cases ps with
  | nil => cases htext
  | cons p more =>
    rcases h.head with hp | ⟨rfl, rfl⟩
    · cases hp <;> simp_all [Piece.text]
    · simp [Piece.text] at htext

/-- A text that starts with an ordinary character starts with that piece. -/
theorem char_of_textOf {ps : List Piece} (h : Standing ps) {c : Char} {rest : List Char}
    (hc : c ∉ ['\\', '[', '(', ')']) (htext : textOf ps = c :: rest) :
    ∃ more, ps = .char c :: more ∧ textOf more = rest := by
  simp only [List.mem_cons, List.not_mem_nil, or_false, not_or] at hc
  cases ps with
  | nil => cases htext
  | cons p more =>
    rcases h.head with hp | ⟨rfl, rfl⟩
    · cases hp <;> simp only [textOf_cons, Piece.text, List.cons_append, List.nil_append,
        List.cons.injEq] at htext <;> obtain ⟨rfl, hrest⟩ := htext <;> simp_all
    · simp only [textOf_cons, Piece.text, List.cons_append, List.nil_append,
        List.cons.injEq] at htext
      exact absurd htext.1.symm hc.1

/-- Where the reader is in the plain mode one piece has ended and another begins. -/
theorem exists_append_of_plain {ps : List Piece} (h : Standing ps) {a b : List Char}
    (hab : a ++ b = textOf ps) (hplain : Mode.plain.after a = .plain) :
    ∃ qs rs, ps = qs ++ rs ∧ textOf qs = a ∧ textOf rs = b := by
  induction ps generalizing a with
  | nil =>
    simp only [textOf_nil, List.append_eq_nil_iff] at hab
    obtain ⟨rfl, rfl⟩ := hab
    exact ⟨[], [], rfl, rfl, rfl⟩
  | cons p ps ih =>
    by_cases ha : a = []
    · subst ha
      exact ⟨[], p :: ps, rfl, rfl, hab.symm⟩
    · rw [textOf_cons] at hab
      by_cases hlen : p.text.length ≤ a.length
      · -- The first piece lies before the place.
        obtain ⟨a', rfl⟩ : ∃ a', a = p.text ++ a' := by
          refine ⟨a.drop p.text.length, ?_⟩
          have htake := congrArg (List.take p.text.length) hab
          rw [List.take_append_of_le_length hlen, List.take_left'  rfl] at htake
          conv => lhs; rw [← List.take_append_drop p.text.length a, htake]
        rw [List.append_assoc, List.append_cancel_left_eq] at hab
        rcases h.head with hw | ⟨rfl, rfl⟩
        · rw [Mode.after_append, hw.after_text] at hplain
          obtain ⟨qs, rs, rfl, rfl, rfl⟩ := ih h.tail hab hplain
          exact ⟨p :: qs, rs, rfl, rfl, rfl⟩
        · simp only [textOf_nil, List.append_eq_nil_iff] at hab
          obtain ⟨rfl, rfl⟩ := hab
          simp [Piece.text, Mode.next] at hplain
      · -- The place would lie within the first piece.
        have htake : p.text.take a.length = a := by
          have := congrArg (List.take a.length) hab
          rw [List.take_left' rfl, List.take_append_of_le_length (by omega)] at this
          exact this.symm
        have hw : p.Whole := by
          rcases h.head with hw | ⟨rfl, -⟩
          · exact hw
          · have : a.length ≠ 0 := by simpa using ha
            simp only [Piece.text, List.length_cons, List.length_nil] at hlen
            omega
        have := hw.after_take (k := a.length) (by simpa using ha) (by omega)
        rw [htake] at this
        exact absurd hplain this

end RequestRouter.Spec
