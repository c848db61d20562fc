/-
  RequestRouter/Proofs/Spec/Ending.lean
  =====================================
  **What stands behind a spec stands behind its pattern.**

  A slash, or a slash and a question mark, begins no token, ends none and opens no class, whatever comes
  before it: a name, a constraint that is never closed, an escape.  So substitution copies it behind the
  parts of the text before it (`partsFrom_append`), and rewriting leaves it as it is, even if a
  backslash before it makes its first character a part of an escape (`rewritten_append`).  The strict
  pattern of a spec and the pattern that leaves the last slash open are therefore the same text with
  different ends (`patternFor_append`).
-/
import RequestRouter.Proofs.Spec.Balance

namespace RequestRouter.Spec

open RequestRouter.Text RequestRouter.Unicode

/-! ### Tokens before an end -/

namespace IsEnd

variable {tail : List Char}

theorem readMark_append {mark : Char} (hmark : tail.head? ≠ some mark) (cs : List Char) :
    readMark mark (cs ++ tail) = ((readMark mark cs).1, (readMark mark cs).2 ++ tail) := by
  cases cs with
  | nil => exact readMark_of_ne hmark
  | cons c cs =>
    rw [List.cons_append, readMark, readMark]
    split <;> rfl

theorem readConstraint_append_snd (h : IsEnd tail) (cs : List Char) :
    (readConstraint (cs ++ tail)).2 = (readConstraint cs).2 ++ tail := by
  have hopen := h.head?_ne (c := '(') (by decide) (by decide)
  have hplain : ∀ {cs : List Char}, cs.head? ≠ some '(' → (readConstraint cs).2 = cs := by
    intro cs hne
    unfold readConstraint
    split
    · exact absurd rfl hne
    · rfl
  cases cs with
  | nil =>
    rw [List.nil_append, hplain hopen]
    rfl
  | cons c cs =>
    by_cases hc : c = '('
    · subst hc
      rw [List.cons_append, readConstraint, readConstraint, h.upToClosing_append]
      cases upToClosing cs <;> rfl
    · rw [hplain (by simpa using hc), List.cons_append, hplain (by simpa using hc), List.cons_append]

/-- A token that starts before an end is read without it. -/
theorem readToken?_append (h : IsEnd tail) (hmark : tail.head? ≠ some '?') {cs : List Char}
    (hne : cs ≠ []) : readToken? (cs ++ tail) = readToken? cs := by
  have hslash : readMark '/' (cs ++ tail) = ((readMark '/' cs).1, (readMark '/' cs).2 ++ tail) := by
    cases cs with
    | nil => exact absurd rfl hne
    | cons c cs =>
      rw [List.cons_append, readMark, readMark]
      split <;> rfl
  have hdot : tail.head? ≠ some '.' := h.head?_ne (by decide) (by decide)
  have hstar : tail.head? ≠ some '*' := h.head?_ne (by decide) (by decide)
  have hcolon : tail.head? ≠ some ':' := h.head?_ne (by decide) (by decide)
  unfold readToken?
  simp only [hslash, readMark_append hdot]
  generalize (readMark '.' (readMark '/' cs).2).2 = left
  cases left with
  | nil =>
    rw [List.nil_append]
    split
    · exact absurd rfl hcolon
    · rfl
  | cons c left =>
    by_cases hc : c = ':'
    · subst hc
      simp only [List.cons_append, h.takeWhile_append, h.dropWhile_append, h.readConstraint_append,
        h.readConstraint_append_snd, readMark_append hmark, readMark_append hstar]
    · rw [List.cons_append]
      split
      · next heq => exact absurd (List.cons.inj heq).1 hc
      · split
        · next heq => exact absurd (List.cons.inj heq).1 hc
        · rfl

theorem colon_not_mem (h : IsEnd tail) : ':' ∉ tail := by
  intro hcolon
  rcases h ':' hcolon with hc | hc <;> cases hc

theorem tail_of_cons {c : Char} {cs : List Char} (h : IsEnd (c :: cs)) : IsEnd cs :=
  fun d hd => h d (List.mem_cons_of_mem c hd)

end IsEnd

/-! ### Substitution before an end -/

section

variable {text tail : List Char} {ps ps' : List (Nat × Piece)}

/-- What stands behind a text does not change whether a character in it is shallow. -/
theorem mem_shallowOffsets_append (hps : pieces text = some ps) (hps' : pieces (text ++ tail) = some ps')
    {before after : List Char} {c : Char} (htext : text = before ++ c :: after)
    (hc : c ∉ ['\\', '[', '(', ')']) :
    utf8Length before ∈ shallowOffsets 0 ps' ↔ utf8Length before ∈ shallowOffsets 0 ps := by
  subst htext
  rw [List.append_assoc, List.cons_append] at hps'
  rw [mem_shallowOffsets_iff hc hps, mem_shallowOffsets_iff hc hps']

/-- The first character of a token is a piece by itself. -/
theorem Token.exists_first (t : Token) : ∃ c more, t.text = c :: more ∧ c ∉ ['\\', '[', '(', ')'] := by
  obtain ⟨slash, dot, name, constraint, optional, rest⟩ := t
  cases slash with
  | true => exact ⟨'/', _, rfl, by decide⟩
  | false =>
    cases dot with
    | true => exact ⟨'.', _, rfl, by decide⟩
    | false => exact ⟨':', _, rfl, by decide⟩

/-- **Substitution in a text with an end behind it** is substitution in the text, and a copy of the
    end. -/
theorem partsFrom_append (h : IsEnd tail) (hmark : tail.head? ≠ some '?')
    (hps : pieces text = some ps) (hps' : pieces (text ++ tail) = some ps') (before after : List Char)
    (htext : text = before ++ after) :
    partsFrom (shallowOffsets 0 ps') (utf8Length before) 0 0 (after ++ tail) =
      partsFrom (shallowOffsets 0 ps) (utf8Length before) 0 0 after ++ tail.map .copied := by
  induction before, after using scan_induction with
  | done before => rw [List.nil_append, partsFrom_of_not_mem h.colon_not_mem]; rfl
  | copied before c after htoken ih =>
    have hread := h.readToken?_append hmark (List.cons_ne_nil c after)
    rw [htoken, List.cons_append] at hread
    have hmore := ih (by simpa using htext)
    rw [utf8Length_append] at hmore
    simp only [utf8Length_cons, utf8Length_nil, Nat.add_zero] at hmore
    rw [List.cons_append, partsFrom_copied _ hread, partsFrom_copied _ htoken, hmore, List.cons_append]
  | token before t rest htoken ih =>
    have hread := h.readToken?_append hmark (List.append_ne_nil_of_left_ne_nil t.text_ne_nil rest)
    rw [htoken, List.append_assoc] at hread
    have hmore := ih (by rw [htext, List.append_assoc])
    rw [utf8Length_append] at hmore
    have hcolon : utf8Length before + utf8Length t.lead ∈ shallowOffsets 0 ps' ↔
        utf8Length before + utf8Length t.lead ∈ shallowOffsets 0 ps := by
      have hsplit : text = (before ++ t.lead) ++ ':' :: (t.text.drop (t.lead.length + 1) ++ rest) := by
        rw [htext, Token.text]
        simp
      rw [← utf8Length_append]
      exact mem_shallowOffsets_append hps hps' hsplit (by decide)
    have hstart : utf8Length before ∈ shallowOffsets 0 ps' ↔
        utf8Length before ∈ shallowOffsets 0 ps := by
      obtain ⟨d, more, hfirst, hd⟩ := t.exists_first
      exact mem_shallowOffsets_append hps hps' (by rw [htext, hfirst, List.cons_append]) hd
    rw [List.append_assoc, partsFrom_read hread, partsFrom_read htoken, hmore, List.append_assoc]
    simp only [hcolon, hstart]

end

/-! ### The pattern before an end -/

theorem IsEnd.exists_pieces {text tail : List Char} (h : IsEnd tail) {ps : List (Nat × Piece)}
    (hps : pieces (text ++ tail) = some ps) : ∃ qs, pieces text = some qs := by
  rw [← Option.isSome_iff_exists, Option.isSome_iff_ne_none]
  intro hnone
  rw [pieces_eq_none_iff] at hnone
  have hclass := (h.isClass_after _).mpr hnone
  rw [← Mode.after_append, ← pieces_eq_none_iff, hps] at hclass
  cases hclass

/-- Pieces are whole, or the last one is a backslash with nothing after it. -/
theorem Standing.whole_or_backslash {ps : List Piece} (h : Standing ps) :
    (∀ p ∈ ps, p.Whole) ∨ ∃ front, (∀ p ∈ front, p.Whole) ∧ ps = front ++ [.char '\\'] := by
  induction ps with
  | nil => exact .inl nofun
  | cons p ps ih =>
    rcases h.head with hp | ⟨rfl, rfl⟩
    · rcases ih h.tail with hall | ⟨front, hfront, rfl⟩
      · exact .inl (List.forall_mem_cons.mpr ⟨hp, hall⟩)
      · exact .inr ⟨p :: front, List.forall_mem_cons.mpr ⟨hp, hfront⟩, rfl⟩
    · exact .inr ⟨[], nofun, rfl⟩

theorem IsEnd.rewritten_chars {tail : List Char} (h : IsEnd tail) (depth : Nat) :
    rewritten depth (tail.map .char) = tail.map .char := by
  induction tail with
  | nil => rfl
  | cons c tail ih =>
    rw [List.map_cons, rewritten_cons]
    rcases h c List.mem_cons_self with rfl | rfl
    · simp [Piece.rewritten, Piece.depthAfter, ih h.tail_of_cons]
    · simp [Piece.rewritten, Piece.depthAfter, ih h.tail_of_cons]

theorem IsEnd.standing_chars {tail : List Char} (h : IsEnd tail) : Standing (tail.map .char) := by
  have hwhole : ∀ p ∈ tail.map Piece.char, p.Whole := by
    intro p hp
    obtain ⟨c, hc, rfl⟩ := List.mem_map.mp hp
    rcases h c hc with rfl | rfl
    · exact .char (by decide)
    · exact .char (by decide)
  simpa using standing_append hwhole (b := []) trivial

/-- The pieces of a text with an end behind it: the end is rewritten as it is.  If the text ends with a
    backslash, that and the first character of the end are one piece. -/
theorem IsEnd.rewritten_append {tail : List Char} (h : IsEnd tail) {ps : List Piece} (hps : Standing ps) :
    ∃ qs, Standing qs ∧ textOf qs = textOf ps ++ tail ∧
      textOf (rewritten 0 qs) = textOf (rewritten 0 ps) ++ tail := by
  rcases hps.whole_or_backslash with hall | ⟨front, hfront, rfl⟩
  · refine ⟨ps ++ tail.map .char, standing_append hall h.standing_chars, ?_, ?_⟩
    · rw [textOf_append, textOf_map_char]
    · rw [Spec.rewritten_append, textOf_append, h.rewritten_chars, textOf_map_char]
  · cases tail with
    | nil => exact ⟨_, hps, (List.append_nil _).symm, (List.append_nil _).symm⟩
    | cons c tail =>
      have hmore := h.tail_of_cons
      have hescape : ∀ depth, Piece.rewritten depth (.verbatim ['\\', c]) = [.verbatim ['\\', c]] := by
        simp [Piece.rewritten]
      have hlone : ∀ depth, Piece.rewritten depth (.char '\\') = [.char '\\'] := by
        simp [Piece.rewritten]
      refine ⟨front ++ .verbatim ['\\', c] :: tail.map .char,
        standing_append hfront (.cons (.escape c) hmore.standing_chars), ?_, ?_⟩
      · simp [Piece.text, textOf_map_char]
      · simp [Spec.rewritten_append, hescape, hlone, hmore.rewritten_chars, Piece.text, textOf_map_char]

/-- The pattern text of a spec, if its classes end. -/
def patternFor (text : List Char) : Option (List Char) :=
  ((substitute text).bind fun parts =>
    spell (parts.flatMap Part.text) (wrapperOffsets 0 parts)).map Prod.fst

theorem patternFor_of_compile {options : CompileOptions} {spec : List Char} {source : Source}
    (h : compile options spec = .ok source) :
    patternFor (textFor options spec) = some source.pattern := by
  obtain ⟨parts, wrappers, hparts, hspell, -⟩ := compile_eq_ok h
  simp only [patternFor, hparts, Option.bind_some, hspell, Option.map_some]

theorem patternFor_eq {text : List Char} {parts : List Part} {ps : List Piece}
    (hparts : substitute text = some parts) (hps : Standing ps)
    (htext : textOf ps = parts.flatMap Part.text) :
    patternFor text = some (textOf (rewritten 0 ps)) := by
  have hwritten := (spellFrom_locate ps 0 0 0 _ (isOpening_of_substitute hparts hps htext)
    (pairwise_wrapperOffsets 0 parts)).1
  simp only [patternFor, hparts, Option.bind_some, spell, pieces, ← htext, piecesFrom_textOf hps,
    Option.map_some, hwritten]

/-- A slash at the end goes into the end that makes it optional. -/
theorem withOptionalSlash_cases (spec : List Char) :
    withOptionalSlash spec = spec ∨
      ∃ front, withOptionalSlash spec = front ++ ['/', '?'] ∧
        (spec = front ∨ spec = front ++ ['/']) := by
  unfold withOptionalSlash
  split
  · exact .inl rfl
  · split
    · next hlast =>
      obtain ⟨front, rfl⟩ := List.getLast?_eq_some_iff.mp hlast
      exact .inr ⟨front, List.append_assoc _ _ _, .inr rfl⟩
    · exact .inr ⟨spec, rfl, .inl rfl⟩

/-- **What stands behind a spec stands behind its pattern.** -/
theorem patternFor_append {text tail pattern : List Char} (h : IsEnd tail)
    (hmark : tail.head? ≠ some '?') (hpattern : patternFor (text ++ tail) = some pattern) :
    ∃ front, patternFor text = some front ∧ pattern = front ++ tail := by
  have hwritten := hpattern
  simp only [patternFor, Option.map_eq_some_iff, Option.bind_eq_some_iff] at hpattern
  obtain ⟨_, ⟨parts', hparts', hspell⟩, -⟩ := hpattern
  -- the parts of the text, and the end copied
  have hsubstitute := hparts'
  simp only [substitute, Option.map_eq_some_iff] at hsubstitute
  obtain ⟨located', hlocated', hsubstitute⟩ := hsubstitute
  obtain ⟨located, hlocated⟩ := h.exists_pieces hlocated'
  have happend := partsFrom_append h hmark hlocated hlocated' [] text rfl
  rw [utf8Length_nil] at happend
  rw [happend] at hsubstitute
  have hparts : substitute text = some (partsFrom (shallowOffsets 0 located) 0 0 0 text) := by
    rw [substitute, hlocated, Option.map_some]
  generalize partsFrom (shallowOffsets 0 located) 0 0 0 text = parts at hsubstitute hparts
  have htext : parts'.flatMap Part.text = parts.flatMap Part.text ++ tail := by
    rw [← hsubstitute, List.flatMap_append, flatMap_text_copied]
  -- the pieces of what has been substituted
  simp only [spell, Option.map_eq_some_iff] at hspell
  obtain ⟨located₂', hlocated₂', -⟩ := hspell
  rw [htext] at hlocated₂'
  obtain ⟨located₂, hlocated₂⟩ := h.exists_pieces hlocated₂'
  obtain ⟨ps, hstanding, hps, -⟩ := pieces_eq_some_iff.mp hlocated₂
  obtain ⟨qs, hstanding', hqs, hrewritten⟩ := h.rewritten_append hstanding
  refine ⟨textOf (rewritten 0 ps), patternFor_eq hparts hstanding hps, ?_⟩
  rw [patternFor_eq hparts' hstanding' (by rw [hqs, hps, htext]), hrewritten] at hwritten
  exact (Option.some.inj hwritten).symm

end RequestRouter.Spec
