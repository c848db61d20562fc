/-
  RequestRouter/Proofs/Spec/Casing.lean
  =====================================
  **A spec with small letters is compiled to the pattern text with small letters.**

  No pass looks for a letter: what makes up a piece, a token or a group are marks and word characters,
  and offsets count octets.  So every pass commutes with making the letters of its text small, and two
  specs that differ only in case are compiled to pattern texts that differ only in case
  (`small_pattern_of_compile`).
-/
import RequestRouter.Proofs.Spec.Alignment
import RequestRouter.Proofs.Text.Case

namespace RequestRouter.Spec

open RequestRouter.Text RequestRouter.Unicode

/-! ### Pieces -/

def Piece.small : Piece → Piece
  | .char c => .char c.toLower
  | .verbatim text => .verbatim (Text.small text)
  | .opening => .opening
  | .closing => .closing

/-- Pieces with small letters, where they stand. -/
def smallPieces (ps : List (Nat × Piece)) : List (Nat × Piece) := ps.map (Prod.map id Piece.small)

theorem Piece.text_small (p : Piece) : p.small.text = Text.small p.text := by
  cases p with
  | char c => rfl
  | verbatim text => rfl
  | opening => rfl
  | closing => rfl

theorem classLength_small (depth : Nat) (scan : ClassScan) (cs : List Char) :
    classLength depth scan (small cs) = classLength depth scan cs := by
  induction cs generalizing depth scan with
  | nil => rfl
  | cons c cs ih =>
    have hcaret : c.toLower = '^' ↔ c = '^' := toLower_eq_iff (by decide)
    have hslash : c.toLower = '\\' ↔ c = '\\' := toLower_eq_iff (by decide)
    have hopen : c.toLower = '[' ↔ c = '[' := toLower_eq_iff (by decide)
    have hclose : c.toLower = ']' ↔ c = ']' := toLower_eq_iff (by decide)
    simp only [small_cons, classLength, ih, hcaret, hslash, hopen, hclose]

/-- A character that is no mark is a piece by itself. -/
theorem pieceAt_of_not_mem {c : Char} (h : c ∉ ['\\', '[', '(', ')']) (rest : List Char) :
    pieceAt c rest = some (.char c, 0) := by
  unfold pieceAt
  split
  all_goals simp_all

theorem pieceAt_small (c : Char) (rest : List Char) :
    pieceAt c.toLower (small rest) = (pieceAt c rest).map (Prod.map Piece.small id) := by
  by_cases hescape : c = '\\'
  · subst hescape
    cases rest <;> rfl
  by_cases hclass : c = '['
  · subst hclass
    change (classLength 1 .opened (small rest)).map _ = ((classLength 1 .opened rest).map _).map _
    rw [classLength_small, Option.map_map]
    congr 1
    funext n
    simp only [Function.comp_apply, Prod.map, Piece.small, small_cons, id]
    rw [small, small, List.map_take]
    rfl
  by_cases hopening : c = '('
  · subst hopening
    rfl
  by_cases hclosing : c = ')'
  · subst hclosing
    rfl
  · have hc : c ∉ ['\\', '[', '(', ')'] := by simp [hescape, hclass, hopening, hclosing]
    have hc' : c.toLower ∉ ['\\', '[', '(', ')'] := by
      simp only [List.mem_cons, List.not_mem_nil, or_false]
      rw [toLower_eq_iff (by decide), toLower_eq_iff (by decide), toLower_eq_iff (by decide),
        toLower_eq_iff (by decide)]
      simpa using hc
    rw [pieceAt_of_not_mem hc, pieceAt_of_not_mem hc']
    rfl

theorem piecesFrom_small (offset taken : Nat) (cs : List Char) :
    piecesFrom offset taken (small cs) = (piecesFrom offset taken cs).map smallPieces := by
  induction cs generalizing offset taken with
  | nil => cases taken <;> rfl
  | cons c cs ih =>
    cases taken with
    | succ taken => rw [small_cons, piecesFrom, piecesFrom, utf8Size_toLower, ih]
    | zero =>
      rw [small_cons, piecesFrom, piecesFrom, utf8Size_toLower, pieceAt_small]
      cases pieceAt c cs with
      | none => rfl
      | some found =>
        simp only [Option.map_some, Prod.map, id, ih, Option.map_map]
        rfl

theorem pieces_small (cs : List Char) : pieces (small cs) = (pieces cs).map smallPieces :=
  piecesFrom_small 0 0 cs

theorem shallowOffsets_small (depth : Nat) (ps : List (Nat × Piece)) :
    shallowOffsets depth (smallPieces ps) = shallowOffsets depth ps := by
  induction ps generalizing depth with
  | nil => rfl
  | cons p ps ih =>
    obtain ⟨offset, piece⟩ := p
    change shallowOffsets depth ((offset, piece.small) :: smallPieces ps) = _
    cases piece with
    | char c => simp only [Piece.small, shallowOffsets, ih]
    | verbatim text => exact ih depth
    | opening => exact ih (depth + 1)
    | closing => exact ih (depth - 1)

/-! ### Tokens -/

def Token.small (t : Token) : Token :=
  { t with name := Text.small t.name, constraint := t.constraint.map Text.small }

theorem Token.small_lead (t : Token) : Text.small t.lead = t.lead := by
  obtain ⟨slash, dot, name, constraint, optional, rest⟩ := t
  cases slash <;> cases dot <;> rfl

theorem Token.length_text_small (t : Token) : t.small.text.length = t.text.length := by
  have hlead : t.small.lead = t.lead := rfl
  unfold Token.text
  rw [hlead]
  cases hconstraint : t.constraint with
  | none => simp [Token.small, hconstraint]
  | some constraint => simp [Token.small, hconstraint]

theorem readMark_small {mark : Char} (hmark : mark.isAlpha = false) (cs : List Char) :
    readMark mark (small cs) = ((readMark mark cs).1, small (readMark mark cs).2) := by
  cases cs with
  | nil => rfl
  | cons c cs =>
    rw [small_cons, readMark, readMark]
    simp only [toLower_eq_iff hmark]
    split
    · rfl
    · rfl

theorem upToClosing_small (cs : List Char) :
    upToClosing (small cs) = (upToClosing cs).map (Prod.map small small) := by
  have hclosing : (')' : Char).isAlpha = false := by decide
  have hline : ('\n' : Char).isAlpha = false := by decide
  induction cs with
  | nil => rfl
  | cons c cs ih =>
    rw [small_cons, upToClosing, upToClosing, ih]
    simp only [toLower_eq_iff hclosing, toLower_eq_iff hline]
    split
    · rfl
    · split
      · rfl
      · cases upToClosing cs <;> rfl

theorem readConstraint_small (cs : List Char) :
    readConstraint (small cs) = (readConstraint cs).map (Option.map small) small := by
  have hnone : ∀ {cs : List Char}, cs.head? ≠ some '(' → readConstraint cs = (none, cs) := by
    intro cs hcs
    unfold readConstraint
    split
    · exact absurd rfl hcs
    · rfl
  cases cs with
  | nil => rfl
  | cons c cs =>
    by_cases hopening : c = '('
    · subst hopening
      have hsmall : small ('(' :: cs) = '(' :: small cs := rfl
      rw [hsmall, readConstraint, upToClosing_small, readConstraint]
      cases upToClosing cs <;> rfl
    · have hopening' : c.toLower ≠ '(' := by rwa [Ne, toLower_eq_iff (by decide)]
      rw [small_cons, hnone (by simpa using hopening'), hnone (by simpa using hopening)]
      rfl

/-- The token whose name starts the text, after what precedes its colon. -/
def tokenAt? (slash dot : Bool) (cs : List Char) : Option Token :=
  if (cs.takeWhile isWord).isEmpty then none
  else
    let (constraint, left) := readConstraint (cs.dropWhile isWord)
    let (optional, left) := readMark '?' left
    some ⟨slash, dot, cs.takeWhile isWord, constraint, optional, (readMark '*' left).1⟩

theorem tokenAt?_small (slash dot : Bool) (cs : List Char) :
    tokenAt? slash dot (small cs) = (tokenAt? slash dot cs).map Token.small := by
  have hmark : ('?' : Char).isAlpha = false := by decide
  have hstar : ('*' : Char).isAlpha = false := by decide
  unfold tokenAt?
  rw [takeWhile_small isWord_toLower, dropWhile_small isWord_toLower, readConstraint_small]
  simp only [Prod.map, readMark_small hmark, readMark_small hstar]
  cases cs.takeWhile isWord with
  | nil => rfl
  | cons c name => rfl

/-- What precedes the colon of a token, and what follows it. -/
theorem readToken?_eq (cs : List Char) :
    readToken? cs =
      match (readMark '.' (readMark '/' cs).2).2 with
      | ':' :: rest => tokenAt? (readMark '/' cs).1 (readMark '.' (readMark '/' cs).2).1 rest
      | _ => none := rfl

theorem readToken?_small (cs : List Char) :
    readToken? (small cs) = (readToken? cs).map Token.small := by
  have hslash : ('/' : Char).isAlpha = false := by decide
  have hdot : ('.' : Char).isAlpha = false := by decide
  rw [readToken?_eq, readToken?_eq, readMark_small hslash, readMark_small hdot]
  generalize (readMark '/' cs).1 = slash
  generalize (readMark '.' (readMark '/' cs).2).1 = dot
  cases (readMark '.' (readMark '/' cs).2).2 with
  | nil => rfl
  | cons c rest =>
    by_cases hcolon : c = ':'
    · subst hcolon
      exact tokenAt?_small slash dot rest
    · have hcolon' : c.toLower ≠ ':' := by rwa [Ne, toLower_eq_iff (by decide)]
      simp only [small_cons]
      split
      · next heq => exact absurd (List.cons.inj heq).1 hcolon'
      · split
        · next heq => exact absurd (List.cons.inj heq).1 hcolon
        · rfl

/-! ### Parts -/

def Part.small : Part → Part
  | .copied c => .copied c.toLower
  | .wrapper key before inside =>
    .wrapper ⟨String.ofList (Text.small key.name.toList), key.optional⟩ (Text.small before)
      (Text.small inside)

theorem Part.text_small (p : Part) : p.small.text = Text.small p.text := by
  cases p with
  | copied c => rfl
  | wrapper key before inside =>
    have hclosing : Text.small (if key.optional then [')', '?'] else [')']) =
        if key.optional then [')', '?'] else [')'] := by
      cases key.optional <;> rfl
    have hopening : Text.small ['(', '?', ':'] = ['(', '?', ':'] := rfl
    rw [Part.small, Part.text, Part.text, small_append, small_append, small_append, hopening,
      hclosing]

theorem small_captureOf (constraint : Option (List Char)) (rest dot : Bool) :
    small (captureOf constraint rest dot) = captureOf (constraint.map small) rest dot := by
  cases constraint with
  | some constraint => rfl
  | none => cases rest <;> cases dot <;> rfl

theorem wrap_small (t : Token) (literalLead : Bool) :
    wrap t.small literalLead = (wrap t literalLead).small := by
  obtain ⟨slash, dot, name, constraint, optional, rest⟩ := t
  have hslash : Text.small (if slash then ['/'] else []) = if slash then ['/'] else [] := by
    cases slash <;> rfl
  have hdot : ∀ b : Bool, Text.small (if b then ['\\', '.'] else []) =
      if b then ['\\', '.'] else [] := by
    intro b
    cases b <;> rfl
  have hlead : ∀ {name name' : List Char} {constraint constraint' : Option (List Char)},
      (Token.mk slash dot name constraint optional rest).lead =
        (Token.mk slash dot name' constraint' optional rest).lead := rfl
  cases optional <;> cases literalLead <;>
    simp [wrap, Token.small, Part.small, small_captureOf, Token.small_lead, hslash, hdot]
  all_goals exact hlead

theorem partsFrom_small (shallow : List Nat) (offset taken held : Nat) (cs : List Char) :
    partsFrom shallow offset taken held (small cs) =
      (partsFrom shallow offset taken held cs).map Part.small := by
  induction cs generalizing offset taken held with
  | nil => cases taken <;> cases held <;> rfl
  | cons c cs ih =>
    cases taken with
    | succ taken => rw [small_cons, partsFrom, partsFrom, utf8Size_toLower, ih]
    | zero =>
      cases held with
      | succ held =>
        rw [small_cons, partsFrom, partsFrom, utf8Size_toLower, ih]
        rfl
      | zero =>
        rw [small_cons, partsFrom, partsFrom, utf8Size_toLower, ← small_cons, readToken?_small]
        cases readToken? (c :: cs) with
        | none =>
          simp only [Option.map_none, ih]
          rfl
        | some token =>
          have hlead : token.small.lead = token.lead := rfl
          simp only [Option.map_some, ih, hlead, Token.length_text_small, wrap_small]
          split
          · rfl
          · rfl

theorem wrapperOffsets_small (offset : Nat) (parts : List Part) :
    wrapperOffsets offset (parts.map Part.small) = wrapperOffsets offset parts := by
  induction parts generalizing offset with
  | nil => rfl
  | cons p parts ih =>
    cases p with
    | copied c =>
      rw [List.map_cons, Part.small, wrapperOffsets, wrapperOffsets, utf8Size_toLower, ih]
    | wrapper key before inside =>
      have htext := (Part.wrapper key before inside).text_small
      rw [Part.small] at htext
      rw [List.map_cons, Part.small, wrapperOffsets, wrapperOffsets, htext, utf8Length_small,
        utf8Length_small, ih]

theorem substitute_small (cs : List Char) :
    substitute (small cs) = (substitute cs).map (List.map Part.small) := by
  unfold substitute
  rw [pieces_small]
  cases pieces cs with
  | none => rfl
  | some ps =>
    simp only [Option.map_some, shallowOffsets_small, partsFrom_small]

/-! ### Pattern texts -/

theorem textOf_rewritten_small (depth : Nat) (p : Piece) :
    textOf (p.small.rewritten depth) = small (textOf (p.rewritten depth)) := by
  have hchar : ∀ {d : Char}, d.isAlpha = false → (p.small = .char d ↔ p = .char d) := by
    intro d hd
    cases p with
    | char c => rw [Piece.small, Piece.char.injEq, Piece.char.injEq, toLower_eq_iff hd]
    | verbatim text => simp [Piece.small]
    | opening => simp [Piece.small]
    | closing => simp [Piece.small]
  have hdot := @hchar '.' (by decide)
  have hstar := @hchar '*' (by decide)
  unfold Piece.rewritten
  simp only [hdot, hstar]
  split
  · rfl
  · split
    · rfl
    · simp [Piece.text_small]

theorem spellFrom_small (depth written : Nat) (offsets : List Nat) (ps : List (Nat × Piece)) :
    spellFrom depth written offsets (smallPieces ps) =
      (spellFrom depth written offsets ps).map small id := by
  induction ps generalizing depth written offsets with
  | nil => rfl
  | cons p ps ih =>
    obtain ⟨at_, piece⟩ := p
    change spellFrom depth written offsets ((at_, piece.small) :: smallPieces ps) = _
    have hdepth : piece.small.depthAfter depth = piece.depthAfter depth := by cases piece <;> rfl
    have hopening : piece.small = .opening ↔ piece = .opening := by
      cases piece <;> simp [Piece.small]
    by_cases hmoved : piece = .opening ∧ offsets.head? = some at_
    · obtain ⟨rfl, hhead⟩ := hmoved
      obtain ⟨offsets, rfl⟩ := List.head?_eq_some_iff.mp hhead
      change spellFrom depth written (at_ :: offsets) ((at_, .opening) :: smallPieces ps) = _
      rw [spellFrom_opening, spellFrom_opening, ih]
      have htext : small (textOf (Piece.opening.rewritten depth)) =
          textOf (Piece.opening.rewritten depth) :=
        (textOf_rewritten_small depth .opening).symm
      simp only [Prod.map, id, small_append, htext]
    · have hstays : piece = .opening → offsets.head? ≠ some at_ := fun hp hhead =>
        hmoved ⟨hp, hhead⟩
      rw [spellFrom_cons _ _ _ _ _ _ fun hp => hstays (hopening.mp hp),
        spellFrom_cons _ _ _ _ _ _ hstays, hdepth, textOf_rewritten_small, utf8Length_small, ih]
      simp only [Prod.map, id, small_append]

theorem spell_small (cs : List Char) (offsets : List Nat) :
    spell (small cs) offsets = (spell cs offsets).map (Prod.map small id) := by
  unfold spell
  rw [pieces_small]
  cases pieces cs with
  | none => rfl
  | some ps =>
    simp only [Option.map_some, spellFrom_small]

theorem textFor_small (options : CompileOptions) (spec : List Char) :
    textFor options (small spec) = small (textFor options spec) := by
  have hsuffix : ['/', '?'].isSuffixOf (small spec) = ['/', '?'].isSuffixOf spec := by
    rw [Bool.eq_iff_iff, List.isSuffixOf_iff_suffix, List.isSuffixOf_iff_suffix]
    constructor
    · rintro ⟨before, hbefore⟩
      obtain ⟨u, v, rfl, -, hv⟩ := List.append_eq_map_iff.mp hbefore
      obtain ⟨c, w, rfl, hc, hw⟩ := List.map_eq_cons_iff.mp hv
      obtain ⟨d, x, rfl, hd, hx⟩ := List.map_eq_cons_iff.mp hw
      rw [toLower_eq_iff (by decide)] at hc hd
      obtain rfl := List.map_eq_nil_iff.mp hx
      exact ⟨u, by rw [hc, hd]⟩
    · exact fun h => h.map Char.toLower
  have hlast : (small spec).getLast? = some '/' ↔ spec.getLast? = some '/' := by
    rw [small, List.getLast?_map, Option.map_eq_some_iff]
    constructor
    · rintro ⟨c, hc, hslash⟩
      rwa [← (toLower_eq_iff (by decide)).mp hslash]
    · exact fun h => ⟨'/', h, rfl⟩
  unfold textFor withOptionalSlash
  simp only [hsuffix, hlast]
  split
  · rfl
  · split
    · rfl
    · split
      · rw [small_append]
        rfl
      · rw [small_append]
        rfl

/-- **Specs that differ only in case have pattern texts that differ only in case.** -/
theorem small_pattern_of_compile {options : CompileOptions} {spec spec' : List Char}
    {source source' : Source} (hspec : small spec = small spec')
    (h : compile options spec = .ok source) (h' : compile options spec' = .ok source') :
    small source.pattern = small source'.pattern := by
  -- what the passes write for the spec with small letters
  have hwritten : ∀ {spec : List Char} {source : Source}, compile options spec = .ok source →
      ((substitute (textFor options (small spec))).bind fun parts =>
        spell (parts.flatMap Part.text) (wrapperOffsets 0 parts)).map Prod.fst =
          some (small source.pattern) := by
    intro spec source h
    obtain ⟨parts, wrappers, hparts, hspell, -⟩ := compile_eq_ok h
    rw [textFor_small, substitute_small, hparts]
    have htext : (parts.map Part.small).flatMap Part.text = small (parts.flatMap Part.text) := by
      rw [List.flatMap_map, small_flatMap]
      simp only [Part.text_small]
    simp only [Option.map_some, Option.bind_some, htext, wrapperOffsets_small, spell_small, hspell]
    rfl
  have hsame := hwritten h
  rw [hspec, hwritten h'] at hsame
  exact (Option.some.inj hsame).symm

end RequestRouter.Spec
