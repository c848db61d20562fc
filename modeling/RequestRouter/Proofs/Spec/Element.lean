/-
  RequestRouter/Proofs/Spec/Element.lean
  ======================================
  **Specs laid out as elements, and the patterns that they compile to.**

  An element is a character, a parameter without a constraint, a group of digits, a star or a slash
  that may be missing.  A list of elements that the passes of the compiler read as such (`Laid`)
  compiles element by element: to its pattern and its slots (`compile_laid`).
-/
import RequestRouter.Proofs.Spec.Alignment

namespace RequestRouter.Spec

open RequestRouter.Text RequestRouter.Unicode

/-- A part of a path spec. -/
inductive Element where
  | char (c : Char)
  /-- An anonymous group of digits. -/
  | digits
  | star
  /-- A slash that may be missing. -/
  | optionalSlash
  /-- A parameter; its constraint is not looked at. -/
  | param (t : Token)

namespace Element

/-- The element as it is written in a spec. -/
def text : Element → List Char
  | .char c => [c]
  | .digits => ['(', '\\', 'd', '+', ')']
  | .star => ['*']
  | .optionalSlash => ['/', '?']
  | .param t => t.text

/-- The pieces of the written element. -/
def pieces : Element → List Piece
  | .char c => [.char c]
  | .digits => [.opening, .verbatim ['\\', 'd'], .char '+', .closing]
  | .star => [.char '*']
  | .optionalSlash => [.char '/', .char '?']
  | .param t => t.text.map .char

/-- What substitution makes of the element. -/
def parts : Element → List Part
  | .param t => [wrap t false]
  | e => e.text.map .copied

/-- The slash before the wrapper of a parameter. -/
def slashBefore (t : Token) : List Piece := if t.slash && !t.optional then [.char '/'] else []

/-- What a parameter takes besides its own text. -/
def leadInside (t : Token) : List Piece :=
  (if t.slash && t.optional then [.char '/'] else []) ++
    if t.dot then [.verbatim ['\\', '.']] else []

/-- The capture group of a parameter. -/
def capturePieces (t : Token) : List Piece :=
  if t.rest then [.opening, .char '.', .char '*', .closing]
  else if t.dot then [.opening, .verbatim ['[', '^', '/', '.', ']'], .char '+', .char '?', .closing]
  else [.opening, .verbatim ['[', '^', '/', ']'], .char '+', .char '?', .closing]

/-- The wrapper of a parameter. -/
def wrapperPieces (t : Token) : List Piece :=
  .opening :: .char '?' :: .char ':' :: (leadInside t ++ capturePieces t) ++
    .closing :: if t.optional then [.char '?'] else []

/-- The pieces of what substitution makes of the element. -/
def substituted : Element → List Piece
  | .param t => slashBefore t ++ wrapperPieces t
  | e => e.pieces

/-- The pieces of the element's pattern. -/
def pattern : Element → List Piece
  | .char c => if c = '.' then [.verbatim ['\\', '.']] else [.char c]
  | .star => [.opening, .char '.', .char '*', .closing]
  | e => e.substituted

@[simp] theorem pattern_param (t : Token) :
    (Element.param t).pattern = slashBefore t ++ wrapperPieces t := rfl

/-- The slots of the captures in the element's pattern. -/
def slots : Element → List Slot
  | .digits | .star => [none]
  | .param t => [some ⟨String.ofList t.name, t.optional⟩]
  | .char _ | .optionalSlash => []

/-- The groups outside all others in the element's pattern. -/
def groups : Element → List TopGroup
  | .digits | .star => [⟨.capturing, 1⟩]
  | .param _ => [⟨.named, 1⟩]
  | .char _ | .optionalSlash => []

/-- A character that means itself in a spec. -/
def Literal (c : Char) : Prop :=
  c ∉ ['\\', '+', '*', '?', '(', ')', '|', '[', ']', '\x7b', '\x7d', '^', '$', ':']

instance : DecidablePred Literal := fun _ => inferInstanceAs (Decidable (_ ∉ _))

/-- The element is read as such before the text `rest`. -/
def Stands (rest : List Char) : Element → Prop
  | .char c => Literal c ∧ readToken? (c :: rest) = none
  | .digits | .star | .optionalSlash => True
  | .param t => t.constraint = none ∧ readToken? (t.text ++ rest) = some t

end Element

open Element

/-- Every element of a spec is read as such. -/
def Laid : List Element → Prop
  | [] => True
  | e :: more => e.Stands (more.flatMap Element.text) ∧ Laid more

theorem Laid.tail {e : Element} {more : List Element} (h : Laid (e :: more)) : Laid more := h.2

theorem Laid.stands {front back : List Element} {e : Element} (h : Laid (front ++ e :: back)) :
    e.Stands (back.flatMap Element.text) := by
  induction front with
  | nil => exact h.1
  | cons e' front ih => exact ih h.tail

/-- Every element is read as such before some text. -/
def Standable (es : List Element) : Prop := ∀ e ∈ es, ∃ rest, e.Stands rest

theorem Laid.standable {es : List Element} (h : Laid es) : Standable es := by
  intro e he
  obtain ⟨front, back, rfl⟩ := List.append_of_mem he
  exact ⟨_, h.stands⟩

theorem Standable.of_append {a b : List Element} (h : Standable (a ++ b)) : Standable a :=
  fun e he => h e (List.mem_append_left b he)

/-! ### Pieces of elements -/

theorem isWord_whole {c : Char} (h : isWord c = true) : c ∉ ['\\', '[', '(', ')'] := by
  intro hc
  simp only [List.mem_cons, List.not_mem_nil, or_false] at hc
  rcases hc with rfl | rfl | rfl | rfl <;> exact absurd h (by decide)

theorem Element.Stands.whole {e : Element} {rest : List Char} (h : e.Stands rest) :
    ∀ p ∈ e.pieces, p.Whole := by
  cases e with
  | char c =>
    intro p hp
    obtain rfl := List.mem_singleton.mp hp
    have hc := h.1
    simp only [Literal, List.mem_cons, List.not_mem_nil, or_false, not_or] at hc
    exact .char (by simp [hc])
  | digits =>
    intro p hp
    simp only [Element.pieces, List.mem_cons, List.not_mem_nil, or_false] at hp
    rcases hp with rfl | rfl | rfl | rfl
    · exact .opening
    · exact .escape 'd'
    · exact .char (by decide)
    · exact .closing
  | star =>
    intro p hp
    obtain rfl := List.mem_singleton.mp hp
    exact .char (by decide)
  | optionalSlash =>
    intro p hp
    simp only [Element.pieces, List.mem_cons, List.not_mem_nil, or_false] at hp
    rcases hp with rfl | rfl <;> exact .char (by decide)
  | param t =>
    obtain ⟨hconstraint, htoken⟩ := h
    have hproper := (eq_of_readToken? htoken).2
    intro p hp
    obtain ⟨c, hc, rfl⟩ := List.mem_map.mp hp
    apply Piece.Whole.char
    simp only [Token.text, Token.lead, hconstraint, Option.getD_none, List.append_nil,
      List.mem_append, List.mem_cons] at hc
    rcases hc with ((((hc | hc) | (rfl | hc)) | hc) | hc)
    · split at hc <;> simp_all
    · split at hc <;> simp_all
    · decide
    · exact isWord_whole (hproper.name_word c hc)
    · split at hc <;> simp_all
    · split at hc <;> simp_all

theorem textOf_map_char (cs : List Char) : textOf (cs.map .char) = cs := by
  induction cs with
  | nil => rfl
  | cons c cs ih => rw [List.map_cons, textOf_cons, ih]; rfl

theorem depthAfter_map_char (depth : Nat) (cs : List Char) : depthAfter depth (cs.map .char) = depth := by
  induction cs with
  | nil => rfl
  | cons c cs ih => exact ih

theorem depthAfter_append (depth : Nat) (a b : List Piece) :
    depthAfter depth (a ++ b) = depthAfter (depthAfter depth a) b :=
  List.foldl_append

theorem Element.textOf_pieces (e : Element) : textOf e.pieces = e.text := by
  cases e with
  | param t => exact textOf_map_char t.text
  | char c => rfl
  | digits => rfl
  | star => rfl
  | optionalSlash => rfl

theorem Element.depthAfter_pieces (e : Element) : depthAfter 0 e.pieces = 0 := by
  cases e with
  | param t => exact depthAfter_map_char 0 t.text
  | char c => rfl
  | digits => rfl
  | star => rfl
  | optionalSlash => rfl

theorem Element.depthAfter_substituted (e : Element) : depthAfter 0 e.substituted = 0 := by
  cases e with
  | param t =>
    obtain ⟨slash, dot, name, constraint, optional, rest⟩ := t
    cases slash <;> cases dot <;> cases optional <;> cases rest <;> rfl
  | char c => rfl
  | digits => rfl
  | star => rfl
  | optionalSlash => rfl

/-- Rewriting an element outside groups. -/
theorem Element.Stands.rewritten {e : Element} {rest : List Char} (h : e.Stands rest) :
    Spec.rewritten 0 e.substituted = e.pattern := by
  cases e with
  | char c =>
    have hstar : c ≠ '*' := by
      rintro rfl
      exact absurd h.1 (by decide)
    by_cases hdot : c = '.'
    · subst hdot
      rfl
    · simp [Element.substituted, Element.pieces, Element.pattern, Piece.rewritten, hdot, hstar]
  | digits => rfl
  | star => rfl
  | optionalSlash => rfl
  | param t =>
    obtain ⟨slash, dot, name, constraint, optional, rest⟩ := t
    cases slash <;> cases dot <;> cases optional <;> cases rest <;> rfl

theorem standing_pieces {es : List Element} (h : Laid es) :
    Standing (es.flatMap Element.pieces) := by
  rw [← List.append_nil (es.flatMap Element.pieces)]
  apply standing_append (b := []) _ True.intro
  intro p hp
  obtain ⟨e, he, hp⟩ := List.mem_flatMap.mp hp
  obtain ⟨rest, hstands⟩ := h.standable e he
  exact hstands.whole p hp

theorem textOf_flatMap_pieces (es : List Element) :
    textOf (es.flatMap Element.pieces) = es.flatMap Element.text := by
  induction es with
  | nil => rfl
  | cons e es ih => rw [List.flatMap_cons, List.flatMap_cons, textOf_append, ih, e.textOf_pieces]

theorem pieces_laid {es : List Element} (h : Laid es) :
    Spec.pieces (es.flatMap Element.text) = some (locate 0 (es.flatMap Element.pieces)) :=
  pieces_eq_some_iff.mpr ⟨_, standing_pieces h, textOf_flatMap_pieces es, rfl⟩

theorem depthAfter_flatMap {f : Element → List Piece} (h : ∀ e, depthAfter 0 (f e) = 0)
    (es : List Element) : depthAfter 0 (es.flatMap f) = 0 := by
  induction es with
  | nil => rfl
  | cons e es ih => rw [List.flatMap_cons, depthAfter_append, h, ih]

theorem rewritten_flatMap {es : List Element} (h : Standable es) :
    rewritten 0 (es.flatMap Element.substituted) = es.flatMap Element.pattern := by
  induction es with
  | nil => rfl
  | cons e es ih =>
    obtain ⟨rest, hstands⟩ := h e List.mem_cons_self
    rw [List.flatMap_cons, List.flatMap_cons, rewritten_append, hstands.rewritten,
      e.depthAfter_substituted, ih fun d hd => h d (List.mem_cons_of_mem _ hd)]

/-! ### Substitution -/

theorem shallowOffsets_append (depth offset : Nat) (a b : List Piece) :
    shallowOffsets depth (locate offset (a ++ b)) =
      shallowOffsets depth (locate offset a) ++
        shallowOffsets (depthAfter depth a) (locate (offset + utf8Length (textOf a)) b) := by
  induction a generalizing depth offset with
  | nil => simp [shallowOffsets]
  | cons p a ih =>
    rw [List.cons_append, locate_cons, locate_cons, textOf_cons, utf8Length_append, ← Nat.add_assoc]
    cases p with
    | opening => exact ih _ _
    | closing => exact ih _ _
    | verbatim text => exact ih _ _
    | char c =>
      simp only [shallowOffsets]
      split
      · rw [ih]
        rfl
      · exact ih _ _

/-- A plain character outside groups. -/
theorem mem_shallowOffsets {a b : List Piece} (c : Char) (h : depthAfter 0 a = 0) :
    utf8Length (textOf a) ∈ shallowOffsets 0 (locate 0 (a ++ .char c :: b)) := by
  rw [shallowOffsets_append, h, locate_cons, shallowOffsets, if_pos rfl, Nat.zero_add]
  simp

theorem mem_shallowOffsets_param (front back : List Element) {t : Token} (lead : List Char)
    {more : List Char} {c : Char} (htext : t.text = lead ++ c :: more) :
    utf8Length (front.flatMap Element.text) + utf8Length lead ∈
      shallowOffsets 0 (locate 0 ((front ++ .param t :: back).flatMap Element.pieces)) := by
  have hpieces : (front ++ .param t :: back).flatMap Element.pieces =
      (front.flatMap Element.pieces ++ lead.map .char) ++
        .char c :: (more.map .char ++ back.flatMap Element.pieces) := by
    simp [Element.pieces, htext]
  have hdepth : depthAfter 0 (front.flatMap Element.pieces ++ lead.map .char) = 0 := by
    rw [depthAfter_append, depthAfter_flatMap Element.depthAfter_pieces, depthAfter_map_char]
  have hmem := mem_shallowOffsets (b := more.map .char ++ back.flatMap Element.pieces) c hdepth
  rwa [← hpieces, textOf_append, utf8Length_append, textOf_flatMap_pieces, textOf_map_char] at hmem

/-! ### Tokens -/

theorem readMark_of_ne {mark : Char} {cs : List Char} (h : cs.head? ≠ some mark) :
    readMark mark cs = (false, cs) := by
  cases cs with
  | nil => rfl
  | cons c cs =>
    have hc : c ≠ mark := fun hc => h (congrArg some hc)
    rw [readMark, if_neg hc]

theorem readMark_optional (b : Bool) {mark : Char} {rest : List Char}
    (h : rest.head? ≠ some mark) :
    readMark mark ((if b then [mark] else []) ++ rest) = (b, rest) := by
  cases b with
  | true => exact if_pos rfl
  | false => exact readMark_of_ne h

/-- Without a colon after the slash and the dot there is no token. -/
theorem readToken?_eq_none {cs : List Char}
    (h : (readMark '.' (readMark '/' cs).2).2.head? ≠ some ':') : readToken? cs = none := by
  unfold readToken?
  simp only
  split
  · next hcs =>
    rw [hcs] at h
    exact absurd rfl h
  · rfl

theorem readToken?_of_head {c : Char} (h : c ∉ ['/', '.', ':']) (rest : List Char) :
    readToken? (c :: rest) = none := by
  simp only [List.mem_cons, List.not_mem_nil, or_false, not_or] at h
  obtain ⟨h1, h2, h3⟩ := h
  have hslash : readMark '/' (c :: rest) = (false, c :: rest) := readMark_of_ne (by simpa using h1)
  have hdot : readMark '.' (c :: rest) = (false, c :: rest) := readMark_of_ne (by simpa using h2)
  apply readToken?_eq_none
  rw [hslash, hdot]
  simpa using h3

theorem readToken?_dot {rest : List Char} (h : rest.head? ≠ some ':') :
    readToken? ('.' :: rest) = none := by
  apply readToken?_eq_none
  exact h

theorem readToken?_slash {rest : List Char} (h : rest.head? ≠ some ':')
    (hdot : ∀ more, rest = '.' :: more → more.head? ≠ some ':') :
    readToken? ('/' :: rest) = none := by
  apply readToken?_eq_none
  have hslash : readMark '/' ('/' :: rest) = (true, rest) := rfl
  rw [hslash]
  by_cases hhead : rest.head? = some '.'
  · obtain ⟨more, rfl⟩ := List.head?_eq_some_iff.mp hhead
    exact hdot more rfl
  · rw [readMark_of_ne hhead]
    exact h

theorem takeWhile_name {name tail : List Char} (hname : ∀ c ∈ name, isWord c = true)
    (htail : ∀ c, tail.head? = some c → isWord c = false) :
    (name ++ tail).takeWhile isWord = name := by
  rw [List.takeWhile_append_of_pos hname]
  cases tail with
  | nil => simp
  | cons c tail => simp [htail c rfl]

theorem dropWhile_name {name tail : List Char} (hname : ∀ c ∈ name, isWord c = true)
    (htail : ∀ c, tail.head? = some c → isWord c = false) :
    (name ++ tail).dropWhile isWord = tail := by
  rw [List.dropWhile_append_of_pos hname]
  cases tail with
  | nil => rfl
  | cons c tail => simp [htail c rfl]

/-- A token without a constraint is read back before a text that adds nothing to it. -/
theorem readToken?_text {t : Token} (hconstraint : t.constraint = none) (hname : t.name ≠ [])
    (hword : ∀ c ∈ t.name, isWord c = true) {rest : List Char}
    (hrest : ∀ c, rest.head? = some c → isWord c = false ∧ c ∉ ['(', '?', '*']) :
    readToken? (t.text ++ rest) = some t := by
  obtain ⟨slash, dot, name, constraint, optional, star⟩ := t
  subst hconstraint
  have hmark : ∀ mark ∈ ['(', '?', '*'], rest.head? ≠ some mark := by
    intro mark hmem hhead
    exact (hrest mark hhead).2 hmem
  have hstar : readMark '*' ((if star then ['*'] else []) ++ rest) = (star, rest) :=
    readMark_optional star (hmark '*' (by simp))
  have hoptional : readMark '?' ((if optional then ['?'] else []) ++
      ((if star then ['*'] else []) ++ rest)) =
      (optional, (if star then ['*'] else []) ++ rest) := by
    apply readMark_optional
    cases star with
    | true => simp
    | false => exact hmark '?' (by simp)
  -- What follows the name, marks included, does not go on with it and opens no constraint.
  obtain ⟨tail, htail⟩ : ∃ tail, tail = (if optional then ['?'] else []) ++
      ((if star then ['*'] else []) ++ rest) := ⟨_, rfl⟩
  have hstop : ∀ c, tail.head? = some c → isWord c = false ∧ c ≠ '(' := by
    intro c hc
    rw [htail] at hc
    cases optional with
    | true =>
      obtain rfl : '?' = c := by simpa using hc
      decide
    | false =>
      cases star with
      | true =>
        obtain rfl : '*' = c := by simpa using hc
        decide
      | false =>
        have := hrest c hc
        exact ⟨this.1, fun h => this.2 (by simp [h])⟩
  have hconstraint : readConstraint tail = (none, tail) := by
    unfold readConstraint
    split
    · exact absurd rfl (hstop '(' rfl).2
    · rfl
  have hlead : readMark '.' ((if dot then ['.'] else []) ++ ':' :: (name ++ tail)) =
      (dot, ':' :: (name ++ tail)) := readMark_optional dot (by simp)
  have hslash : readMark '/' ((if slash then ['/'] else []) ++
      ((if dot then ['.'] else []) ++ ':' :: (name ++ tail))) =
      (slash, (if dot then ['.'] else []) ++ ':' :: (name ++ tail)) := by
    apply readMark_optional
    cases dot <;> simp
  have htext : (Token.mk slash dot name none optional star).text ++ rest =
      (if slash then ['/'] else []) ++ ((if dot then ['.'] else []) ++ ':' :: (name ++ tail)) := by
    simp [Token.text, Token.lead, htail]
  have hempty : name.isEmpty = false := by
    cases name with
    | nil => exact absurd rfl hname
    | cons c name => rfl
  rw [htext]
  unfold readToken?
  simp only [hslash, hlead, takeWhile_name hword fun c hc => (hstop c hc).1,
    dropWhile_name hword fun c hc => (hstop c hc).1, hconstraint, hempty]
  rw [htail]
  simp only [hoptional, hstar]
  rfl

/-! ### Parts -/

theorem partsFrom_copied {shallow : List Nat} (offset : Nat) {c : Char} {rest : List Char}
    (h : readToken? (c :: rest) = none) :
    partsFrom shallow offset 0 0 (c :: rest) =
      .copied c :: partsFrom shallow (offset + c.utf8Size) 0 0 rest := by
  rw [partsFrom, h]

/-- A text without a colon is copied. -/
theorem partsFrom_of_not_mem {shallow : List Nat} {cs : List Char} (h : ':' ∉ cs) (offset : Nat) :
    partsFrom shallow offset 0 0 cs = cs.map .copied := by
  induction cs generalizing offset with
  | nil => rfl
  | cons c cs ih =>
    rw [partsFrom_copied offset (readToken?_of_not_mem h),
      ih (fun hmem => h (List.mem_cons_of_mem _ hmem)), List.map_cons]

/-- A text is copied if no token starts at its first character or could start at a later one. -/
theorem partsFrom_copies {shallow : List Nat} (offset : Nat) {c : Char} {cs rest : List Char}
    (h : readToken? (c :: (cs ++ rest)) = none) (hcs : ∀ d ∈ cs, d ∉ ['/', '.', ':']) :
    partsFrom shallow offset 0 0 ((c :: cs) ++ rest) =
      (c :: cs).map .copied ++ partsFrom shallow (offset + utf8Length (c :: cs)) 0 0 rest := by
  rw [List.cons_append, partsFrom_copied offset h, List.map_cons, List.cons_append, utf8Length_cons,
    ← Nat.add_assoc]
  congr 1
  induction cs generalizing c offset with
  | nil => rfl
  | cons d cs ih =>
    have hd : readToken? (d :: (cs ++ rest)) = none :=
      readToken?_of_head (hcs d List.mem_cons_self) _
    rw [List.cons_append, partsFrom_copied _ hd, List.map_cons, List.cons_append, utf8Length_cons,
      ← Nat.add_assoc]
    congr 1
    apply ih _ hd
    intro e he
    exact hcs e (List.mem_cons_of_mem _ he)

theorem partsFrom_taken (shallow : List Nat) (offset held : Nat) (taken rest : List Char) :
    partsFrom shallow offset taken.length held (taken ++ rest) =
      partsFrom shallow (offset + utf8Length taken) 0 held rest := by
  induction taken generalizing offset with
  | nil => rfl
  | cons c taken ih =>
    rw [List.length_cons, List.cons_append, partsFrom, ih, utf8Length_cons, Nat.add_assoc]

theorem partsFrom_held (shallow : List Nat) (offset : Nat) (held rest : List Char) :
    partsFrom shallow offset 0 held.length (held ++ rest) =
      held.map .copied ++ partsFrom shallow (offset + utf8Length held) 0 0 rest := by
  induction held generalizing offset with
  | nil => rfl
  | cons c held ih =>
    rw [List.length_cons, List.cons_append, partsFrom, ih, utf8Length_cons, Nat.add_assoc]
    rfl

/-- What the scan does with a token that it has found. -/
theorem partsFrom_read {shallow : List Nat} {t : Token} {rest : List Char}
    (h : readToken? (t.text ++ rest) = some t) (offset : Nat) :
    partsFrom shallow offset 0 0 (t.text ++ rest) =
      (if offset + utf8Length t.lead ∈ shallow then [wrap t (offset ∉ shallow)]
        else t.text.map .copied) ++ partsFrom shallow (offset + utf8Length t.text) 0 0 rest := by
  cases htext : t.text with
  | nil => exact absurd htext t.text_ne_nil
  | cons c cs =>
    rw [htext, List.cons_append] at h
    rw [List.cons_append, partsFrom, h]
    simp only [htext, List.length_cons, Nat.add_sub_cancel, partsFrom_taken, partsFrom_held,
      utf8Length_cons, Nat.add_assoc]
    split <;> simp

/-- A token whose first character and colon are outside groups. -/
theorem partsFrom_token {shallow : List Nat} {offset : Nat} {t : Token} {rest : List Char}
    (h : readToken? (t.text ++ rest) = some t) (hstart : offset ∈ shallow)
    (hcolon : offset + utf8Length t.lead ∈ shallow) :
    partsFrom shallow offset 0 0 (t.text ++ rest) =
      wrap t false :: partsFrom shallow (offset + utf8Length t.text) 0 0 rest := by
  rw [partsFrom_read h, if_pos hcolon]
  simp [hstart]

/-- Substitution goes through a spec element by element. -/
theorem partsFrom_laid {shallow : List Nat} {es : List Element} (h : Laid es) (offset : Nat)
    (hshallow : ∀ front t back, es = front ++ .param t :: back →
      offset + utf8Length (front.flatMap Element.text) ∈ shallow ∧
        offset + utf8Length (front.flatMap Element.text) + utf8Length t.lead ∈ shallow) :
    partsFrom shallow offset 0 0 (es.flatMap Element.text) = es.flatMap Element.parts := by
  induction es generalizing offset with
  | nil => rfl
  | cons e es ih =>
    have htail := ih h.tail (offset + utf8Length e.text) (by
      intro front t back hes
      have := hshallow (e :: front) t back (by rw [hes]; rfl)
      simpa [Nat.add_assoc] using this)
    rw [List.flatMap_cons, List.flatMap_cons]
    cases e with
    | param t =>
      obtain ⟨hstart, hcolon⟩ := hshallow [] t es rfl
      have hstands := h.1.2
      rw [Element.text, partsFrom_token hstands (by simpa using hstart) (by simpa using hcolon)]
      rw [Element.text] at htail
      rw [htail]
      rfl
    | char c => exact (partsFrom_copies offset h.1.2 (by simp)).trans (congrArg _ htail)
    | digits =>
      have hopen : readToken? (['(', '\\', 'd', '+', ')'] ++ es.flatMap Element.text) = none :=
        readToken?_of_head (by decide) _
      exact (partsFrom_copies offset hopen (by simp)).trans (congrArg _ htail)
    | star =>
      have hopen : readToken? (['*'] ++ es.flatMap Element.text) = none :=
        readToken?_of_head (by decide) _
      exact (partsFrom_copies offset hopen (by simp)).trans (congrArg _ htail)
    | optionalSlash => exact (partsFrom_copies offset rfl (by simp)).trans (congrArg _ htail)

/-- **What substitution makes of a laid spec.** -/
theorem substitute_laid {es : List Element} (h : Laid es) :
    substitute (es.flatMap Element.text) = some (es.flatMap Element.parts) := by
  rw [substitute, pieces_laid h, Option.map_some]
  congr 1
  apply partsFrom_laid h 0
  rintro front t back rfl
  rw [Nat.zero_add]
  constructor
  · cases htext : t.text with
    | nil => exact absurd htext t.text_ne_nil
    | cons c more =>
      simpa using mem_shallowOffsets_param front back [] htext
  · have htext : t.text = t.lead ++ ':' :: (t.name ++ t.constraint.getD [] ++
        (if t.optional then ['?'] else []) ++ (if t.rest then ['*'] else [])) := by
      simp [Token.text]
    exact mem_shallowOffsets_param front back t.lead htext

/-! ### Wrappers -/

theorem textOf_wrapper {t : Token} (h : t.constraint = none) :
    (wrap t false).text = textOf (slashBefore t ++ wrapperPieces t) := by
  obtain ⟨slash, dot, name, constraint, optional, rest⟩ := t
  subst h
  cases slash <;> cases dot <;> cases optional <;> cases rest <;> rfl

theorem Element.Stands.textOf_substituted {e : Element} {rest : List Char} (h : e.Stands rest) :
    e.parts.flatMap Part.text = textOf e.substituted := by
  cases e with
  | param t =>
    rw [Element.parts, List.flatMap_singleton]
    exact textOf_wrapper h.1
  | char c => rfl
  | digits => rfl
  | star => rfl
  | optionalSlash => rfl

theorem flatMap_text_parts {es : List Element} (h : Standable es) :
    (es.flatMap Element.parts).flatMap Part.text = textOf (es.flatMap Element.substituted) := by
  induction es with
  | nil => rfl
  | cons e es ih =>
    obtain ⟨rest, hstands⟩ := h e List.mem_cons_self
    rw [List.flatMap_cons, List.flatMap_cons, List.flatMap_append, textOf_append,
      hstands.textOf_substituted, ih fun d hd => h d (List.mem_cons_of_mem _ hd)]

theorem whole_wrapper (t : Token) : ∀ p ∈ slashBefore t ++ wrapperPieces t, p.Whole := by
  intro p hp
  have hmem : p ∈ [.opening, .closing, .char '?', .char ':', .char '/', .char '.', .char '*',
      .char '+', .verbatim ['\\', '.'], .verbatim ['[', '^', '/', ']'],
      .verbatim ['[', '^', '/', '.', ']']] := by
    obtain ⟨slash, dot, name, constraint, optional, rest⟩ := t
    revert p
    cases slash <;> cases dot <;> cases optional <;> cases rest <;>
      simp [slashBefore, wrapperPieces, leadInside, capturePieces]
  simp only [List.mem_cons, List.not_mem_nil, or_false] at hmem
  rcases hmem with rfl | rfl | rfl | rfl | rfl | rfl | rfl | rfl | rfl | rfl | rfl
  · exact .opening
  · exact .closing
  · exact .char (by decide)
  · exact .char (by decide)
  · exact .char (by decide)
  · exact .char (by decide)
  · exact .char (by decide)
  · exact .char (by decide)
  · exact .escape '.'
  · exact .cls (by decide)
  · exact .cls (by decide)

theorem Element.Stands.whole_substituted {e : Element} {rest : List Char} (h : e.Stands rest) :
    ∀ p ∈ e.substituted, p.Whole := by
  cases e with
  | param t => exact whole_wrapper t
  | char c => exact h.whole
  | digits => exact h.whole
  | star => exact h.whole
  | optionalSlash => exact h.whole

theorem standing_substituted {es : List Element} (h : Standable es) :
    Standing (es.flatMap Element.substituted) := by
  rw [← List.append_nil (es.flatMap Element.substituted)]
  apply standing_append (b := []) _ True.intro
  intro p hp
  obtain ⟨e, he, hp⟩ := List.mem_flatMap.mp hp
  obtain ⟨rest, hstands⟩ := h e he
  exact hstands.whole_substituted p hp

/-! ### Slots -/

/-- The offsets are those of the wrappers in the pattern of a laid spec. -/
structure WrappersOf (wrappers : List Nat) (es : List Element) : Prop where
  param : ∀ front t back, es = front ++ .param t :: back →
    utf8Length (textOf (front.flatMap Element.pattern ++ slashBefore t)) ∈ wrappers
  other : ∀ a p b, es.flatMap Element.pattern = a ++ .opening :: p :: b → p ≠ .char '?' →
    utf8Length (textOf a) ∉ wrappers

theorem rewritten_slashBefore (t : Token) : rewritten 0 (slashBefore t) = slashBefore t := by
  unfold slashBefore
  split <;> rfl

theorem textOf_slashBefore (t : Token) :
    textOf (slashBefore t) = if t.slash && !t.optional then ['/'] else [] := by
  unfold slashBefore
  split <;> rfl

/-- Where the wrappers of a laid spec are moved to. -/
theorem wrappersOf_moved {es : List Element} (h : Laid es) {wrappers : List Nat}
    (hmoved : Moved 0 0 0 (es.flatMap Element.substituted)
      (wrapperOffsets 0 (es.flatMap Element.parts)) wrappers) : WrappersOf wrappers es := by
  have hstanding := standing_substituted h.standable
  have hopens := opensWrapper_of_moved (substitute_laid h) hstanding
    (flatMap_text_parts h.standable).symm hmoved
  have hpattern := rewritten_flatMap h.standable
  constructor
  · rintro front t back rfl
    have hfront := h.standable.of_append
    obtain ⟨key, before, inside, hwrap, -, hbefore, -⟩ := exists_wrap t false
    have hparts : (front ++ .param t :: back).flatMap Element.parts =
        front.flatMap Element.parts ++ .wrapper key before inside :: back.flatMap Element.parts := by
      simp [Element.parts, hwrap]
    have hsplit : (front ++ .param t :: back).flatMap Element.substituted =
        (front.flatMap Element.substituted ++ slashBefore t) ++
          (wrapperPieces t ++ back.flatMap Element.substituted) := by
      simp [Element.substituted]
    have htext : textOf (front.flatMap Element.substituted ++ slashBefore t) =
        (front.flatMap Element.parts).flatMap Part.text ++ before := by
      rw [textOf_append, ← flatMap_text_parts hfront, textOf_slashBefore, hbefore]
      rfl
    obtain ⟨w, hw, a, b, hab, hlen, rfl⟩ := hmoved.getElem? (getElem?_wrapperOffsets hparts)
    obtain ⟨rfl, -⟩ := hstanding.eq_of_utf8Length hsplit hab (by rw [htext]; omega)
    rw [rewritten_append, rewritten_flatMap hfront, depthAfter_flatMap depthAfter_substituted,
      rewritten_slashBefore, Nat.zero_add] at hw
    exact List.mem_of_getElem? hw
  · intro a p b hab hp hmem
    obtain ⟨a', b', hab', hlen⟩ := hopens _ hmem
    rw [hpattern] at hab'
    have hstanding' := hstanding.rewritten 0
    rw [hpattern] at hstanding'
    obtain ⟨-, hb⟩ := hstanding'.eq_of_utf8Length hab hab' hlen
    rw [List.cons.injEq, List.cons.injEq] at hb
    exact hp hb.2.1

/-- What is open stays so over pieces that are no parentheses. -/
theorem topGroupsFrom_pass (wrappers : List Nat) (depth : Nat) (current : TopGroup) (o : Nat)
    {ps : List Piece} (h : ∀ p ∈ ps, p ≠ .opening ∧ p ≠ .closing) (more : List (Nat × Piece)) :
    topGroupsFrom wrappers depth current (locate o ps ++ more) =
      topGroupsFrom wrappers depth current more := by
  induction ps generalizing o with
  | nil => rfl
  | cons p ps ih =>
    obtain ⟨h1, h2⟩ := h p List.mem_cons_self
    rw [locate_cons, List.cons_append, topGroupsFrom_skip _ _ _ _ h1 h2]
    apply ih
    intro q hq
    exact h q (List.mem_cons_of_mem _ hq)

/-- The capture group of a parameter captures and holds no other group. -/
theorem exists_capturePieces (t : Token) : ∃ p inside,
    capturePieces t = .opening :: ((p :: inside) ++ [.closing]) ∧ p ≠ .char '?' ∧
      ∀ q ∈ p :: inside, q ≠ .opening ∧ q ≠ .closing := by
  unfold capturePieces
  split
  · exact ⟨_, [.char '*'], rfl, by simp, by simp⟩
  · split
    · exact ⟨_, [.char '+', .char '?'], rfl, by simp, by simp⟩
    · exact ⟨_, [.char '+', .char '?'], rfl, by simp, by simp⟩

/-- A wrapper opens. -/
theorem topGroupsFrom_wrapper {wrappers : List Nat} {at_ : Nat} (h : at_ ∈ wrappers)
    (current : TopGroup) (more : List (Nat × Piece)) :
    topGroupsFrom wrappers 0 current ((at_, .opening) :: more) =
      topGroupsFrom wrappers 1 ⟨.named, 0⟩ more := by
  rw [topGroupsFrom]
  simp only [if_pos h, if_true]
  rfl

/-- A capture group opens inside another group. -/
theorem topGroupsFrom_capture (wrappers : List Nat) (depth : Nat) (current : TopGroup) (at_ o : Nat)
    {p : Piece} (h : p ≠ .char '?') (ps : List Piece) (more : List (Nat × Piece)) :
    topGroupsFrom wrappers (depth + 1) current ((at_, .opening) :: (locate o (p :: ps) ++ more)) =
      topGroupsFrom wrappers (depth + 2) { current with captures := current.captures + 1 }
        (locate o (p :: ps) ++ more) := by
  have hopener : openerOf (locate o (p :: ps) ++ more) = .capturing := by
    rw [locate_cons, List.cons_append]
    unfold openerOf
    split <;> simp_all
  rw [topGroupsFrom]
  simp only [hopener, if_true]
  rfl

theorem topGroupsFrom_param {wrappers : List Nat} {o : Nat} {t : Token}
    (h : o + utf8Length (textOf (slashBefore t)) ∈ wrappers) (current : TopGroup)
    (more : List (Nat × Piece)) :
    topGroupsFrom wrappers 0 current (locate o (slashBefore t ++ wrapperPieces t) ++ more) =
      (topGroupsFrom wrappers 0 ⟨.named, 1⟩ more).map (⟨.named, 1⟩ :: ·) := by
  have hslash : ∀ p ∈ slashBefore t, p ≠ .opening ∧ p ≠ .closing := by
    unfold slashBefore
    split <;> simp
  have hlead : ∀ p ∈ .char '?' :: .char ':' :: leadInside t, p ≠ .opening ∧ p ≠ .closing := by
    unfold leadInside
    split <;> split <;> simp
  have hmark : ∀ p ∈ (if t.optional then [Piece.char '?'] else []), p ≠ .opening ∧ p ≠ .closing := by
    split <;> simp
  obtain ⟨p, inside, hcapture, hp, hinside⟩ := exists_capturePieces t
  have hsplit : wrapperPieces t = .opening :: ((.char '?' :: .char ':' :: leadInside t) ++
      .opening :: ((p :: inside) ++ .closing :: .closing ::
        if t.optional then [.char '?'] else [])) := by
    simp [wrapperPieces, hcapture]
  rw [hsplit, locate_append, List.append_assoc, topGroupsFrom_pass _ _ _ _ hslash, locate_cons,
    List.cons_append, topGroupsFrom_wrapper h, locate_append, List.append_assoc,
    topGroupsFrom_pass _ _ _ _ hlead, locate_cons, List.cons_append, List.cons_append,
    topGroupsFrom_capture _ _ _ _ _ hp, ← List.cons_append, locate_append, List.append_assoc,
    topGroupsFrom_pass _ _ _ _ hinside]
  -- Both groups are closed, and what may follow is no parenthesis.
  change (topGroupsFrom wrappers 0 ⟨.named, 1⟩ (locate _ _ ++ more)).map _ = _
  rw [topGroupsFrom_pass _ _ _ _ hmark]

theorem topGroupsFrom_digits {wrappers : List Nat} {o : Nat} (h : o ∉ wrappers)
    (current : TopGroup) (more : List (Nat × Piece)) :
    topGroupsFrom wrappers 0 current
        (locate o [.opening, .verbatim ['\\', 'd'], .char '+', .closing] ++ more) =
      (topGroupsFrom wrappers 0 ⟨.capturing, 1⟩ more).map (⟨.capturing, 1⟩ :: ·) := by
  simp [topGroupsFrom, openerOf, h]

theorem topGroupsFrom_star {wrappers : List Nat} {o : Nat} (h : o ∉ wrappers)
    (current : TopGroup) (more : List (Nat × Piece)) :
    topGroupsFrom wrappers 0 current
        (locate o [.opening, .char '.', .char '*', .closing] ++ more) =
      (topGroupsFrom wrappers 0 ⟨.capturing, 1⟩ more).map (⟨.capturing, 1⟩ :: ·) := by
  simp [topGroupsFrom, openerOf, h]

/-- The groups of a laid spec are counted element by element. -/
theorem topGroupsFrom_laid {wrappers : List Nat} {es : List Element} (h : WrappersOf wrappers es)
    (back front : List Element) (hes : es = front ++ back) (current : TopGroup) :
    topGroupsFrom wrappers 0 current
        (locate (utf8Length (textOf (front.flatMap Element.pattern)))
          (back.flatMap Element.pattern)) =
      some (back.flatMap Element.groups) := by
  induction back generalizing front current with
  | nil => rfl
  | cons e back ih =>
    have htail : ∀ current, topGroupsFrom wrappers 0 current
        (locate (utf8Length (textOf (front.flatMap Element.pattern)) + utf8Length (textOf e.pattern))
          (back.flatMap Element.pattern)) = some (back.flatMap Element.groups) := by
      intro current
      have := ih (front ++ [e]) (by simp [hes]) current
      simpa using this
    have hother : ∀ p b, e.pattern = .opening :: p :: b → p ≠ .char '?' →
        utf8Length (textOf (front.flatMap Element.pattern)) ∉ wrappers := by
      intro p b hpattern
      apply h.other _ p (b ++ back.flatMap Element.pattern)
      rw [hes, List.flatMap_append, List.flatMap_cons, hpattern]
      rfl
    rw [List.flatMap_cons, List.flatMap_cons, locate_append]
    generalize locate (utf8Length (textOf (front.flatMap Element.pattern)) +
      utf8Length (textOf e.pattern)) (back.flatMap Element.pattern) = located at htail
    cases e with
    | param t =>
      have hmem := h.param front t back hes
      rw [textOf_append, utf8Length_append] at hmem
      refine (topGroupsFrom_param hmem current located).trans ?_
      rw [htail]
      rfl
    | digits =>
      refine (topGroupsFrom_digits (hother _ _ rfl (by simp)) current located).trans ?_
      rw [htail]
      rfl
    | star =>
      refine (topGroupsFrom_star (hother _ _ rfl (by simp)) current located).trans ?_
      rw [htail]
      rfl
    | char c =>
      have hplain : ∀ p ∈ (Element.char c).pattern, p ≠ .opening ∧ p ≠ .closing := by
        rw [Element.pattern]
        split <;> simp
      exact (topGroupsFrom_pass _ _ _ _ hplain located).trans (htail current)
    | optionalSlash =>
      have hplain : ∀ p ∈ Element.optionalSlash.pattern, p ≠ .opening ∧ p ≠ .closing := by
        simp [Element.pattern, Element.substituted, Element.pieces]
      exact (topGroupsFrom_pass _ _ _ _ hplain located).trans (htail current)

/-- Each element hands its keys to its own groups. -/
theorem Element.slotsOf_cons (e : Element) (groups : List TopGroup) (keys : List Key) :
    slotsOf (e.groups ++ groups) (e.parts.filterMap Part.key? ++ keys) =
      (slotsOf groups keys).map (e.slots ++ ·) := by
  have hmap : ∀ (slots : Except Key (List Slot)), slots = slots.map (fun more => [] ++ more) := by
    intro slots
    cases slots <;> rfl
  cases e with
  | param t =>
    obtain ⟨key, before, inside, hwrap, hkey, -, -⟩ := exists_wrap t false
    have hkeys : (Element.param t).parts.filterMap Part.key? = [key] := by
      simp [Element.parts, hwrap, Part.key?]
    rw [hkeys, hkey]
    rfl
  | char c => exact hmap _
  | digits => rfl
  | star => rfl
  | optionalSlash => exact hmap _

theorem slotsOf_groups (es : List Element) :
    slotsOf (es.flatMap Element.groups) ((es.flatMap Element.parts).filterMap Part.key?) =
      .ok (es.flatMap Element.slots) := by
  induction es with
  | nil => rfl
  | cons e es ih =>
    rw [List.flatMap_cons, List.flatMap_cons, List.flatMap_cons, List.filterMap_append,
      e.slotsOf_cons, ih]
    rfl

/-- **A laid spec compiles element by element.** -/
theorem compile_laid {options : CompileOptions} {spec : List Char} {es : List Element}
    (h : Laid es) (htext : textFor options spec = es.flatMap Element.text) :
    compile options spec =
      .ok ⟨textOf (es.flatMap Element.pattern), es.flatMap Element.slots⟩ := by
  have hstanding := standing_substituted h.standable
  have hparts := substitute_laid h
  have hpattern := rewritten_flatMap h.standable
  have hopening := isOpening_of_substitute hparts hstanding (flatMap_text_parts h.standable).symm
  obtain ⟨hspelled, hmoved⟩ :=
    spellFrom_locate (es.flatMap Element.substituted) 0 0 0 _ hopening (pairwise_wrapperOffsets 0 _)
  have hspell : spell ((es.flatMap Element.parts).flatMap Part.text)
      (wrapperOffsets 0 (es.flatMap Element.parts)) =
      some (textOf (es.flatMap Element.pattern), (spellFrom 0 0
        (wrapperOffsets 0 (es.flatMap Element.parts))
        (locate 0 (es.flatMap Element.substituted))).2) := by
    rw [spell, flatMap_text_parts h.standable, Spec.pieces, piecesFrom_textOf hstanding 0,
      Option.map_some, ← hpattern, ← hspelled]
  have hpieces : Spec.pieces (textOf (es.flatMap Element.pattern)) =
      some (locate 0 (es.flatMap Element.pattern)) := by
    rw [← hpattern]
    exact piecesFrom_textOf (hstanding.rewritten 0) 0
  have hgroups : topGroupsFrom _ 0 ⟨.nonCapturing, 0⟩ (locate 0 (es.flatMap Element.pattern)) =
      some (es.flatMap Element.groups) :=
    topGroupsFrom_laid (wrappersOf_moved h hmoved) es [] rfl _
  have hslots : assignSlots spec (textOf (es.flatMap Element.pattern))
      ((es.flatMap Element.parts).filterMap Part.key?) (spellFrom 0 0
        (wrapperOffsets 0 (es.flatMap Element.parts))
        (locate 0 (es.flatMap Element.substituted))).2 = .ok (es.flatMap Element.slots) := by
    rw [assignSlots, hpieces, Option.bind_some, hgroups]
    simp only
    rw [slotsOf_groups]
  have htext' : (if options.strict then spec else withOptionalSlash spec) =
      es.flatMap Element.text := htext
  simp only [compile, htext', hparts, hspell, hslots]

end RequestRouter.Spec
