/-
  RequestRouter/Proofs/Spec/Constraint.lean
  =========================================
  **A constraint that closes its groups at its end only reaches the pattern as it is written.**

  The constraint of a parameter ends at the first closing parenthesis behind its opening one.  A body
  without one is therefore the whole constraint, and substitution puts it between the parentheses of
  the capture.  If the body goes on with further closing parentheses, they are left outside the token
  and copied, behind two that substitution has put there; as they are all alike, the pattern is the
  same text as if the whole body stood in the capture.  Whatever pieces the text before them is made
  of, none of them closes a group: all its dots and stars stand inside the capture, where rewriting
  leaves them alone (`rewritten_inside`).
-/
import RequestRouter.Proofs.Spec.Element

namespace RequestRouter.Spec

open RequestRouter.Text RequestRouter.Unicode

/-! ### Reading the constraint -/

theorem upToClosing_body {body : List Char} (hclosing : ')' ∉ body) (hline : '\n' ∉ body)
    (rest : List Char) : upToClosing (body ++ ')' :: rest) = some (body ++ [')'], rest) := by
  induction body with
  | nil => rfl
  | cons c body ih =>
    simp only [List.mem_cons, not_or] at hclosing hline
    rw [List.cons_append, upToClosing, if_neg (Ne.symm hclosing.1), if_neg (Ne.symm hline.1),
      ih hclosing.2 hline.2]
    rfl

/-- A parameter after a slash, with a constraint. -/
def constrained (name body : List Char) : Token where
  slash := true
  dot := false
  name := name
  constraint := some ('(' :: (body ++ [')']))
  optional := false
  rest := false

theorem text_constrained (name body : List Char) :
    (constrained name body).text = '/' :: ':' :: (name ++ '(' :: (body ++ [')'])) := by
  simp [constrained, Token.text, Token.lead]

/-- A constrained parameter is read back before a text that adds no mark to it. -/
theorem readToken?_constrained {name body rest : List Char} (hname : name ≠ [])
    (hword : ∀ c ∈ name, isWord c = true) (hclosing : ')' ∉ body) (hline : '\n' ∉ body)
    (hrest : ∀ mark ∈ ['?', '*'], rest.head? ≠ some mark) :
    readToken? ((constrained name body).text ++ rest) = some (constrained name body) := by
  have htext : (constrained name body).text ++ rest =
      '/' :: ':' :: (name ++ '(' :: (body ++ ')' :: rest)) := by
    simp [text_constrained]
  have hstop : ∀ c, ('(' :: (body ++ ')' :: rest)).head? = some c → isWord c = false := by
    intro c hc
    obtain rfl : '(' = c := by simpa using hc
    decide
  have hconstraint : readConstraint ('(' :: (body ++ ')' :: rest)) =
      (some ('(' :: (body ++ [')'])), rest) := by
    rw [readConstraint, upToClosing_body hclosing hline]
  have hempty : name.isEmpty = false := by
    cases name with
    | nil => exact absurd rfl hname
    | cons c name => rfl
  rw [htext]
  unfold readToken?
  have hslash : readMark '/' ('/' :: ':' :: (name ++ '(' :: (body ++ ')' :: rest))) =
      (true, ':' :: (name ++ '(' :: (body ++ ')' :: rest))) := rfl
  have hdot : readMark '.' (':' :: (name ++ '(' :: (body ++ ')' :: rest))) =
      (false, ':' :: (name ++ '(' :: (body ++ ')' :: rest))) := rfl
  simp only [hslash, hdot, takeWhile_name hword hstop, dropWhile_name hword hstop, hconstraint,
    hempty, readMark_of_ne (hrest '?' (by simp)), readMark_of_ne (hrest '*' (by simp))]
  rfl

/-! ### Closing parentheses behind the constraint -/

/-- The closing parentheses of `k` groups. -/
def closers (k : Nat) : List Char := List.replicate k ')'

theorem eq_of_mem_closers {c : Char} {k : Nat} (h : c ∈ closers k) : c = ')' :=
  List.eq_of_mem_replicate h

theorem closers_concat (k : Nat) : closers k ++ [')'] = ')' :: closers k :=
  List.replicate_succ'.symm

/-- The text of a constrained parameter whose constraint is cut before the last `k` parentheses. -/
theorem text_constrained_closers (name inner : List Char) (k : Nat) :
    (constrained name inner).text ++ closers k =
      '/' :: ':' :: (name ++ '(' :: (inner ++ closers k ++ [')'])) := by
  rw [text_constrained, List.append_assoc, closers_concat]
  simp

/-! ### Substitution -/

/-- What a spec without a slash at the end gets behind it. -/
def optionalEnd (options : CompileOptions) : List Char := if options.strict then [] else ['/', '?']

/-- What stands behind the constraint that is read. -/
def behindConstraint (options : CompileOptions) (k : Nat) : List Char :=
  closers k ++ optionalEnd options

theorem mem_behindConstraint {options : CompileOptions} {k : Nat} {c : Char}
    (h : c ∈ behindConstraint options k) : c ∈ [')', '/', '?'] := by
  rcases List.mem_append.mp h with h | h
  · rw [eq_of_mem_closers h]
    decide
  · revert h
    unfold optionalEnd
    split
    · simp
    · exact List.mem_cons_of_mem _

/-- No mark follows the constraint that is read. -/
theorem head?_behindConstraint (options : CompileOptions) (k : Nat) :
    ∀ mark ∈ ['?', '*'], (behindConstraint options k).head? ≠ some mark := by
  cases k with
  | succ k =>
    intro mark hmark hhead
    obtain rfl : ')' = mark := Option.some.inj hhead
    exact absurd hmark (by decide)
  | zero =>
    unfold behindConstraint optionalEnd
    split <;> simp [closers]

theorem textFor_constrained (options : CompileOptions) (front name inner : List Char) (k : Nat) :
    textFor options (front ++ ((constrained name inner).text ++ closers k)) =
      front ++ (constrained name inner).text ++ behindConstraint options k := by
  have hspec : front ++ ((constrained name inner).text ++ closers k) =
      (front ++ '/' :: ':' :: (name ++ '(' :: (inner ++ closers k))) ++ [')'] := by
    rw [text_constrained_closers]
    simp
  have hlast : (front ++ ((constrained name inner).text ++ closers k)).getLast? = some ')' := by
    rw [hspec]
    exact List.getLast?_concat
  have hsuffix : ¬ ['/', '?'] <:+ front ++ ((constrained name inner).text ++ closers k) := by
    rintro ⟨t, ht⟩
    have hmark : (t ++ ['/', '?']).getLast? = some '?' := by
      rw [List.getLast?_append]
      rfl
    rw [ht, hlast] at hmark
    cases hmark
  unfold textFor behindConstraint optionalEnd
  split
  · simp
  · rw [withOptionalSlash, if_neg (by simpa using hsuffix), hlast]
    simp

/-- Characters that mean themselves are pieces of their own. -/
theorem map_char_of_textOf {ps : List Piece} (h : Standing ps) {front rest : List Char}
    (hfront : ∀ c ∈ front, c ∉ ['\\', '[', '(', ')']) (htext : textOf ps = front ++ rest) :
    ∃ more, ps = front.map .char ++ more ∧ Standing more ∧ textOf more = rest := by
  induction front generalizing ps with
  | nil => exact ⟨ps, rfl, h, htext⟩
  | cons c front ih =>
    obtain ⟨more, rfl, hmore⟩ := char_of_textOf h (hfront c List.mem_cons_self) htext
    obtain ⟨more', rfl, hstanding, hrest⟩ :=
      ih h.tail (fun d hd => hfront d (List.mem_cons_of_mem _ hd)) hmore
    exact ⟨more', rfl, hstanding, hrest⟩

theorem head?_before_slash {front : List Char} (h : ':' ∉ front) (rest : List Char) :
    (front ++ '/' :: rest).head? ≠ some ':' := by
  cases front with
  | nil => simp
  | cons c front =>
    intro hhead
    obtain rfl : c = ':' := by simpa using hhead
    exact h List.mem_cons_self

theorem plain_of_literal {front : List Char} (h : ∀ c ∈ front, Element.Literal c) :
    ∀ c ∈ front, c ∉ ['\\', '[', '(', ')'] := by
  intro c hc
  have hliteral := h c hc
  simp only [Element.Literal, List.mem_cons, List.not_mem_nil, or_false, not_or] at hliteral
  simp [hliteral]

/-- Before a slash, no token starts at a character other than a colon. -/
theorem readToken?_before_slash {c : Char} {front : List Char} (h : ':' ∉ c :: front)
    (rest : List Char) : readToken? (c :: (front ++ '/' :: rest)) = none := by
  simp only [List.mem_cons, not_or] at h
  have hnext := head?_before_slash h.2 rest
  by_cases hslash : c = '/'
  · subst hslash
    apply readToken?_slash hnext
    intro more hmore
    cases front with
    | nil => simp at hmore
    | cons d front =>
      obtain ⟨-, rfl⟩ := List.cons.inj hmore
      exact head?_before_slash (fun hmem => h.2 (List.mem_cons_of_mem _ hmem)) rest
  · by_cases hdot : c = '.'
    · subst hdot
      exact readToken?_dot hnext
    · apply readToken?_of_head
      simp [hslash, hdot, Ne.symm h.1]

/-- Before a slash, characters other than colons are copied. -/
theorem partsFrom_before_slash {shallow : List Nat} {front : List Char} (h : ':' ∉ front)
    (offset : Nat) (rest : List Char) :
    partsFrom shallow offset 0 0 (front ++ '/' :: rest) =
      front.map .copied ++ partsFrom shallow (offset + utf8Length front) 0 0 ('/' :: rest) := by
  induction front generalizing offset with
  | nil => rfl
  | cons c front ih =>
    rw [List.cons_append, partsFrom_copied offset (readToken?_before_slash h rest),
      ih (fun hmem => h (List.mem_cons_of_mem _ hmem)), utf8Length_cons, Nat.add_assoc]
    rfl

/-- The parts of a spec that ends with a constrained parameter. -/
def constrainedParts (options : CompileOptions) (front name inner : List Char) (k : Nat) : List Part :=
  front.map .copied ++ wrap (constrained name inner) false ::
    (behindConstraint options k).map .copied

/-- A constrained parameter behind characters that mean themselves is substituted. -/
theorem substitute_constrained {options : CompileOptions} {front name inner : List Char} {k : Nat}
    {parts : List Part} (hfront : ∀ c ∈ front, Element.Literal c) (hname : name ≠ [])
    (hword : ∀ c ∈ name, isWord c = true) (hclosing : ')' ∉ inner) (hline : '\n' ∉ inner)
    (h : substitute (textFor options (front ++ ((constrained name inner).text ++ closers k))) =
      some parts) : parts = constrainedParts options front name inner k := by
  rw [textFor_constrained] at h
  simp only [substitute, Option.map_eq_some_iff] at h
  obtain ⟨located, hlocated, rfl⟩ := h
  obtain ⟨ps, hstanding, hps, rfl⟩ := pieces_eq_some_iff.mp hlocated
  have hcolon : ':' ∉ front := fun hmem => absurd (hfront ':' hmem) (by decide)
  obtain ⟨rest, hrest⟩ : ∃ rest, (constrained name inner).text ++ behindConstraint options k =
      '/' :: ':' :: rest := ⟨_, by rw [text_constrained]; rfl⟩
  rw [List.append_assoc, hrest] at hps ⊢
  -- The pieces up to the colon are characters outside groups.
  obtain ⟨_, rfl, hmore, htail⟩ := map_char_of_textOf hstanding (plain_of_literal hfront) hps
  obtain ⟨_, rfl, htail'⟩ := char_of_textOf hmore (by decide) htail
  obtain ⟨more, rfl, -⟩ := char_of_textOf hmore.tail (by decide) htail'
  have hstart := mem_shallowOffsets (b := .char ':' :: more) '/' (depthAfter_map_char 0 front)
  have hname' := mem_shallowOffsets (a := front.map .char ++ [.char '/']) (b := more) ':'
    (by rw [depthAfter_append, depthAfter_map_char]; rfl)
  rw [List.append_assoc] at hname'
  rw [textOf_map_char] at hstart
  rw [textOf_append, textOf_map_char, utf8Length_append] at hname'
  -- Nothing is a token but the parameter.
  have htoken := readToken?_constrained hname hword hclosing hline (head?_behindConstraint options k)
  have hparam := partsFrom_token htoken hstart hname'
  have hbehind : ':' ∉ behindConstraint options k :=
    fun hmem => absurd (mem_behindConstraint hmem) (by decide)
  rw [hrest] at hparam
  rw [partsFrom_before_slash hcolon, Nat.zero_add, hparam, partsFrom_of_not_mem hbehind,
    constrainedParts]

theorem text_constrainedParts (options : CompileOptions) (front name inner : List Char) (k : Nat) :
    (constrainedParts options front name inner k).flatMap Part.text =
      front ++ '/' :: '(' :: '?' :: ':' :: '(' ::
        (inner ++ (closers k ++ ')' :: ')' :: optionalEnd options)) := by
  have hwrap : (wrap (constrained name inner) false).text =
      '/' :: '(' :: '?' :: ':' :: '(' :: (inner ++ [')'] ++ [')']) := rfl
  have hclosers : ')' :: ')' :: closers k = closers k ++ [')', ')'] := by
    rw [← closers_concat, ← List.cons_append, ← closers_concat, List.append_assoc]
    rfl
  have hbehind : ')' :: ')' :: behindConstraint options k =
      closers k ++ ')' :: ')' :: optionalEnd options := by
    rw [behindConstraint, ← List.cons_append, ← List.cons_append, hclosers, List.append_assoc]
    rfl
  rw [constrainedParts, List.flatMap_append, List.flatMap_cons, flatMap_text_copied,
    flatMap_text_copied, hwrap, ← hbehind]
  simp

/-! ### Rewriting -/

/-- The pattern is what rewriting makes of the pieces of the substituted text, and the offsets of its
    wrappers are moved with their parentheses. -/
theorem exists_of_spell {text pattern : List Char} {parts : List Part} {wrappers : List Nat}
    (hparts : substitute text = some parts)
    (h : spell (parts.flatMap Part.text) (wrapperOffsets 0 parts) = some (pattern, wrappers)) :
    ∃ ps, Standing ps ∧ textOf ps = parts.flatMap Part.text ∧
      pattern = textOf (rewritten 0 ps) ∧ Moved 0 0 0 ps (wrapperOffsets 0 parts) wrappers := by
  simp only [spell, Option.map_eq_some_iff] at h
  obtain ⟨located, hlocated, hspell⟩ := h
  obtain ⟨ps, hstanding, hps, rfl⟩ := pieces_eq_some_iff.mp hlocated
  have hwritten := spellFrom_locate ps 0 0 0 _ (isOpening_of_substitute hparts hstanding hps)
    (pairwise_wrapperOffsets 0 parts)
  rw [hspell] at hwritten
  exact ⟨ps, hstanding, hps, hwritten⟩

/-- Pieces whose dots and stars all stand inside groups are left alone. -/
theorem rewritten_inside {ps : List Piece} {depth : Nat}
    (h : ∀ a c b, ps = a ++ .char c :: b → c = '.' ∨ c = '*' → a.count .closing < depth) :
    rewritten depth ps = ps := by
  induction ps generalizing depth with
  | nil => rfl
  | cons p ps ih =>
    have hself : p.rewritten depth = [p] := by
      unfold Piece.rewritten
      split
      · next hdot => exact absurd (h [] '.' ps (by rw [hdot.2]; rfl) (.inl rfl)) (by simp [hdot.1])
      · split
        · next hstar =>
          exact absurd (h [] '*' ps (by rw [hstar.2]; rfl) (.inr rfl)) (by simp [hstar.1])
        · rfl
    have hmore : rewritten (p.depthAfter depth) ps = ps := by
      apply ih
      intro a c b hps hc
      have hdepth := h (p :: a) c b (by rw [hps]; rfl) hc
      rw [List.count_cons] at hdepth
      cases p with
      | opening => exact Nat.lt_succ_of_lt (by simpa using hdepth)
      | closing =>
        have : a.count .closing + 1 < depth := by simpa using hdepth
        exact Nat.lt_sub_of_add_lt this
      | char d =>
        change a.count .closing < depth
        simpa using hdepth
      | verbatim text =>
        change a.count .closing < depth
        simpa using hdepth
    rw [rewritten_cons, hself, hmore]
    rfl

theorem closing_mem_textOf {ps : List Piece} (h : .closing ∈ ps) : ')' ∈ textOf ps :=
  List.mem_flatMap.mpr ⟨.closing, h, List.mem_singleton.mpr rfl⟩

/-- The pieces from the body of a constraint to the end of the spec are left alone. -/
theorem rewritten_body {inner tail : List Char} (hclosing : ')' ∉ inner)
    (htail : '.' ∉ tail ∧ '*' ∉ tail) {ps : List Piece} (h : textOf ps = inner ++ tail) {depth : Nat}
    (hdepth : 0 < depth) : rewritten depth ps = ps := by
  apply rewritten_inside
  rintro a c b rfl hc
  have hfree : c ∉ tail := by
    rcases hc with rfl | rfl
    · exact htail.1
    · exact htail.2
  have htext : textOf a ++ c :: textOf b = inner ++ tail := by
    rw [← h, textOf_append]
    rfl
  -- A dot or a star stands before the tail, and what precedes it there closes nothing.
  have hcount : a.count .closing = 0 := by
    rw [List.count_eq_zero]
    intro hmem
    rcases List.append_eq_append_iff.mp htext with ⟨more, hinner, -⟩ | ⟨more, -, hbehind⟩
    · apply hclosing
      rw [hinner]
      exact List.mem_append_left _ (closing_mem_textOf hmem)
    · apply hfree
      rw [hbehind]
      simp
  rw [hcount]
  exact hdepth

theorem standable_literal {front : List Char} (h : ∀ c ∈ front, Element.Literal c) :
    Standable (front.map .char) := by
  intro e he
  obtain ⟨c, hc, rfl⟩ := List.mem_map.mp he
  have hcolon : ':' ∉ [c] := by
    intro hmem
    rw [← List.mem_singleton.mp hmem] at hc
    exact absurd (h ':' hc) (by decide)
  exact ⟨['/'], h c hc, readToken?_before_slash hcolon []⟩

theorem rewritten_literal {front : List Char} (h : ∀ c ∈ front, Element.Literal c) :
    rewritten 0 (front.map .char) = (front.map Element.char).flatMap Element.pattern := by
  have hpieces : front.map Piece.char = (front.map Element.char).flatMap Element.substituted := by
    rw [List.flatMap_map]
    exact List.map_eq_flatMap
  rw [hpieces, rewritten_flatMap (standable_literal h)]

/-- The pieces of a spec that ends with a constrained parameter, up to its capture. -/
theorem exists_of_text_constrained {front inner : List Char} {ps : List Piece} (h : Standing ps)
    (hfront : ∀ c ∈ front, Element.Literal c)
    (hps : textOf ps = front ++ '/' :: '(' :: '?' :: ':' :: '(' :: inner) :
    ∃ rest, ps = front.map .char ++
        .char '/' :: .opening :: .char '?' :: .char ':' :: .opening :: rest ∧ textOf rest = inner := by
  obtain ⟨_, rfl, hmore, htail⟩ := map_char_of_textOf h (plain_of_literal hfront) hps
  obtain ⟨_, rfl, htail₁⟩ := char_of_textOf hmore (by decide) htail
  obtain ⟨_, rfl, htail₂⟩ := opening_of_textOf hmore.tail htail₁
  obtain ⟨_, rfl, htail₃⟩ := char_of_textOf hmore.tail.tail (by decide) htail₂
  obtain ⟨_, rfl, htail₄⟩ := char_of_textOf hmore.tail.tail.tail (by decide) htail₃
  obtain ⟨rest, rfl, hrest⟩ := opening_of_textOf hmore.tail.tail.tail.tail htail₄
  exact ⟨rest, rfl, hrest⟩

/-- Of these pieces only the characters before the parameter are rewritten. -/
theorem rewritten_constrained {options : CompileOptions} {front inner : List Char} {k : Nat}
    {rest : List Piece} (hfront : ∀ c ∈ front, Element.Literal c) (hclosing : ')' ∉ inner)
    (hrest : textOf rest = inner ++ (closers k ++ ')' :: ')' :: optionalEnd options)) :
    rewritten 0 (front.map .char ++
        .char '/' :: .opening :: .char '?' :: .char ':' :: .opening :: rest) =
      (front.map Element.char).flatMap Element.pattern ++
        .char '/' :: .opening :: .char '?' :: .char ':' :: .opening :: rest := by
  have htail : ∀ c ∈ closers k ++ ')' :: ')' :: optionalEnd options, c ∈ [')', '/', '?'] := by
    intro c hc
    have hbehind : ∀ d ∈ ')' :: ')' :: optionalEnd options, d ∈ [')', '/', '?'] := by
      unfold optionalEnd
      split <;> simp
    rcases List.mem_append.mp hc with hc | hc
    · rw [eq_of_mem_closers hc]
      decide
    · exact hbehind c hc
  have hbody : rewritten 2 rest = rest := by
    refine rewritten_body hclosing ⟨?_, ?_⟩ hrest (by decide) <;>
      exact fun hmem => absurd (htail _ hmem) (by decide)
  have hgroups : rewritten 0 (.char '/' :: .opening :: .char '?' :: .char ':' :: .opening :: rest) =
      .char '/' :: .opening :: .char '?' :: .char ':' :: .opening :: rewritten 2 rest := rfl
  rw [rewritten_append, depthAfter_map_char, rewritten_literal hfront, hgroups, hbody]

/-! ### The pattern -/

/-- The pattern of characters that mean themselves. -/
def literalPattern (front : List Char) : List Char :=
  textOf ((front.map Element.char).flatMap Element.pattern)

/-- The constraint inside two groups, behind the characters before the parameter and a slash. -/
def constrainedPattern (options : CompileOptions) (front body : List Char) : List Char :=
  literalPattern front ++ ['/'] ++ (['(', '?', ':'] ++ ('(' :: (body ++ [')'])) ++ [')']) ++
    optionalEnd options

/-! ### The slots -/

/-- The group that is open is the next one to be counted. -/
theorem head?_topGroupsFrom {wrappers : List Nat} {depth : Nat} {current : TopGroup}
    {located : List (Nat × Piece)} {groups : List TopGroup}
    (h : topGroupsFrom wrappers (depth + 1) current located = some groups) :
    groups.head?.map (·.opener) = some current.opener := by
  induction located generalizing depth current with
  | nil => cases h
  | cons x located ih =>
    obtain ⟨at_, p⟩ := x
    cases p with
    | opening =>
      rw [topGroupsFrom] at h
      simp only [Nat.succ_ne_zero, if_false] at h
      have hfirst := ih h
      exact hfirst
    | closing =>
      cases depth with
      | zero =>
        obtain ⟨more, -, rfl⟩ := Option.map_eq_some_iff.mp h
        rfl
      | succ depth => exact ih h
    | char c => exact ih h
    | verbatim text => exact ih h

/-- Without a key every slot is empty. -/
theorem eq_none_of_slotsOf {groups : List TopGroup} {slots : List Slot}
    (h : slotsOf groups [] = .ok slots) : ∀ slot ∈ slots, slot = none := by
  induction groups generalizing slots with
  | nil =>
    cases h
    exact fun _ hslot => absurd hslot List.not_mem_nil
  | cons g groups ih =>
    have hanonymous : ∀ n, (slotsOf groups []).map (List.replicate n none ++ ·) = .ok slots →
        ∀ slot ∈ slots, slot = none := by
      intro n hmap slot hslot
      obtain ⟨more, hmore, rfl⟩ := exists_of_map_eq_ok hmap
      rcases List.mem_append.mp hslot with hslot | hslot
      · exact List.eq_of_mem_replicate hslot
      · exact ih hmore slot hslot
    unfold slotsOf at h
    split at h
    · exact ih h
    · next heq => cases heq
    · exact hanonymous _ h

/-- The only key belongs to the first slot if a wrapper is the first group. -/
theorem slots_of_slotsOf {groups : List TopGroup} {key : Key} {slots : List Slot}
    (hfirst : groups.head?.map (·.opener) = some .named) (h : slotsOf groups [key] = .ok slots) :
    ∃ others, slots = some key :: others ∧ ∀ slot ∈ others, slot = none := by
  cases groups with
  | nil => cases hfirst
  | cons g groups =>
    obtain ⟨opener, captures⟩ := g
    obtain rfl : opener = .named := Option.some.inj hfirst
    change (if captures = 0 then .error key else (slotsOf groups []).map
      ((some key :: List.replicate (captures - 1) none) ++ ·)) = .ok slots at h
    split at h
    · cases h
    · obtain ⟨more, hmore, rfl⟩ := exists_of_map_eq_ok h
      refine ⟨_, rfl, ?_⟩
      intro slot hslot
      rcases List.mem_append.mp hslot with hslot | hslot
      · exact List.eq_of_mem_replicate hslot
      · exact eq_none_of_slotsOf hmore slot hslot

/-- The parenthesis behind the characters before the parameter opens the wrapper. -/
theorem offset_mem_of_moved {options : CompileOptions} {front name inner : List Char} {k : Nat}
    {rest : List Piece} {wrappers : List Nat} (hfront : ∀ c ∈ front, Element.Literal c)
    (hstanding : Standing (front.map .char ++ .char '/' :: .opening :: rest))
    (hmoved : Moved 0 0 0 (front.map .char ++ .char '/' :: .opening :: rest)
      (wrapperOffsets 0 (constrainedParts options front name inner k)) wrappers) :
    utf8Length (textOf ((front.map Element.char).flatMap Element.pattern ++ [.char '/'])) ∈
      wrappers := by
  have hparts : constrainedParts options front name inner k =
      front.map .copied ++ wrap (constrained name inner) false ::
        (behindConstraint options k).map .copied := rfl
  have hoffset := getElem?_wrapperOffsets hparts
  obtain ⟨w, hw, a, b, hab, hlength, rfl⟩ := hmoved.getElem? hoffset
  have hsplit : front.map .char ++ .char '/' :: .opening :: rest =
      (front.map .char ++ [.char '/']) ++ .opening :: rest := by
    simp
  have hbefore : utf8Length (textOf (front.map .char ++ [.char '/'])) = utf8Length (textOf a) := by
    rw [textOf_append, textOf_map_char, ← Nat.zero_add (utf8Length (textOf a)), ← hlength,
      flatMap_text_copied]
    rfl
  obtain ⟨rfl, -⟩ := hstanding.eq_of_utf8Length hsplit hab hbefore
  rw [rewritten_append, depthAfter_map_char, rewritten_literal hfront, Nat.zero_add] at hw
  exact List.mem_of_getElem? hw

/-- The wrapper of the parameter is the first group. -/
theorem head?_topGroupsFrom_constrained {front : List Char} {rest : List Piece} {wrappers : List Nat}
    {groups : List TopGroup}
    (hoffset : utf8Length (textOf ((front.map Element.char).flatMap Element.pattern ++
      [.char '/'])) ∈ wrappers)
    (h : topGroupsFrom wrappers 0 ⟨.nonCapturing, 0⟩ (locate 0
      ((front.map Element.char).flatMap Element.pattern ++ .char '/' :: .opening :: rest)) =
        some groups) :
    groups.head?.map (·.opener) = some .named := by
  have hplain : ∀ p ∈ (front.map Element.char).flatMap Element.pattern ++ [.char '/'],
      p ≠ .opening ∧ p ≠ .closing := by
    intro p hp
    rcases List.mem_append.mp hp with hp | hp
    · obtain ⟨e, he, hp⟩ := List.mem_flatMap.mp hp
      obtain ⟨c, -, rfl⟩ := List.mem_map.mp he
      rw [Element.pattern] at hp
      split at hp <;> simp_all
    · rw [List.mem_singleton.mp hp]
      decide
  have hsplit : (front.map Element.char).flatMap Element.pattern ++ .char '/' :: .opening :: rest =
      ((front.map Element.char).flatMap Element.pattern ++ [.char '/']) ++ .opening :: rest := by
    simp
  rw [hsplit, locate_append, topGroupsFrom_pass _ _ _ _ hplain, locate_cons, Nat.zero_add,
    topGroupsFrom_wrapper hoffset] at h
  exact head?_topGroupsFrom h

/-- **The pattern of a constrained parameter** holds its constraint as it is written, with the
    parentheses behind it, and the first slot is that of the parameter. -/
theorem pattern_constrained {options : CompileOptions} {front name inner : List Char} {k : Nat}
    {source : Source} (hfront : ∀ c ∈ front, Element.Literal c) (hname : name ≠ [])
    (hword : ∀ c ∈ name, isWord c = true) (hclosing : ')' ∉ inner) (hline : '\n' ∉ inner)
    (h : compile options (front ++ ((constrained name inner).text ++ closers k)) = .ok source) :
    source.pattern = constrainedPattern options front (inner ++ closers k) ∧
      ∃ others, source.slots = some ⟨String.ofList name, false⟩ :: others ∧
        ∀ slot ∈ others, slot = none := by
  obtain ⟨parts, wrappers, hparts, hspell, hslots⟩ := compile_eq_ok h
  obtain ⟨ps, hstanding, hps, hpattern, hmoved⟩ := exists_of_spell hparts hspell
  obtain rfl := substitute_constrained hfront hname hword hclosing hline hparts
  rw [text_constrainedParts] at hps
  obtain ⟨rest, rfl, hrest⟩ := exists_of_text_constrained hstanding hfront hps
  have hrewritten := rewritten_constrained hfront hclosing hrest
  constructor
  · rw [hpattern, hrewritten, textOf_append]
    simp [Piece.text, hrest, constrainedPattern, literalPattern]
  · have hpieces : pieces source.pattern = some (locate 0 (rewritten 0 (front.map .char ++
        .char '/' :: .opening :: .char '?' :: .char ':' :: .opening :: rest))) := by
      rw [hpattern]
      exact piecesFrom_textOf (hstanding.rewritten 0) 0
    have hkeys : (constrainedParts options front name inner k).filterMap Part.key? =
        [⟨String.ofList name, false⟩] := by
      rw [constrainedParts, List.filterMap_append, filterMap_key_copied, List.nil_append,
        List.filterMap_cons, filterMap_key_copied]
      rfl
    rw [hrewritten] at hpieces
    rw [assignSlots, hpieces, Option.bind_some, hkeys] at hslots
    split at hslots
    · cases hslots
    · next groups hgroups =>
      have hfirst :=
        head?_topGroupsFrom_constrained (offset_mem_of_moved hfront hstanding hmoved) hgroups
      split at hslots
      · next slots hslots' =>
        cases hslots
        exact slots_of_slotsOf hfirst hslots'
      · cases hslots

end RequestRouter.Spec
