/-
  RequestRouter/Proofs/Regex/Grouping.lean
  ========================================
  **What an item does, and what an opening parenthesis does.**

  An item other than a parenthesis has one of three effects on the open branch (`Effect`) and does not
  look at the levels around it; what it adds is a single set or assertion (`single_of_readEffect`).
  Only a parenthesis changes the levels, and only a closing one ends a level.  A text without a closing
  parenthesis therefore cannot close what it opens: if no more levels are open behind it than before
  it, it opens nothing (`ne_opening_of_read`).
-/
import RequestRouter.Proofs.Regex.Surroundings

namespace RequestRouter.Regex

open RequestRouter.Unicode

variable {stop : Char} {more : List Char} {flags : Flags}

/-- A set or an assertion. -/
def Expr.IsSingle (e : Expr) : Prop := (∃ set, e = .one set) ∨ ∃ a, e = .look a

theorem single_of_primitiveExpr {p : Primitive} {e : Expr} (h : primitiveExpr flags p = .ok e) :
    e.IsSingle := by
  have hset : ∀ {found : Except Error CharSet}, (do .ok (Expr.one (← found))) = .ok e →
      e.IsSingle := by
    intro found h
    obtain ⟨set, -, h⟩ := except_bind_ok h
    cases h
    exact .inl ⟨set, rfl⟩
  cases p with
  | literal c octet => exact hset h
  | dot =>
    have hdot : primitiveExpr flags .dot =
        if flags.unicode then .ok (.one (dotSet flags)) else .error .splitsCharacters := rfl
    rw [hdot] at h
    split at h
    · cases h
      exact .inl ⟨_, rfl⟩
    · cases h
  | look a =>
    cases h
    exact .inr ⟨a, rfl⟩
  | _ => exact hset h

namespace ParserState

/-! ### Effects -/

/-- What an item other than a parenthesis does to the open branch. -/
inductive Effect where
  | add (node : Node)
  | nextBranch
  | repeatLast (least : Nat) (most : Option Nat) (greedy : Bool)

def Effect.apply (state : ParserState) : Effect → Except Error ParserState
  | .add node => .ok (state.add (some node))
  | .nextBranch => .ok state.nextBranch
  | .repeatLast least most greedy => state.repeatLast least most greedy

/-- The effect of the item that starts with `c`, and the text that is left after it. -/
def readEffect (flags : Flags) (c : Char) (rest : List Char) :
    Except Error (Effect × List Char) :=
  match c with
  | '|' => .ok (.nextBranch, rest)
  | '[' => do
    let (part, left) ← readClass flags rest
    .ok (.add ⟨.one part.set, part.depth⟩, left)
  | '?' => .ok (.repeatLast 0 (some 1) (readGreed rest).1, (readGreed rest).2)
  | '*' => .ok (.repeatLast 0 none (readGreed rest).1, (readGreed rest).2)
  | '+' => .ok (.repeatLast 1 none (readGreed rest).1, (readGreed rest).2)
  | '\x7b' => do
    let (least, most, left) ← readCounts flags.extended rest
    let (greedy, left) := readGreed (skip flags.extended left)
    .ok (.repeatLast least most greedy, left)
  | c => do
    let (p, left) ← readPrimitive flags c rest
    .ok (.add ⟨← primitiveExpr flags p, 0⟩, left)

theorem step_eq_readEffect {state : ParserState} {c : Char} {rest : List Char}
    (hspace : ¬ (state.flags.extended = true ∧ (isSpace c = true ∨ c = '#')))
    (hopening : c ≠ '(') (hclosing : c ≠ ')') :
    state.step c rest = (do
      let (effect, left) ← readEffect state.flags c rest
      .ok (← effect.apply state, left)) := by
  have hblank : (state.flags.extended && isSpace c) = false := by
    rw [Bool.eq_false_iff]
    simpa using fun he hs => hspace ⟨he, Or.inl hs⟩
  have hcomment : (state.flags.extended && c == '#') = false := by
    rw [Bool.eq_false_iff]
    simpa using fun he hs => hspace ⟨he, Or.inr hs⟩
  unfold ParserState.step readEffect
  simp only [hblank, hcomment, Bool.false_eq_true, if_false]
  split
  · exact absurd rfl hopening
  · exact absurd rfl hclosing
  · rfl
  · cases readClass state.flags rest <;> rfl
  · rfl
  · rfl
  · rfl
  · cases readCounts state.flags.extended rest <;> rfl
  · simp only [bind, Except.bind]
    cases readPrimitive state.flags c rest with
    | error e => rfl
    | ok found =>
      simp only
      cases primitiveExpr state.flags found.1 <;> rfl

theorem step_closing (state : ParserState) (rest : List Char) :
    state.step ')' rest = (do .ok (← state.closeGroup, rest)) := by
  have hspace : isSpace ')' = false := by decide
  have hcomment : (')' == '#') = false := by decide
  unfold ParserState.step
  simp only [hspace, hcomment, Bool.and_false, Bool.false_eq_true, if_false]

/-- What an item adds is single. -/
theorem single_of_readEffect {c : Char} {cs left : List Char} {node : Node}
    (h : readEffect flags c cs = .ok (.add node, left)) : node.expr.IsSingle := by
  unfold readEffect at h
  split at h
  · cases h
  · obtain ⟨⟨part, left'⟩, -, h⟩ := except_bind_ok h
    cases h
    exact .inl ⟨_, rfl⟩
  · cases h
  · cases h
  · cases h
  · obtain ⟨⟨least, most, left'⟩, -, h⟩ := except_bind_ok h
    cases h
  · obtain ⟨⟨p, left'⟩, -, h⟩ := except_bind_ok h
    obtain ⟨e, hexpr, h⟩ := except_bind_ok h
    cases h
    exact single_of_primitiveExpr hexpr

/-- The effect of an item is the same before a closing parenthesis or a letter. -/
theorem readEffect_carries (hstop : Unnoticed stop) (hextended : flags.extended = false) {c : Char} :
    Carries stop more (readEffect flags c) := by
  intro cs effect left h
  unfold readEffect at h ⊢
  split at h
  · cases h
    rfl
  · obtain ⟨⟨part, left'⟩, hpart, h⟩ := except_bind_ok h
    cases h
    rw [readClass_carries hstop hextended hpart]
    rfl
  · cases h
    rw [readGreed_carries hstop]
  · cases h
    rw [readGreed_carries hstop]
  · cases h
    rw [readGreed_carries hstop]
  · obtain ⟨⟨least, most, left'⟩, hcounts, h⟩ := except_bind_ok h
    cases h
    rw [hextended] at hcounts ⊢
    rw [readCounts_carries hstop hcounts]
    simp only [bind, Except.bind, skip_false, readGreed_carries hstop]
    rfl
  · obtain ⟨⟨p, left'⟩, hprimitive, h⟩ := except_bind_ok h
    obtain ⟨e, hexpr, h⟩ := except_bind_ok h
    cases h
    simp only [readPrimitive_carries hstop hextended hprimitive, bind, Except.bind, hexpr]

/-! ### The levels around an item -/

/-- The levels and the groups of `frame` around the open branch of the state. -/
def within (frame state : ParserState) : ParserState :=
  { frame with level := { frame.level with
      branches := state.level.branches, items := state.level.items } }

/-- An effect leaves the levels around the open branch as they are. -/
theorem eq_within_of_apply {state state' : ParserState} {effect : Effect}
    (h : effect.apply state = .ok state') : state' = state.within state' := by
  cases effect with
  | add node =>
    cases h
    rfl
  | nextBranch =>
    cases h
    rfl
  | repeatLast least most greedy =>
    change state.repeatLast least most greedy = .ok state' at h
    unfold ParserState.repeatLast at h
    split at h
    · cases h
      rfl
    · cases h

/-! ### Openings -/

theorem outer_of_openNamed {state state' : ParserState} {cs left : List Char}
    (h : state.openNamed cs = .ok (state', left)) : state'.outer = state.level :: state.outer := by
  obtain ⟨⟨name, left'⟩, -, h⟩ := except_bind_ok h
  simp only at h
  split at h
  · cases h
  · cases h
    rfl

/-- Flag letters end at a colon or at a closing parenthesis of the text. -/
theorem exists_of_readFlags {flags flags' : Flags} {seen seen' cs left : List Char}
    (h : readFlags flags seen cs = .ok (flags', seen', left)) :
    ∃ c tail, left = c :: tail ∧ (c = ':' ∨ c = ')') ∧ c ∈ cs := by
  induction cs generalizing flags seen with
  | nil => cases h
  | cons c cs ih =>
    have hlater : ∀ {flags seen}, readFlags flags seen cs = .ok (flags', seen', left) →
        ∃ d tail, left = d :: tail ∧ (d = ':' ∨ d = ')') ∧ d ∈ c :: cs := by
      intro flags seen hmore
      obtain ⟨d, tail, rfl, hd, hmem⟩ := ih hmore
      exact ⟨d, tail, rfl, hd, List.mem_cons_of_mem _ hmem⟩
    rw [readFlags] at h
    split at h
    · next hend =>
      split at h
      · cases h
      · cases h
        exact ⟨c, cs, rfl, hend, List.mem_cons_self⟩
    · split at h
      · cases h
      · split at h
        · exact hlater h
        · split at h
          · exact hlater h
          · cases h

/-- An opening parenthesis begins a level, unless it only changes flags up to a closing one. -/
theorem outer_of_readOpening {state state' : ParserState} {cs left : List Char}
    (h : state.readOpening cs = .ok (state', left)) :
    state'.outer = state.level :: state.outer ∨
      state'.outer = state.outer ∧ ')' ∈ skip state.flags.extended cs := by
  unfold readOpening at h
  split at h
  · exact .inl (outer_of_openNamed h)
  · cases h
  · cases h
  · cases h
  · cases h
  · exact .inl (outer_of_openNamed h)
  · next rest _ _ _ _ _ _ hcs =>
    obtain ⟨⟨flags, seen, left'⟩, hflags, h⟩ := except_bind_ok h
    obtain ⟨c, tail, rfl, hc, hmem⟩ := exists_of_readFlags hflags
    rcases hc with rfl | rfl
    · cases h
      exact .inl rfl
    · change (if seen.isEmpty = true then _ else _) = _ at h
      split at h
      · cases h
      · cases h
        rw [hcs]
        exact .inr ⟨rfl, List.mem_cons_of_mem _ hmem⟩
  · cases h
    exact .inl rfl

theorem eq_of_step_space {state state' : ParserState} {c : Char} {rest left : List Char}
    (hspace : state.flags.extended = true ∧ (isSpace c = true ∨ c = '#'))
    (h : state.step c rest = .ok (state', left)) : state' = state := by
  obtain ⟨hextended, hc⟩ := hspace
  unfold ParserState.step at h
  simp only [hextended, Bool.true_and] at h
  by_cases hblank : isSpace c = true
  · rw [if_pos hblank] at h
    cases h
    rfl
  · rw [if_neg hblank, if_pos (beq_iff_eq.mpr (hc.resolve_left hblank))] at h
    cases h
    rfl

/-- Only a closing parenthesis ends a level. -/
theorem outer_le_step {state state' : ParserState} {c : Char} {rest left : List Char}
    (h : state.step c rest = .ok (state', left)) (hclosing : c ≠ ')') :
    state.outer.length ≤ state'.outer.length := by
  by_cases hspace : state.flags.extended = true ∧ (isSpace c = true ∨ c = '#')
  · exact Nat.le_of_eq (congrArg (·.outer.length) (eq_of_step_space hspace h).symm)
  · by_cases hopening : c = '('
    · subst hopening
      rw [step_opening] at h
      rcases outer_of_readOpening h with houter | ⟨houter, -⟩
      · rw [houter, List.length_cons]
        exact Nat.le_succ _
      · exact Nat.le_of_eq (congrArg _ houter.symm)
    · rw [step_eq_readEffect hspace hopening hclosing] at h
      obtain ⟨⟨effect, left'⟩, -, h⟩ := except_bind_ok h
      obtain ⟨state'', happly, h⟩ := except_bind_ok h
      cases h
      exact Nat.le_of_eq (congrArg (·.outer.length) (eq_within_of_apply happly)).symm

theorem outer_le_read {state state' : ParserState} {taken : Nat} {cs : List Char}
    (h : state.read taken cs = .ok state') (hclosing : ')' ∉ cs) :
    state.outer.length ≤ state'.outer.length := by
  induction cs generalizing state taken with
  | nil =>
    rw [ParserState.read] at h
    cases h
    exact Nat.le_refl _
  | cons c cs ih =>
    have hmore : ')' ∉ cs := fun hmem => hclosing (List.mem_cons_of_mem _ hmem)
    cases taken with
    | succ taken => exact ih h hmore
    | zero =>
      have hc : c ≠ ')' := fun hc => hclosing (hc ▸ List.mem_cons_self)
      rw [ParserState.read_cons] at h
      split at h
      · cases h
      · next state₁ left hstep => exact Nat.le_trans (outer_le_step hstep hc) (ih h hmore)

/-- A level that is opened before a text without a closing parenthesis is still open after it. -/
theorem ne_opening_of_read {state state₁ state' : ParserState} {c : Char} {taken : Nat}
    {cs left : List Char} (hextended : state.flags.extended = false) (hclosing : ')' ∉ cs)
    (hstep : state.step c cs = .ok (state₁, left)) (h : state₁.read taken cs = .ok state')
    (houter : state'.outer.length ≤ state.outer.length) : c ≠ '(' := by
  rintro rfl
  rw [step_opening] at hstep
  rcases outer_of_readOpening hstep with hlevel | ⟨-, hmem⟩
  · have hgrown := outer_le_read h hclosing
    rw [hlevel, List.length_cons] at hgrown
    omega
  · rw [hextended, skip_false] at hmem
    exact hclosing hmem

end ParserState

open ParserState

variable {ic : Bool}

/-- What is read of a text that is an expression on its own. -/
theorem read_of_parse {text : List Char} {e : Expr} (h : parse flags text = .ok e) :
    ∃ state, (ParserState.initial flags).read 0 text = .ok state ∧ state.outer = [] ∧
      state.level.close.expr = e := by
  obtain ⟨state, hread, h⟩ := except_bind_ok h
  refine ⟨state, hread, ?_⟩
  split at h
  · cases h
  · next houter =>
    simp only at h
    split at h
    · cases h
    · cases h
      exact ⟨houter, rfl⟩

/-- What an anchored text is the written form of. -/
theorem eq_of_parse_anchored {text : List Char} {nodes : Nat → List Node} {count : Nat} {e : Expr}
    (hreads : ReadsAs ic text nodes count)
    (h : parse (textFlags ic) (['^', '(', '?', ':'] ++ text ++ [')', '$']) = .ok e) :
    e = anchoredExpr (.seqs ((nodes 0).map (·.expr))) := by
  obtain ⟨state, hread, -, hclose⟩ := read_anchored hreads
  obtain ⟨state', hread', -, rfl⟩ := read_of_parse h
  rw [hread] at hread'
  cases hread'
  rw [hclose]

/-- An expression does not start with a repetition. -/
theorem head?_of_parse {text : List Char} {e : Expr} (h : parse (textFlags ic) text = .ok e) :
    text.head? ≠ some '?' := by
  intro hmark
  obtain ⟨text, rfl⟩ := List.head?_eq_some_iff.mp hmark
  obtain ⟨state, hread, -⟩ := read_of_parse h
  cases hread

end RequestRouter.Regex
