/-
  RequestRouter/Proofs/Regex/Nesting.lean
  =======================================
  **A text that is an expression on its own is one group when it is put into parentheses.**

  A text whose groups leave the flags as they are is read the same before a closing parenthesis or a
  letter as at the end (`read_carries`).  Read inside other levels it does the same to the levels that
  it opens: the outermost level of the text is then the innermost one around it, and the groups of the
  text are counted behind those that came before (`ParserState.inside`, `read_inside`).  So the text
  in parentheses is a group of the same expression, with the groups in it under later indices
  (`readsItem_body`).  A text without a closing parenthesis opens no group, whatever it looks like.
-/
import RequestRouter.Proofs.Regex.Grouping
import RequestRouter.Proofs.Regex.Whole

namespace RequestRouter.Regex

open RequestRouter.Unicode

/-! ### Openings -/

/-- Whether what follows an opening parenthesis leaves the flags as they are: after a question mark
    only a plain or a named group may come. -/
def plainOpening : List Char → Bool
  | '?' :: c :: _ => c ∈ [':', 'P', '<']
  | _ => true

/-- Whether no group of the text changes the flags. -/
def keepsFlags : List Char → Bool
  | [] => true
  | c :: rest => (c != '(' || plainOpening rest) && keepsFlags rest

/-- Whether what follows an opening parenthesis begins a group without a name and leaves the flags as
    they are. -/
def bareOpening : List Char → Bool
  | '?' :: ':' :: _ => true
  | '?' :: _ => false
  | _ => true

/-- Whether no group of the text has a name or changes the flags. -/
def bareGroups : List Char → Bool
  | [] => true
  | c :: rest => (c != '(' || bareOpening rest) && bareGroups rest

theorem bareGroups_cons {c : Char} {cs : List Char} (h : bareGroups (c :: cs) = true) :
    (c = '(' → bareOpening cs = true) ∧ bareGroups cs = true := by
  rw [bareGroups, Bool.and_eq_true] at h
  refine ⟨?_, h.2⟩
  rintro rfl
  simpa using h.1

theorem bareOpening_cases {cs : List Char} (h : bareOpening cs = true) :
    (∃ left, cs = '?' :: ':' :: left) ∨ cs.head? ≠ some '?' := by
  unfold bareOpening at h
  split at h
  · exact .inl ⟨_, rfl⟩
  · cases h
  · next hmark =>
    refine .inr fun hhead => ?_
    obtain ⟨rest, rfl⟩ := List.head?_eq_some_iff.mp hhead
    exact hmark rest rfl

theorem bareOpening_of_head? {cs : List Char} (h : cs.head? ≠ some '?') : bareOpening cs = true := by
  unfold bareOpening
  split
  · rfl
  · exact absurd rfl h
  · rfl

theorem bareOpening_append {cs : List Char} (h : bareOpening cs = true) {stop : Char}
    (hstop : stop ≠ '?') (more : List Char) : bareOpening (cs ++ stop :: more) = true := by
  rcases bareOpening_cases h with ⟨left, rfl⟩ | hhead
  · rfl
  · apply bareOpening_of_head?
    cases cs with
    | nil => simpa using hstop
    | cons c cs => exact hhead

theorem plainOpening_of_bareOpening {cs : List Char} (h : bareOpening cs = true) :
    plainOpening cs = true := by
  rcases bareOpening_cases h with ⟨left, rfl⟩ | hhead
  · rfl
  · unfold plainOpening
    split
    · exact absurd rfl hhead
    · rfl

/-! ### Parts of a text -/

namespace ParserState

variable {flags : Flags} {s t : ParserState} {stop : Char} {more : List Char}

/-- The flags hold now and hold again behind every group that is open. -/
structure Steady (flags : Flags) (s : ParserState) : Prop where
  now : s.flags = flags
  level : s.level.outerFlags = flags
  outer : ∀ l ∈ s.outer, l.outerFlags = flags

theorem steady_initial : (initial flags).Steady flags :=
  ⟨rfl, rfl, fun _ hl => nomatch hl⟩

theorem Steady.openGroup (hs : s.Steady flags) (kind : GroupKind) :
    (s.openGroup kind s.flags).Steady flags := by
  refine ⟨hs.now, hs.now, ?_⟩
  intro l hl
  rcases List.mem_cons.mp hl with rfl | hl
  · exact hs.level
  · exact hs.outer l hl

theorem Steady.openKeeping (hs : s.Steady flags) : s.openKeeping.Steady flags :=
  have hopen := hs.openGroup (.keeping (s.groups + 1))
  ⟨hopen.now, hopen.level, hopen.outer⟩

theorem Steady.closeGroup (hs : s.Steady flags) (ht : s.closeGroup = .ok t) :
    t.Steady flags := by
  unfold ParserState.closeGroup at ht
  split at ht
  · cases ht
  · next l outer houter =>
    have hlevels := hs.outer
    rw [houter, List.forall_mem_cons] at hlevels
    cases ht
    exact ⟨hs.level, hlevels.1, hlevels.2⟩

theorem Steady.apply (hs : s.Steady flags) {effect : Effect} (ht : effect.apply s = .ok t) :
    t.Steady flags := by
  rw [eq_within_of_apply ht]
  exact ⟨hs.now, hs.level, hs.outer⟩

theorem readGroupName_carries : Carries stop more readGroupName := by
  intro cs name left h
  unfold readGroupName at h ⊢
  cases htail : cs.dropWhile (· != '>') with
  | nil =>
    rw [htail] at h
    cases h
  | cons d tail =>
    have hrun := @takeWhile_carries stop more (· != '>') cs (.inl (by simp [htail]))
    rw [htail] at h
    rw [hrun.1, hrun.2, htail, List.cons_append]
    generalize cs.takeWhile (· != '>') = name' at h ⊢
    cases name' with
    | nil => cases h
    | cons c name' =>
      simp only at h ⊢
      split at h
      · next hname =>
        cases h
        rw [if_pos hname]
      · cases h

/-- A named group is opened by the text up to the end of its name. -/
theorem openNamed_carries (hs : s.Steady flags) {cs left : List Char}
    (h : s.openNamed cs = .ok (t, left)) :
    s.openNamed (cs ++ stop :: more) = .ok (t, left ++ stop :: more) ∧ t.Steady flags := by
  obtain ⟨⟨name, left'⟩, hname, h⟩ := except_bind_ok h
  simp only at h
  split at h
  · cases h
  · next hnew =>
    cases h
    have hopen := hs.openKeeping
    refine ⟨?_, hopen.now, hopen.level, hopen.outer⟩
    unfold ParserState.openNamed
    rw [readGroupName_carries hname]
    exact if_neg hnew

theorem readOpening_angle (hextended : s.flags.extended = false) {c : Char} {rest : List Char}
    (heq : c ≠ '=') (hbang : c ≠ '!') :
    s.readOpening ('?' :: '<' :: c :: rest) = s.openNamed (c :: rest) := by
  unfold ParserState.readOpening
  rw [hextended, skip_false]
  split
  case h_7 hangle hcs =>
    obtain rfl := (List.cons.inj hcs).2
    exact absurd rfl (hangle _)
  all_goals simp_all

/-- What an opening parenthesis does if it leaves the flags as they are. -/
theorem readOpening_cases (hextended : s.flags.extended = false) {cs left : List Char}
    (hplain : plainOpening cs = true) (h : s.readOpening cs = .ok (t, left)) :
    (∃ rest, cs = '?' :: 'P' :: '<' :: rest ∧ s.openNamed rest = .ok (t, left)) ∨
      (∃ c rest, cs = '?' :: '<' :: c :: rest ∧ c ≠ '=' ∧ c ≠ '!' ∧
        s.openNamed (c :: rest) = .ok (t, left)) ∨
      (cs = '?' :: ':' :: left ∧ t = s.openGroup .plain s.flags) ∨
      (cs.head? ≠ some '?' ∧ cs = left ∧ t = s.openKeeping) := by
  unfold ParserState.readOpening at h
  rw [hextended, skip_false] at h
  split at h
  · next rest => exact .inl ⟨rest, rfl, h⟩
  · cases h
  · cases h
  · cases h
  · cases h
  · next rest heq hbang =>
    cases rest with
    | nil => cases h
    | cons c rest =>
      refine .inr (.inl ⟨c, rest, rfl, ?_, ?_, h⟩)
      · exact fun hc => heq rest (hc ▸ rfl)
      · exact fun hc => hbang rest (hc ▸ rfl)
  · next rest hnamed _ _ _ _ hangle =>
    cases rest with
    | nil => cases h
    | cons c rest =>
      have hc : c = ':' ∨ c = 'P' ∨ c = '<' := by simpa [plainOpening] using hplain
      rcases hc with rfl | rfl | rfl
      · cases h
        exact .inr (.inr (.inl ⟨rfl, rfl⟩))
      · cases h
      · exact absurd rfl (hangle rest)
  · next hmark =>
    cases h
    refine .inr (.inr (.inr ⟨?_, rfl, rfl⟩))
    intro hhead
    obtain ⟨rest, rfl⟩ := List.head?_eq_some_iff.mp hhead
    exact hmark rest rfl

theorem readOpening_carries (hstop : Unnoticed stop) (hs : s.Steady flags)
    (hextended : flags.extended = false) {cs left : List Char} (hplain : plainOpening cs = true)
    (h : s.readOpening cs = .ok (t, left)) :
    s.readOpening (cs ++ stop :: more) = .ok (t, left ++ stop :: more) ∧ t.Steady flags := by
  have hextended' : s.flags.extended = false := hs.now ▸ hextended
  have hskip : ∀ cs, skip s.flags.extended cs = cs := by
    intro cs
    rw [hextended']
    rfl
  have hcarries : ∀ {rest}, s.openNamed rest = .ok (t, left) →
      s.openNamed (rest ++ stop :: more) = .ok (t, left ++ stop :: more) ∧ t.Steady flags :=
    fun h => openNamed_carries hs h
  rcases readOpening_cases hextended' hplain h with
    ⟨rest, rfl, hnamed⟩ | ⟨c, rest, rfl, heq, hbang, hnamed⟩ | ⟨rfl, rfl⟩ | ⟨hhead, rfl, rfl⟩
  · obtain ⟨hnamed', ht⟩ := hcarries hnamed
    refine ⟨?_, ht⟩
    unfold ParserState.readOpening
    rw [hskip]
    exact hnamed'
  · obtain ⟨hnamed', ht⟩ := hcarries hnamed
    refine ⟨?_, ht⟩
    rw [List.cons_append, List.cons_append, List.cons_append, readOpening_angle hextended' heq hbang]
    exact hnamed'
  · refine ⟨?_, hs.openGroup .plain⟩
    unfold ParserState.readOpening
    rw [hskip]
    rfl
  · refine ⟨?_, hs.openKeeping⟩
    apply readOpening_of_ne hextended'
    cases cs with
    | nil =>
      intro heq
      cases heq
      exact hstop.facts.marks (by simp)
    | cons c cs => exact hhead

/-- An item is the same before a closing parenthesis or a letter. -/
theorem step_carries (hstop : Unnoticed stop) (hs : s.Steady flags)
    (hextended : flags.extended = false) {c : Char} {rest left : List Char}
    (hplain : c = '(' → plainOpening rest = true) (h : s.step c rest = .ok (t, left)) :
    s.step c (rest ++ stop :: more) = .ok (t, left ++ stop :: more) ∧ t.Steady flags := by
  by_cases hopening : c = '('
  · subst hopening
    rw [step_opening] at h ⊢
    exact readOpening_carries hstop hs hextended (hplain rfl) h
  by_cases hclosing : c = ')'
  · subst hclosing
    rw [step_closing] at h ⊢
    obtain ⟨t', hclose, h⟩ := except_bind_ok h
    cases h
    refine ⟨?_, hs.closeGroup hclose⟩
    rw [hclose]
    rfl
  · have hspace : ∀ b, ¬ (s.flags.extended = true ∧ b) := by
      rw [hs.now, hextended]
      simp
    rw [step_eq_readEffect (hspace _) hopening hclosing] at h ⊢
    obtain ⟨⟨effect, left'⟩, heffect, h⟩ := except_bind_ok h
    obtain ⟨t', happly, h⟩ := except_bind_ok h
    cases h
    refine ⟨?_, hs.apply happly⟩
    rw [readEffect_carries hstop (hs.now ▸ hextended) heffect]
    simp only [bind, Except.bind, happly]

/-- **A whole text is read before a closing parenthesis or a letter as it is read alone.** -/
theorem read_carries (hstop : Unnoticed stop) (hs : s.Steady flags)
    (hextended : flags.extended = false) {taken : Nat} {cs : List Char} (htaken : taken ≤ cs.length)
    (hplain : keepsFlags cs = true) (h : s.read taken cs = .ok t) :
    s.read taken (cs ++ stop :: more) = t.read 0 (stop :: more) ∧ t.Steady flags := by
  induction cs generalizing s taken with
  | nil =>
    obtain rfl := Nat.le_zero.mp htaken
    rw [ParserState.read] at h
    cases h
    exact ⟨rfl, hs⟩
  | cons c cs ih =>
    rw [keepsFlags, Bool.and_eq_true] at hplain
    obtain ⟨hfirst, hmore⟩ := hplain
    have hopening : c = '(' → plainOpening cs = true := by
      rintro rfl
      simpa using hfirst
    cases taken with
    | succ taken => exact ih hs (Nat.le_of_succ_le_succ htaken) hmore h
    | zero =>
      rw [ParserState.read_cons] at h
      split at h
      · cases h
      · next s₁ left hstep =>
        obtain ⟨hstep', hs₁⟩ := @step_carries _ _ _ stop more hstop hs hextended _ _ _ hopening hstep
        obtain ⟨hread, ht⟩ := ih hs₁ (Nat.sub_le _ _) hmore h
        refine ⟨?_, ht⟩
        rw [List.cons_append, ParserState.read_cons, hstep']
        simp only [List.length_append, Nat.add_sub_add_right]
        exact hread

end ParserState

/-! ### Later groups -/

namespace Expr

/-- The expression with its groups behind `n` others. -/
def moved (n : Nat) : Expr → Expr
  | .empty => .empty
  | .one set => .one set
  | .look a => .look a
  | .group index e => .group (n + index) (e.moved n)
  | .seq a b => .seq (a.moved n) (b.moved n)
  | .alt a b => .alt (a.moved n) (b.moved n)
  | .rounds e least most greedy => .rounds (e.moved n) least most greedy

theorem regrouped_moved (e : Expr) (n : Nat) : e.Regrouped (e.moved n) := by
  induction e with
  | empty => exact .empty
  | one set => exact .one set
  | look a => exact .look a
  | group index e ih => exact .group index (n + index) ih
  | seq a b iha ihb => exact .seq iha ihb
  | alt a b iha ihb => exact .alt iha ihb
  | rounds e least most greedy ih => exact .rounds least most greedy ih

theorem IsSingle.moved {e : Expr} (h : e.IsSingle) (n : Nat) : e.moved n = e := by
  rcases h with ⟨set, rfl⟩ | ⟨a, rfl⟩ <;> rfl

@[simp] theorem readsNothing_moved (n : Nat) (e : Expr) :
    (e.moved n).readsNothing = e.readsNothing := by
  induction e with
  | empty => rfl
  | one set => rfl
  | look a => rfl
  | group index e ih => exact ih
  | seq a b iha ihb => rw [Expr.moved, Expr.readsNothing, Expr.readsNothing, iha, ihb]
  | alt a b iha ihb => rw [Expr.moved, Expr.readsNothing, Expr.readsNothing, iha, ihb]
  | rounds e least most greedy ih => exact ih

theorem moved_repeated (n : Nat) (e : Expr) (least : Nat) (most : Option Nat) (greedy : Bool) :
    (e.repeated least most greedy).moved n = (e.moved n).repeated least most greedy := by
  unfold Expr.repeated
  rw [readsNothing_moved]
  split
  · rfl
  · split <;> rfl

theorem moved_foldl {f : Expr → Expr → Expr} (n : Nat)
    (hf : ∀ a b, (f a b).moved n = f (a.moved n) (b.moved n)) (es : List Expr) (e : Expr) :
    (es.foldl f e).moved n = (es.map (Expr.moved n)).foldl f (e.moved n) := by
  induction es generalizing e with
  | nil => rfl
  | cons d es ih => rw [List.foldl_cons, ih, hf, List.map_cons, List.foldl_cons]

theorem moved_seqs (n : Nat) (es : List Expr) :
    (Expr.seqs es).moved n = .seqs (es.map (Expr.moved n)) := by
  cases es with
  | nil => rfl
  | cons e es => exact @moved_foldl .seq n (fun _ _ => rfl) es e

theorem moved_alts (n : Nat) (es : List Expr) :
    (Expr.alts es).moved n = .alts (es.map (Expr.moved n)) := by
  cases es with
  | nil => rfl
  | cons e es => exact @moved_foldl .alt n (fun _ _ => rfl) es e

end Expr

def Node.moved (n : Nat) (node : Node) : Node := ⟨node.expr.moved n, node.depth⟩

def GroupKind.moved (n : Nat) : GroupKind → GroupKind
  | .keeping index => .keeping (n + index)
  | .plain => .plain

def Level.moved (n : Nat) (level : Level) : Level where
  kind := level.kind.moved n
  outerFlags := level.outerFlags
  branches := level.branches.map (Node.moved n)
  items := level.items.map (Option.map (Node.moved n))

/-- Expressions read one after the other, or one of which is read, are moved one by one. -/
theorem moved_nodes {f : List Expr → Expr} {n : Nat}
    (hf : ∀ es, (f es).moved n = f (es.map (Expr.moved n))) (nodes : List Node) :
    (⟨f (nodes.map (·.expr)), 1 + (nodes.map (·.depth)).foldl max 0⟩ : Node).moved n =
      ⟨f ((nodes.map (Node.moved n)).map (·.expr)),
        1 + ((nodes.map (Node.moved n)).map (·.depth)).foldl max 0⟩ := by
  rw [Node.moved, hf, List.map_map, List.map_map, List.map_map]
  rfl

theorem moved_sequence (n : Nat) (items : List (Option Node)) :
    (sequence items).moved n = sequence (items.map (Option.map (Node.moved n))) := by
  rcases items with _ | ⟨item, _ | ⟨item', items⟩⟩
  · rfl
  · cases item <;> rfl
  · have hfilter : ∀ all : List (Option Node),
        (all.map (Option.map (Node.moved n))).filterMap id = (all.filterMap id).map (Node.moved n) := by
      intro all
      rw [List.filterMap_map, List.map_filterMap]
      rfl
    rw [sequence_cons_cons, moved_nodes (Expr.moved_seqs n), List.map_cons, List.map_cons,
      sequence_cons_cons, ← List.map_cons, ← List.map_cons, ← List.map_reverse, hfilter]

theorem moved_close (n : Nat) (level : Level) :
    level.close.moved n = (level.moved n).close := by
  unfold Level.close
  have hlast := moved_sequence n level.items
  cases hbranches : level.branches with
  | nil =>
    simp only [Level.moved, hbranches, List.map_nil]
    exact hlast
  | cons node nodes =>
    simp only [Level.moved, hbranches, List.map_cons]
    rw [moved_nodes (Expr.moved_alts n), List.map_append, List.map_reverse, List.map_singleton, hlast]
    rfl

/-! ### Levels around a text -/

namespace ParserState

variable {flags : Flags} {frame s t : ParserState} {stop : Char} {more : List Char}

/-- The levels of a text inside those of `frame`: the outermost one is made one with the innermost one
    of `frame`. -/
def levelsInside (frame : ParserState) (level : Level) : List Level → Level × List Level
  | [] => ({ frame.level with
      branches := (level.moved frame.groups).branches
      items := (level.moved frame.groups).items }, frame.outer)
  | outer :: more =>
    (level.moved frame.groups, (levelsInside frame outer more).1 :: (levelsInside frame outer more).2)

/-- What has been read of a text without named groups, inside the levels of `frame` and with the groups
    of the text behind those of `frame`. -/
def inside (frame s : ParserState) : ParserState where
  flags := s.flags
  level := (levelsInside frame s.level s.outer).1
  outer := (levelsInside frame s.level s.outer).2
  groups := frame.groups + s.groups
  names := frame.names

@[simp] theorem flags_inside : (frame.inside s).flags = s.flags := rfl

theorem items_inside :
    (frame.inside s).level.items = s.level.items.map (Option.map (Node.moved frame.groups)) := by
  obtain ⟨flags, level, _ | ⟨outer, more⟩, groups, names⟩ := s <;> rfl

theorem inside_add (item : Option Node) :
    frame.inside (s.add item) = (frame.inside s).add (item.map (Node.moved frame.groups)) := by
  obtain ⟨flags, level, _ | ⟨outer, more⟩, groups, names⟩ := s <;> rfl

theorem inside_nextBranch : frame.inside s.nextBranch = (frame.inside s).nextBranch := by
  have hsequence := moved_sequence frame.groups s.level.items
  obtain ⟨flags, level, _ | ⟨outer, more⟩, groups, names⟩ := s
  · simp only [inside, levelsInside, nextBranch, Level.moved, List.map_cons, List.map_nil]
    rw [hsequence]
  · simp only [inside, levelsInside, nextBranch, Level.moved, List.map_cons, List.map_nil]
    rw [hsequence]

theorem repeatLast_inside {least : Nat} {most : Option Nat} {greedy : Bool}
    (h : s.repeatLast least most greedy = .ok t) :
    (frame.inside s).repeatLast least most greedy = .ok (frame.inside t) := by
  unfold ParserState.repeatLast at h ⊢
  rw [items_inside]
  split at h
  · next node items hitems =>
    cases h
    rw [hitems]
    obtain ⟨flags, level, _ | ⟨outer, more⟩, groups, names⟩ := s
    · simp [inside, levelsInside, Level.moved, Node.moved, Expr.moved_repeated]
    · simp [inside, levelsInside, Level.moved, Node.moved, Expr.moved_repeated]
  · cases h

theorem closeGroup_inside (h : s.closeGroup = .ok t) :
    (frame.inside s).closeGroup = .ok (frame.inside t) := by
  unfold ParserState.closeGroup at h
  split at h
  · cases h
  · next level outer houter =>
    cases h
    have hclose := moved_close frame.groups s.level
    rw [inside_add]
    obtain ⟨flags, ⟨kind, outerFlags, branches, items⟩, _, groups, names⟩ := s
    subst houter
    unfold ParserState.closeGroup
    simp only [inside, levelsInside]
    rw [← hclose]
    cases kind with
    | keeping index => rfl
    | plain => rfl

theorem apply_inside {effect : Effect} (hsingle : ∀ node, effect = .add node → node.expr.IsSingle)
    (h : effect.apply s = .ok t) : effect.apply (frame.inside s) = .ok (frame.inside t) := by
  cases effect with
  | add node =>
    cases h
    have hmoved : node.moved frame.groups = node := by
      rw [Node.moved, (hsingle node rfl).moved]
    rw [inside_add, Option.map_some, hmoved]
    rfl
  | nextBranch =>
    cases h
    exact congrArg Except.ok inside_nextBranch.symm
  | repeatLast least most greedy => exact repeatLast_inside h

theorem readOpening_colon (hextended : s.flags.extended = false) (left : List Char) :
    s.readOpening ('?' :: ':' :: left) = .ok (s.openGroup .plain s.flags, left) := by
  unfold ParserState.readOpening
  rw [hextended, skip_false]
  rfl

/-- An item does the same inside other levels. -/
theorem step_inside (hextended : s.flags.extended = false) {c : Char} {rest left : List Char}
    (hbare : c = '(' → bareOpening rest = true) (h : s.step c rest = .ok (t, left)) :
    (frame.inside s).step c rest = .ok (frame.inside t, left) := by
  by_cases hopening : c = '('
  · subst hopening
    rw [step_opening] at h ⊢
    have hextended' : (frame.inside s).flags.extended = false := hextended
    rcases bareOpening_cases (hbare rfl) with ⟨left', rfl⟩ | hhead
    · rw [readOpening_colon hextended] at h
      cases h
      exact readOpening_colon hextended' left
    · rw [readOpening_of_ne hextended hhead] at h
      cases h
      exact readOpening_of_ne hextended' hhead
  by_cases hclosing : c = ')'
  · subst hclosing
    rw [step_closing] at h ⊢
    obtain ⟨t', hclose, h⟩ := except_bind_ok h
    cases h
    rw [closeGroup_inside hclose]
    rfl
  · have hspace : ∀ b, ¬ (s.flags.extended = true ∧ b) := by
      rw [hextended]
      simp
    rw [step_eq_readEffect (hspace _) hopening hclosing] at h
    obtain ⟨⟨effect, left'⟩, heffect, h⟩ := except_bind_ok h
    obtain ⟨t', happly, h⟩ := except_bind_ok h
    cases h
    have happly : effect.apply (frame.inside s) = .ok (frame.inside t) := by
      apply apply_inside _ happly
      rintro node rfl
      exact single_of_readEffect heffect
    have hspace' : ∀ b, ¬ ((frame.inside s).flags.extended = true ∧ b) := hspace
    rw [step_eq_readEffect (hspace' _) hopening hclosing, flags_inside, heffect]
    simp only [bind, Except.bind, happly]

/-- Whether the text opens bare groups only: none of its groups has a name or changes the flags, or
    no level can be closed in it. -/
def OpensBare (s t : ParserState) (cs : List Char) : Prop :=
  bareGroups cs = true ∨ ')' ∉ cs ∧ t.outer.length ≤ s.outer.length

namespace OpensBare

variable {c : Char} {cs left : List Char}

theorem tail (h : OpensBare s t (c :: cs)) : OpensBare s t cs :=
  h.imp (fun hbare => (bareGroups_cons hbare).2)
    fun hclosing => ⟨fun hmem => hclosing.1 (List.mem_cons_of_mem _ hmem), hclosing.2⟩

/-- A parenthesis that is read opens a bare group. -/
theorem opening {s₁ : ParserState} {taken : Nat} (h : OpensBare s t (c :: cs))
    (hextended : s.flags.extended = false) (hstep : s.step c cs = .ok (s₁, left))
    (hread : s₁.read taken cs = .ok t) : c = '(' → bareOpening cs = true := by
  rcases h with hbare | ⟨hclosing, houter⟩
  · exact (bareGroups_cons hbare).1
  · have hmore : ')' ∉ cs := fun hmem => hclosing (List.mem_cons_of_mem _ hmem)
    exact fun hc => absurd hc (ne_opening_of_read hextended hmore hstep hread houter)

theorem step {s₁ : ParserState} (h : OpensBare s t (c :: cs)) (hstep : s.step c cs = .ok (s₁, left)) :
    OpensBare s₁ t cs := by
  rcases h with hbare | ⟨hclosing, houter⟩
  · exact .inl (bareGroups_cons hbare).2
  · have hc : c ≠ ')' := fun hc => hclosing (hc ▸ List.mem_cons_self)
    exact .inr ⟨fun hmem => hclosing (List.mem_cons_of_mem _ hmem),
      houter.trans (outer_le_step hstep hc)⟩

end OpensBare

/-- **A text is read inside other levels, before a closing parenthesis or a letter, as it is read
    alone.** -/
theorem read_inside (hstop : Unnoticed stop) (hs : s.Steady flags) (hextended : flags.extended = false)
    {taken : Nat} {cs : List Char} (htaken : taken ≤ cs.length) (hbare : OpensBare s t cs)
    (h : s.read taken cs = .ok t) :
    (frame.inside s).read taken (cs ++ stop :: more) = (frame.inside t).read 0 (stop :: more) := by
  have hmark : stop ≠ '?' := by
    rintro rfl
    exact hstop.facts.marks (by simp)
  induction cs generalizing s taken with
  | nil =>
    obtain rfl := Nat.le_zero.mp htaken
    rw [ParserState.read] at h
    cases h
    rfl
  | cons c cs ih =>
    cases taken with
    | succ taken => exact ih hs (Nat.le_of_succ_le_succ htaken) hbare.tail h
    | zero =>
      rw [ParserState.read_cons] at h
      split at h
      · cases h
      · next s₁ left hstep =>
        have hextended' : s.flags.extended = false := hs.now ▸ hextended
        have hopening := hbare.opening hextended' hstep h
        obtain ⟨hcarried, hs₁⟩ := @step_carries _ _ _ stop more hstop hs hextended _ _ _
          (fun hc => plainOpening_of_bareOpening (hopening hc)) hstep
        have hinside : (frame.inside s).step c (cs ++ stop :: more) =
            .ok (frame.inside s₁, left ++ stop :: more) :=
          step_inside hextended' (fun hc => bareOpening_append (hopening hc) hmark more) hcarried
        have hread := ih hs₁ (Nat.sub_le _ _) (hbare.step hstep) h
        rw [List.cons_append, ParserState.read_cons, hinside]
        simp only [List.length_append, Nat.add_sub_add_right]
        exact hread

/-- A group begun around a text is ended behind it. -/
theorem closeGroup_openKeeping {state inner : ParserState} (houter : inner.outer = []) :
    (state.openKeeping.inside inner).closeGroup =
      .ok (state.push [⟨.group (state.groups + 1) (inner.level.close.expr.moved (state.groups + 1)),
        1 + inner.level.close.depth⟩] (1 + inner.groups)) := by
  have hclose := moved_close (state.groups + 1) inner.level
  obtain ⟨flags, level, outer, groups, names⟩ := inner
  subst houter
  change _ = Except.ok (ParserState.push state [⟨.group (state.groups + 1)
    (level.close.moved (state.groups + 1)).expr, 1 + (level.close.moved (state.groups + 1)).depth⟩] _)
  rw [hclose, push, ← Nat.add_assoc]
  rfl

end ParserState

open ParserState

variable {ic : Bool}

/-- **An expression whose groups are bare is one group when it is put into parentheses**, and so is one
    without a closing parenthesis. -/
theorem readsItem_body {body : List Char} {e : Expr} (h : parse (textFlags ic) body = .ok e)
    (hbare : bareGroups body = true ∨ ')' ∉ body) :
    ∃ depth count, ReadsItem ic ('(' :: (body ++ [')']))
      (fun g => ⟨.group (g + 1) (e.moved (g + 1)), depth⟩) count := by
  obtain ⟨inner, hread, houter, hexpr⟩ := read_of_parse h
  refine ⟨1 + inner.level.close.depth, 1 + inner.groups, ?_⟩
  intro state rest hflags
  have hhead : (body ++ ')' :: rest).head? ≠ some '?' := by
    have hmark := head?_of_parse h
    cases body with
    | nil => simp
    | cons c body => exact hmark
  have hopen : state.step '(' ([] ++ (body ++ ')' :: rest)) =
      .ok (state.openKeeping, body ++ ')' :: rest) :=
    (step_opening _ _).trans (readOpening_of_ne (by rw [hflags]; rfl) hhead)
  have hframe : state.openKeeping.inside (.initial (textFlags ic)) = state.openKeeping := by
    rw [← hflags]
    rfl
  have hbody : state.openKeeping.read 0 (body ++ ')' :: rest) =
      (state.openKeeping.inside inner).read 0 (')' :: rest) := by
    have hinside := @read_inside _ state.openKeeping _ _ _ rest (.inl rfl) steady_initial rfl _ _
      (Nat.zero_le _) (hbare.imp_right fun hclosing => ⟨hclosing, by rw [houter]; exact Nat.zero_le _⟩)
      hread
    rwa [hframe] at hinside
  have hclose : (state.openKeeping.inside inner).step ')' ([] ++ rest) =
      .ok (state.push [⟨.group (state.groups + 1) (e.moved (state.groups + 1)),
        1 + inner.level.close.depth⟩] (1 + inner.groups), rest) := by
    rw [step_closing, closeGroup_openKeeping houter, hexpr]
    rfl
  rw [List.cons_append, List.append_assoc, List.singleton_append]
  refine (read_of_step _ hopen).trans ?_
  rw [hbody]
  exact read_of_step _ hclose

end RequestRouter.Regex
