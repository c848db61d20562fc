/-
  RequestRouter/Proofs/Regex/Alike.lean
  =====================================
  **Expressions that differ only in how their sets are written.**

  Matching asks a set which characters it holds and nothing else, so two expressions of one structure
  whose sets hold the same characters find the same matches (`Expr.Alike.find`).  The reader asks even
  less of what it has read: whether an item can be repeated, whether a group is open.  From states
  that are alike it goes the same way through a text (`read_alike`), and what it makes of the text is
  alike again.
-/
import Mathlib.Data.List.Forall2
import RequestRouter.Proofs.Regex.Grouping
import RequestRouter.Regex.Match

namespace RequestRouter.Regex

open RequestRouter.Unicode

/-- The sets hold the same characters. -/
structure CharSet.Same (a b : CharSet) : Prop where
  contains : ∀ c, a.contains c = b.contains c

/-! ### Expressions -/

namespace Expr

/-- Expressions of one structure whose sets are the same. -/
inductive Alike : Expr → Expr → Prop where
  | empty : Alike .empty .empty
  | one {a b : CharSet} (h : a.Same b) : Alike (.one a) (.one b)
  | look (a : Assertion) : Alike (.look a) (.look a)
  | group (index : Nat) {a b : Expr} (h : Alike a b) : Alike (.group index a) (.group index b)
  | seq {a b c d : Expr} (h : Alike a b) (h' : Alike c d) : Alike (.seq a c) (.seq b d)
  | alt {a b c d : Expr} (h : Alike a b) (h' : Alike c d) : Alike (.alt a c) (.alt b d)
  | rounds {a b : Expr} (h : Alike a b) (least : Nat) (most : Option Nat) (greedy : Bool) :
      Alike (.rounds a least most greedy) (.rounds b least most greedy)

theorem Alike.refl (e : Expr) : e.Alike e := by
  induction e with
  | empty => exact .empty
  | one set => exact .one ⟨fun _ => rfl⟩
  | look a => exact .look a
  | group index e ih => exact .group index ih
  | seq a b iha ihb => exact .seq iha ihb
  | alt a b iha ihb => exact .alt iha ihb
  | rounds e least most greedy ih => exact .rounds ih least most greedy

variable {e e' : Expr}

theorem Alike.readsNothing (h : e.Alike e') : e.readsNothing = e'.readsNothing := by
  induction h with
  | empty => rfl
  | one h => rfl
  | look a => rfl
  | group index h ih => exact ih
  | seq h h' ih ih' => rw [Expr.readsNothing, Expr.readsNothing, ih, ih']
  | alt h h' ih ih' => rw [Expr.readsNothing, Expr.readsNothing, ih, ih']
  | rounds h least most greedy ih => exact ih

/-- Expressions that are alike reach the same places in the same order. -/
theorem Alike.ends (h : e.Alike e') : e.ends = e'.ends := by
  induction h with
  | empty => rfl
  | one h =>
    funext p
    simp only [Expr.ends, Cursor.step?, h.contains]
  | look a => rfl
  | group index h ih =>
    funext p
    simp only [Expr.ends, ih]
  | seq h h' ih ih' =>
    funext p
    simp only [Expr.ends, ih, ih']
  | alt h h' ih ih' =>
    funext p
    simp only [Expr.ends, ih, ih']
  | rounds h least most greedy ih =>
    funext p
    cases most with
    | some most => simp only [Expr.ends, ih]
    | none => cases least <;> simp only [Expr.ends, ih]

/-- **Expressions that are alike find the same matches**, with the same groups. -/
theorem Alike.find (h : e.Alike e') (text : List Char) : e.find text = e'.find text := by
  have hfrom : ∀ before offset, e.findFrom before offset text = e'.findFrom before offset text := by
    induction text with
    | nil =>
      intro before offset
      rw [Expr.findFrom, Expr.findFrom, h.ends]
    | cons c text ih =>
      intro before offset
      rw [Expr.findFrom, Expr.findFrom, h.ends]
      split
      · rfl
      · exact ih (some c) (offset + 1)
  exact hfrom none 0

theorem Alike.repeated (h : e.Alike e') (least : Nat) (most : Option Nat) (greedy : Bool) :
    (e.repeated least most greedy).Alike (e'.repeated least most greedy) := by
  unfold Expr.repeated
  rw [h.readsNothing]
  split
  · exact .empty
  · split
    · exact .rounds h _ _ _
    · exact .rounds h _ _ _

theorem alike_seqs {es es' : List Expr} (h : List.Forall₂ Alike es es') :
    (seqs es).Alike (seqs es') := by
  cases h with
  | nil => exact .empty
  | cons h hmore => exact List.rel_foldl (fun _ _ hacc _ _ he => .seq hacc he) h hmore

theorem alike_alts {es es' : List Expr} (h : List.Forall₂ Alike es es') :
    (alts es).Alike (alts es') := by
  cases h with
  | nil => exact .empty
  | cons h hmore => exact List.rel_foldl (fun _ _ hacc _ _ he => .alt hacc he) h hmore

end Expr

/-! ### What has been read -/

/-- Expressions that are alike, of the same depth. -/
structure Node.Alike (n n' : Node) : Prop where
  expr : n.expr.Alike n'.expr
  depth : n.depth = n'.depth

theorem Node.Alike.refl (n : Node) : n.Alike n := ⟨.refl n.expr, rfl⟩

/-- Items that are alike, one by one. -/
abbrev AlikeItems (items items' : List (Option Node)) : Prop :=
  List.Forall₂ (Option.Rel Node.Alike) items items'

structure Level.Alike (l l' : Level) : Prop where
  kind : l.kind = l'.kind
  outerFlags : l.outerFlags = l'.outerFlags
  branches : List.Forall₂ Node.Alike l.branches l'.branches
  items : AlikeItems l.items l'.items

/-- States that have opened the same groups and read items that are alike. -/
structure ParserState.Alike (s s' : ParserState) : Prop where
  flags : s.flags = s'.flags
  level : s.level.Alike s'.level
  outer : List.Forall₂ Level.Alike s.outer s'.outer
  groups : s.groups = s'.groups
  names : s.names = s'.names

/-- What is made of nodes that are alike, if it is made of their expressions by `f`. -/
theorem alike_nodes {f : List Expr → Expr}
    (hf : ∀ {es es'}, List.Forall₂ Expr.Alike es es' → (f es).Alike (f es')) {ns ns' : List Node}
    (h : List.Forall₂ Node.Alike ns ns') :
    Node.Alike ⟨f (ns.map (·.expr)), 1 + (ns.map (·.depth)).foldl max 0⟩
      ⟨f (ns'.map (·.expr)), 1 + (ns'.map (·.depth)).foldl max 0⟩ := by
  constructor
  · apply hf
    exact List.rel_map (fun _ _ hn => hn.expr) h
  · have hdepths : List.Forall₂ (· = ·) (ns.map (·.depth)) (ns'.map (·.depth)) :=
      List.rel_map (fun _ _ hn => hn.depth) h
    rw [List.forall₂_eq_eq_eq] at hdepths
    rw [hdepths]

theorem alike_sequence {items items' : List (Option Node)} (h : AlikeItems items items') :
    (sequence items).Alike (sequence items') := by
  cases h with
  | nil => exact .refl _
  | @cons a b more more' hitem hmore =>
    cases hmore with
    | nil =>
      cases hitem with
      | some hn => exact hn
      | none => exact .refl _
    | @cons c d more more' hitem' hmore =>
      have hall : AlikeItems (a :: c :: more).reverse (b :: d :: more').reverse :=
        List.rel_reverse (.cons hitem (.cons hitem' hmore))
      rw [sequence_cons_cons, sequence_cons_cons]
      apply alike_nodes Expr.alike_seqs
      exact List.rel_filterMap (fun _ _ hi => hi) hall

theorem Level.Alike.close {l l' : Level} (h : l.Alike l') : l.close.Alike l'.close := by
  have hlast := alike_sequence h.items
  unfold Level.close
  cases hbranches : l.branches with
  | nil =>
    have hnil := h.branches
    rw [hbranches, List.forall₂_nil_left_iff] at hnil
    rw [hnil]
    exact hlast
  | cons n ns =>
    have hcons := h.branches
    rw [hbranches] at hcons
    cases hbranches' : l'.branches with
    | nil =>
      rw [hbranches'] at hcons
      cases hcons
    | cons n' ns' =>
      rw [hbranches'] at hcons
      apply alike_nodes Expr.alike_alts
      exact List.rel_append (List.rel_reverse hcons) (.cons hlast .nil)

/-! ### Steps -/

namespace ParserState

variable {s s' t : ParserState}

theorem Alike.add (h : s.Alike s') {item item' : Option Node}
    (hitem : Option.Rel Node.Alike item item') : (s.add item).Alike (s'.add item') :=
  ⟨h.flags, ⟨h.level.kind, h.level.outerFlags, h.level.branches, .cons hitem h.level.items⟩,
    h.outer, h.groups, h.names⟩

theorem Alike.nextBranch (h : s.Alike s') : s.nextBranch.Alike s'.nextBranch :=
  ⟨h.flags, ⟨h.level.kind, h.level.outerFlags,
    .cons (alike_sequence h.level.items) h.level.branches, .nil⟩, h.outer, h.groups, h.names⟩

theorem Alike.openGroup (h : s.Alike s') (kind : GroupKind) (flags : Flags) :
    (s.openGroup kind flags).Alike (s'.openGroup kind flags) :=
  ⟨rfl, ⟨rfl, h.flags, .nil, .nil⟩, .cons h.level h.outer, h.groups, h.names⟩

theorem Alike.openKeeping (h : s.Alike s') : s.openKeeping.Alike s'.openKeeping := by
  unfold ParserState.openKeeping
  rw [← h.groups, ← h.flags]
  have hopen := h.openGroup (.keeping (s.groups + 1)) s.flags
  exact ⟨hopen.flags, hopen.level, hopen.outer, rfl, hopen.names⟩

theorem Alike.closeGroup (h : s.Alike s') (ht : s.closeGroup = .ok t) :
    ∃ t', s'.closeGroup = .ok t' ∧ t.Alike t' := by
  unfold ParserState.closeGroup at ht ⊢
  cases houter : s.outer with
  | nil =>
    rw [houter] at ht
    cases ht
  | cons l outer =>
    have hcons := h.outer
    rw [houter] at ht hcons
    cases houter' : s'.outer with
    | nil =>
      rw [houter'] at hcons
      cases hcons
    | cons l' outer' =>
      rw [houter'] at hcons
      obtain ⟨hl, hls⟩ := List.forall₂_cons.mp hcons
      cases ht
      refine ⟨_, rfl, ?_⟩
      have houtside : Alike { s with flags := s.level.outerFlags, level := l, outer := outer }
          { s' with flags := s'.level.outerFlags, level := l', outer := outer' } :=
        ⟨h.level.outerFlags, hl, hls, h.groups, h.names⟩
      have hinner := h.level.close
      apply houtside.add
      apply Option.Rel.some
      rw [← h.level.kind]
      cases s.level.kind with
      | keeping index => exact ⟨.group index hinner.expr, congrArg (1 + ·) hinner.depth⟩
      | plain => exact ⟨hinner.expr, congrArg (1 + ·) hinner.depth⟩

theorem Alike.repeatLast (h : s.Alike s') {least : Nat} {most : Option Nat} {greedy : Bool}
    (ht : s.repeatLast least most greedy = .ok t) :
    ∃ t', s'.repeatLast least most greedy = .ok t' ∧ t.Alike t' := by
  unfold ParserState.repeatLast at ht ⊢
  split at ht
  · next n items hitems =>
    have hcons := h.level.items
    rw [hitems] at hcons
    obtain ⟨item', items', hitem, hmore, hitems'⟩ := List.forall₂_cons_left_iff.mp hcons
    cases hitem with
    | some hn =>
      cases ht
      rw [hitems', ← h.flags]
      refine ⟨_, rfl, ?_⟩
      refine ⟨rfl, ⟨h.level.kind, h.level.outerFlags, h.level.branches, ?_⟩, h.outer, h.groups,
        h.names⟩
      refine .cons (.some ⟨?_, congrArg (1 + ·) hn.depth⟩) hmore
      exact hn.expr.repeated _ _ _
  · cases ht

theorem Alike.apply (h : s.Alike s') {effect : Effect} (ht : effect.apply s = .ok t) :
    ∃ t', effect.apply s' = .ok t' ∧ t.Alike t' := by
  cases effect with
  | add node =>
    cases ht
    exact ⟨_, rfl, h.add (.some (.refl node))⟩
  | nextBranch =>
    cases ht
    exact ⟨_, rfl, h.nextBranch⟩
  | repeatLast least most greedy => exact h.repeatLast ht

theorem Alike.openNamed (h : s.Alike s') {cs left : List Char}
    (ht : s.openNamed cs = .ok (t, left)) : ∃ t', s'.openNamed cs = .ok (t', left) ∧ t.Alike t' := by
  obtain ⟨⟨name, left'⟩, hname, ht⟩ := except_bind_ok ht
  simp only at ht
  split at ht
  · cases ht
  · next hnew =>
    cases ht
    have hopen := h.openKeeping
    refine ⟨{ s'.openKeeping with names := name :: s'.names }, ?_, hopen.flags, hopen.level,
      hopen.outer, hopen.groups, congrArg (name :: ·) h.names⟩
    unfold ParserState.openNamed
    rw [hname]
    rw [h.names] at hnew
    exact if_neg hnew

theorem Alike.readOpening (h : s.Alike s') {cs left : List Char}
    (ht : s.readOpening cs = .ok (t, left)) :
    ∃ t', s'.readOpening cs = .ok (t', left) ∧ t.Alike t' := by
  unfold ParserState.readOpening at ht ⊢
  rw [← h.flags]
  split at ht
  · exact h.openNamed ht
  · cases ht
  · cases ht
  · cases ht
  · cases ht
  · exact h.openNamed ht
  · obtain ⟨⟨flags, seen, left'⟩, hflags, ht⟩ := except_bind_ok ht
    simp only [hflags, bind, Except.bind]
    simp only at ht
    split at ht
    · cases ht
      exact ⟨_, rfl, h.openGroup .plain flags⟩
    · split at ht
      · cases ht
      · next hseen =>
        cases ht
        have hchanged : Alike { s with flags := flags } { s' with flags := flags } :=
          ⟨rfl, h.level, h.outer, h.groups, h.names⟩
        exact ⟨_, if_neg hseen, hchanged.add .none⟩
    · cases ht
  · cases ht
    exact ⟨_, rfl, h.openKeeping⟩

/-- From states that are alike, an item leads to states that are alike and leaves the same text. -/
theorem Alike.step (h : s.Alike s') {c : Char} {rest left : List Char}
    (ht : s.step c rest = .ok (t, left)) : ∃ t', s'.step c rest = .ok (t', left) ∧ t.Alike t' := by
  by_cases hopening : c = '('
  · subst hopening
    rw [step_opening] at ht ⊢
    exact h.readOpening ht
  by_cases hclosing : c = ')'
  · subst hclosing
    rw [step_closing] at ht ⊢
    obtain ⟨t₁, hclose, ht⟩ := except_bind_ok ht
    cases ht
    obtain ⟨t', hclose', halike⟩ := h.closeGroup hclose
    refine ⟨t', ?_, halike⟩
    rw [hclose']
    rfl
  by_cases hspace : s.flags.extended = true ∧ (isSpace c = true ∨ c = '#')
  · -- what is ignored depends on the flags alone
    obtain ⟨hextended, hc⟩ := hspace
    have hextended' : s'.flags.extended = true := h.flags ▸ hextended
    unfold ParserState.step at ht ⊢
    simp only [hextended, hextended', Bool.true_and] at ht ⊢
    by_cases hblank : isSpace c = true
    · rw [if_pos hblank] at ht ⊢
      cases ht
      exact ⟨s', rfl, h⟩
    · have hcomment : (c == '#') = true := beq_iff_eq.mpr (hc.resolve_left hblank)
      rw [if_neg hblank, if_pos hcomment] at ht ⊢
      cases ht
      exact ⟨s', rfl, h⟩
  · have hspace' : ¬ (s'.flags.extended = true ∧ (isSpace c = true ∨ c = '#')) := h.flags ▸ hspace
    rw [step_eq_readEffect hspace hopening hclosing] at ht
    rw [step_eq_readEffect hspace' hopening hclosing, ← h.flags]
    obtain ⟨⟨effect, left'⟩, heffect, ht⟩ := except_bind_ok ht
    obtain ⟨t₁, happly, ht⟩ := except_bind_ok ht
    cases ht
    obtain ⟨t', happly', halike⟩ := h.apply happly
    refine ⟨t', ?_, halike⟩
    rw [heffect]
    simp only [bind, Except.bind, happly']

/-- **From states that are alike a text is read alike.** -/
theorem Alike.read (h : s.Alike s') {taken : Nat} {cs : List Char} (ht : s.read taken cs = .ok t) :
    ∃ t', s'.read taken cs = .ok t' ∧ t.Alike t' := by
  induction cs generalizing s s' taken with
  | nil =>
    rw [ParserState.read] at ht
    cases ht
    exact ⟨s', by rw [ParserState.read], h⟩
  | cons c cs ih =>
    cases taken with
    | succ taken => exact ih h ht
    | zero =>
      rw [ParserState.read_cons] at ht
      split at ht
      · cases ht
      · next s₁ left hstep =>
        obtain ⟨s₁', hstep', halike⟩ := h.step hstep
        obtain ⟨t', hread', halike'⟩ := ih halike ht
        refine ⟨t', ?_, halike'⟩
        rw [ParserState.read_cons, hstep']
        exact hread'

end ParserState

variable {flags : Flags}

theorem ParserState.Alike.refl_initial :
    (ParserState.initial flags).Alike (ParserState.initial flags) :=
  ⟨rfl, ⟨rfl, rfl, .nil, .nil⟩, .nil, rfl, rfl⟩

/-- A text that is read like an expression is an expression that is alike. -/
theorem parse_of_read {text text' : List Char} {e : Expr} (h : parse flags text = .ok e)
    (hread : ∀ {s}, (ParserState.initial flags).read 0 text = .ok s →
      ∃ s', (ParserState.initial flags).read 0 text' = .ok s' ∧ s.Alike s') :
    ∃ e', parse flags text' = .ok e' ∧ e.Alike e' := by
  obtain ⟨s, hs, h⟩ := except_bind_ok h
  obtain ⟨s', hs', halike⟩ := hread hs
  have hclose := halike.level.close
  have houter := halike.outer
  split at h
  · cases h
  · next hnone =>
    rw [hnone, List.forall₂_nil_left_iff] at houter
    simp only at h
    split at h
    · cases h
    · next hdepth =>
      cases h
      refine ⟨s'.level.close.expr, ?_, hclose.expr⟩
      rw [parse, hs']
      simp only [bind, Except.bind, houter]
      rw [if_neg (hclose.depth ▸ hdepth)]

end RequestRouter.Regex
