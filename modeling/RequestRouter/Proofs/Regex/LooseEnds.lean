/-
  RequestRouter/Proofs/Regex/LooseEnds.lean
  =========================================
  **A slash that may be missing at the end of a text is no loss.**

  Two texts that differ in their ends are read alike up to the ends, whatever groups, flags and
  comments come before them (`read_follows`).  From there on the loose end adds a slash that may be
  missing to the open branch, where the strict end adds a slash or nothing.  What an expression reaches
  is monotone in the last item of a branch, so the expression with the loose end reaches whatever the
  other reaches (`within_of_parse`), and finds something wherever the other does.
-/
import RequestRouter.Proofs.Regex.Alike
import RequestRouter.Proofs.Regex.ClassEnds
import RequestRouter.Proofs.Regex.Whole

namespace RequestRouter.Regex

open RequestRouter.Unicode

/-! ### Expressions that reach more -/

namespace Expr

/-- Whatever the one expression reaches, the other reaches. -/
def Within (e e' : Expr) : Prop := ∀ p q, e.Reaches p q → e'.Reaches p q

variable {e e' : Expr}

theorem Within.refl (e : Expr) : e.Within e := fun _ _ h => h

theorem forall₂_within_refl (es : List Expr) : List.Forall₂ Within es es :=
  List.forall₂_same.mpr fun e _ => .refl e

theorem Within.group (h : e.Within e') (index : Nat) :
    (Expr.group index e).Within (.group index e') := by
  rintro p q ⟨m, hm, hq⟩
  exact ⟨m, h p m hm, hq⟩

theorem findFrom_nil (e : Expr) (before : Option Char) (offset : Nat) :
    e.findFrom before offset [] = (e.ends ⟨before, [], offset, []⟩).head? := by
  rw [findFrom]
  cases e.ends ⟨before, [], offset, []⟩ <;> rfl

theorem findFrom_cons (e : Expr) (before : Option Char) (offset : Nat) (c : Char) (text : List Char) :
    e.findFrom before offset (c :: text) =
      (e.ends ⟨before, c :: text, offset, []⟩).head?.or (e.findFrom (some c) (offset + 1) text) := by
  rw [findFrom]
  cases e.ends ⟨before, c :: text, offset, []⟩ <;> rfl

/-- **What an expression finds, one that reaches more finds as well**, if perhaps elsewhere. -/
theorem Within.isSome_find (h : e.Within e') {text : List Char} (hfind : (e.find text).isSome) :
    (e'.find text).isSome := by
  have hends : ∀ p, e.ends p ≠ [] → e'.ends p ≠ [] := by
    intro p hne
    obtain ⟨q, more, hq⟩ := List.exists_cons_of_ne_nil hne
    have hreaches : e.Reaches p q := reaches_of_mem_ends (hq ▸ List.mem_cons_self)
    obtain ⟨q', hq', -⟩ := exists_mem_ends (h p q hreaches)
    exact List.ne_nil_of_mem hq'
  have hfrom : ∀ before offset, (e.findFrom before offset text).isSome →
      (e'.findFrom before offset text).isSome := by
    clear hfind
    induction text with
    | nil =>
      intro before offset hfind
      rw [findFrom_nil, List.isSome_head?] at hfind ⊢
      exact hends _ hfind
    | cons c text ih =>
      intro before offset hfind
      rw [findFrom_cons, Option.isSome_or, Bool.or_eq_true, List.isSome_head?] at hfind ⊢
      exact hfind.imp (hends _) (ih (some c) (offset + 1))
  exact hfrom none 0 hfind

theorem reachesAll_mono {es es' : List Expr} (h : List.Forall₂ Within es es') {p q : Cursor}
    (hreaches : ReachesAll es p q) : ReachesAll es' p q := by
  induction h generalizing p with
  | nil => exact hreaches
  | cons h hmore ih =>
    obtain ⟨m, hm, hrest⟩ := hreaches
    exact ⟨m, h p m hm, ih hrest⟩

theorem within_alts {es es' : List Expr} (h : List.Forall₂ Within es es') :
    (alts es).Within (alts es') := by
  cases h with
  | nil => exact .refl _
  | cons h hmore =>
    refine List.rel_foldl (P := Within) (fun a b hacc c d hcd => ?_) h hmore
    intro p q hreaches
    exact hreaches.imp (hacc p q) (hcd p q)

end Expr

/-! ### Levels -/

theorem expr_sequence (items : List (Option Node)) :
    (sequence items).expr = .seqs ((items.reverse.filterMap id).map (·.expr)) := by
  match items with
  | [] => rfl
  | [none] => rfl
  | [some n] => rfl
  | a :: b :: items => rw [sequence_cons_cons]

theorem expr_close (level : Level) :
    level.close.expr =
      .alts (level.branches.reverse.map (·.expr) ++ [(sequence level.items).expr]) := by
  unfold Level.close
  cases level.branches with
  | nil => rfl
  | cons n ns =>
    simp only [List.map_append]
    rfl

theorem within_close {level : Level} {items items' : List (Option Node)}
    (h : (sequence items).expr.Within (sequence items').expr) :
    (Level.close { level with items := items }).expr.Within
      (Level.close { level with items := items' }).expr := by
  rw [expr_close, expr_close]
  apply Expr.within_alts
  exact List.rel_append (Expr.forall₂_within_refl _) (.cons h .nil)

/-! ### Reading up to the ends -/

variable {stop : List Char}

namespace ParserState

variable {s s' : ParserState}

/-- An item is the same before both ends, but for an escape of what the ends start with. -/
theorem step_follows (hstop : StrictEnd stop) {c : Char} {t : List Char}
    (hescape : c = '\\' → t ≠ []) :
    Follows (SameRead stop) (s.step c (t ++ looseEnd)) (s.step c (t ++ stop)) := by
  have h : SameUpTo stop (t ++ looseEnd) (t ++ stop) := .before t
  have hrepeated : ∀ {cs cs' : List Char} (least : Nat) (most : Option Nat), SameUpTo stop cs cs' →
      Follows (SameRead stop)
        (do .ok (← s.repeatLast least most (readGreed cs).1, (readGreed cs).2))
        (do .ok (← s.repeatLast least most (readGreed cs').1, (readGreed cs').2)) := by
    intro cs cs' least most hcs
    obtain ⟨hgreedy, hleft⟩ := readGreed_sameUpTo hstop hcs
    simp only [hgreedy]
    exact follows_bind fun s' => follows_ok ⟨rfl, hleft⟩
  unfold ParserState.step
  refine follows_ite (follows_ok ⟨rfl, h⟩) ?_
  refine follows_ite (follows_ok ⟨rfl, skipIgnored_sameUpTo hstop true t⟩) ?_
  split
  · exact readOpening_follows hstop h s
  · exact follows_bind fun s' => follows_ok ⟨rfl, h⟩
  · exact follows_ok ⟨rfl, h⟩
  · refine (readClass_follows hstop h).bind ?_
    rintro ⟨part, left⟩ ⟨-, left'⟩ ⟨rfl, hleft⟩
    exact follows_ok ⟨rfl, hleft⟩
  · exact hrepeated 0 (some 1) h
  · exact hrepeated 0 none h
  · exact hrepeated 1 none h
  · refine (readCounts_follows hstop h).bind ?_
    rintro ⟨least, most, left⟩ ⟨-, -, left'⟩ ⟨rfl, rfl, hleft⟩
    exact hrepeated least most (hleft.skip hstop _)
  · refine (readPrimitive_follows hstop h ?_).bind ?_
    · intro hc heq
      exact hescape hc (List.append_left_eq_self.mp heq)
    · rintro ⟨p, left⟩ ⟨-, left'⟩ ⟨rfl, hleft⟩
      exact follows_bind fun e => follows_ok ⟨rfl, hleft⟩

theorem read_length (cs : List Char) : s.read cs.length cs = .ok s := by
  have hread := read_taken s cs []
  rwa [List.append_nil, ParserState.read] at hread

/-- **Two texts that differ only in their ends are read alike up to the ends.**  Either both are read
    to the last character alike, or there is a state before the ends from which the two go on, perhaps
    with a backslash that stands before the ends. -/
theorem read_follows (hstop : StrictEnd stop) {taken : Nat} {t : List Char} (htaken : taken ≤ t.length)
    (h : s.read taken (t ++ looseEnd) = .ok s') :
    s.read taken (t ++ stop) = .ok s' ∨
      ∃ b : ParserState, ∃ last ∈ [[], ['\\']], b.read 0 (last ++ looseEnd) = .ok s' ∧
        s.read taken (t ++ stop) = b.read 0 (last ++ stop) := by
  induction t generalizing s taken with
  | nil =>
    obtain rfl := Nat.le_zero.mp htaken
    exact .inr ⟨s, [], by simp, h, rfl⟩
  | cons c t ih =>
    cases taken with
    | succ taken => exact ih (Nat.le_of_succ_le_succ htaken) h
    | zero =>
      by_cases hescape : c = '\\' ∧ t = []
      · obtain ⟨rfl, rfl⟩ := hescape
        exact .inr ⟨s, ['\\'], by simp, h, rfl⟩
      rw [List.cons_append, read_cons] at h
      rw [List.cons_append, read_cons]
      split at h
      · cases h
      · next s₁ left hstep =>
        obtain ⟨⟨-, left'⟩, hstep', rfl, hleft⟩ :=
          step_follows hstop (fun hc ht => hescape ⟨hc, ht⟩) _ hstep
        rw [hstep']
        simp only at hleft ⊢
        cases hleft with
        | ended =>
          rw [List.length_nil, Nat.sub_zero, read_length] at h
          rw [List.length_nil, Nat.sub_zero, read_length]
          exact .inl h
        | before u =>
          simp only [List.length_append, Nat.add_sub_add_right] at h ⊢
          exact ih (Nat.sub_le _ _) h

end ParserState

/-! ### The ends of texts -/

/-- A character as an item. -/
def literalNode (flags : Flags) (c : Char) : Node := ⟨.one (foldIf flags (.ofChar c)), 0⟩

/-- A slash that may be left out. -/
def optionalSlashNode (flags : Flags) : Node :=
  ⟨.rounds (literalNode flags '/').expr 0 (some 1) (true != flags.swapGreed), 1⟩

namespace ParserState

variable {s t t' : ParserState} {rest : List Char}

/-- The state with other items in the open branch. -/
def withItems (s : ParserState) (items : List (Option Node)) : ParserState :=
  { s with level := { s.level with items := items } }

/-- An item that is neither blank nor a parenthesis, by its effect. -/
theorem read_of_readEffect {c : Char} (hc : ¬ (isSpace c = true ∨ c = '#') ∧ c ≠ '(' ∧ c ≠ ')')
    (taken : List Char) (effect : Effect)
    (heffect : readEffect s.flags c (taken ++ rest) = .ok (effect, rest))
    (happly : effect.apply s = .ok t) : s.read 0 (c :: (taken ++ rest)) = t.read 0 rest := by
  apply read_of_step
  rw [step_eq_readEffect (fun h => hc.1 h.2) hc.2.1 hc.2.2, heffect]
  simp only [bind, Except.bind, happly]

theorem read_slash (s : ParserState) (rest : List Char) :
    s.read 0 ('/' :: rest) =
      (s.withItems (some (literalNode s.flags '/') :: s.level.items)).read 0 rest := by
  refine read_of_readEffect (by decide) [] (.add (literalNode s.flags '/')) ?_ rfl
  change (do .ok (Effect.add ⟨← primitiveExpr s.flags (.literal '/' false), 0⟩, rest)) = _
  rw [primitiveExpr_literal]
  rfl

/-- A character after a backslash that makes it stand for itself. -/
theorem read_escaped {c : Char} (hc : readEscape s.flags (c :: rest) = .ok (.literal c false, rest)) :
    s.read 0 ('\\' :: c :: rest) =
      (s.withItems (some (literalNode s.flags c) :: s.level.items)).read 0 rest := by
  refine read_of_readEffect (by decide) [c] (.add (literalNode s.flags c)) ?_ rfl
  change (do
    let found ← readEscape s.flags (c :: rest)
    .ok (Effect.add ⟨← primitiveExpr s.flags found.1, 0⟩, found.2)) = _
  rw [hc]
  simp only [bind, Except.bind, primitiveExpr_literal]
  rfl

/-- A slash after a backslash is a slash. -/
theorem read_escapedSlash (s : ParserState) (rest : List Char) :
    s.read 0 ('\\' :: '/' :: rest) = s.read 0 ('/' :: rest) := by
  rw [read_escaped rfl, read_slash]

theorem read_optionalSlash (s : ParserState) (hrest : rest.head? ≠ some '?') :
    s.read 0 ('/' :: '?' :: rest) =
      (s.withItems (some (optionalSlashNode s.flags) :: s.level.items)).read 0 rest := by
  rw [read_slash]
  refine read_of_readEffect (by decide) [] (.repeatLast 0 (some 1) true) ?_ rfl
  simp only [readEffect, List.nil_append, readGreed_of_ne hrest]

/-- A group is closed, and the end of the text asked for. -/
theorem read_closing (s : ParserState) :
    s.read 0 [')', '$'] = (do
      let t ← s.closeGroup
      .ok (t.withItems (some ⟨.look (endAssertion t.flags), 0⟩ :: t.level.items))) := by
  rw [read_cons, step_closing]
  cases s.closeGroup with
  | error e => rfl
  | ok t => exact read_of_readEffect (by decide) [] _ rfl rfl

theorem outer_ne_nil_of_read_closing (h : s.read 0 [')', '$'] = .ok t) : s.outer ≠ [] := by
  intro houter
  rw [read_closing] at h
  unfold ParserState.closeGroup at h
  rw [houter] at h
  cases h

/-- The expression of a group: what is inside it, and what is kept. -/
def groupExpr (kind : GroupKind) (inner : Expr) : Expr :=
  match kind with
  | .keeping index => .group index inner
  | .plain => inner

theorem within_groupExpr {e e' : Expr} (h : e.Within e') (kind : GroupKind) :
    (groupExpr kind e).Within (groupExpr kind e') := by
  cases kind with
  | keeping index => exact h.group index
  | plain => exact h

theorem level_of_read_closing {level : Level} {outer : List Level} (houter : s.outer = level :: outer)
    (h : s.read 0 [')', '$'] = .ok t) :
    ∃ depth, t.level = { level with
      items := some ⟨.look (endAssertion s.level.outerFlags), 0⟩ ::
        some ⟨groupExpr s.level.kind s.level.close.expr, depth⟩ :: level.items } := by
  rw [read_closing] at h
  unfold ParserState.closeGroup at h
  rw [houter] at h
  cases h
  exact ⟨_, rfl⟩

theorem within_read_closing {items items' : List (Option Node)}
    (h : (sequence items).expr.Within (sequence items').expr)
    (ht : (s.withItems items).read 0 [')', '$'] = .ok t)
    (ht' : (s.withItems items').read 0 [')', '$'] = .ok t') :
    t.level.close.expr.Within t'.level.close.expr := by
  obtain ⟨level, outer, houter⟩ := List.exists_cons_of_ne_nil (outer_ne_nil_of_read_closing ht)
  obtain ⟨depth, hlevel⟩ := level_of_read_closing houter ht
  obtain ⟨depth', hlevel'⟩ := level_of_read_closing (s := s.withItems items') houter ht'
  rw [hlevel, hlevel']
  apply within_close
  rw [expr_sequence, expr_sequence]
  intro p q hreaches
  rw [reaches_seqs] at hreaches ⊢
  refine Expr.reachesAll_mono ?_ hreaches
  simp only [List.reverse_cons, List.filterMap_append, List.map_append]
  have hgroup := within_groupExpr (@within_close s.level _ _ h) s.level.kind
  exact List.rel_append (List.rel_append (Expr.forall₂_within_refl _) (.cons hgroup .nil))
    (Expr.forall₂_within_refl _)

theorem reaches_sequence_cons (node : Node) (items : List (Option Node)) (p q : Cursor) :
    (sequence (some node :: items)).expr.Reaches p q ↔
      ∃ m, (sequence items).expr.Reaches p m ∧ node.expr.Reaches m q := by
  have hlast : ∀ m, Expr.ReachesAll [node.expr] m q ↔ node.expr.Reaches m q := fun m =>
    ⟨fun ⟨_, h, heq⟩ => heq ▸ h, fun h => ⟨q, h, rfl⟩⟩
  simp only [expr_sequence, reaches_seqs, List.reverse_cons, List.filterMap_append, List.map_append,
    reachesAll_append, ← hlast]
  rfl

theorem reaches_optionalSlashNode (flags : Flags) (p q : Cursor) :
    (optionalSlashNode flags).expr.Reaches p q ↔ q = p ∨ (literalNode flags '/').expr.Reaches p q := by
  constructor
  · rintro ⟨n, -, hmost, hrounds⟩
    have hn : n ≤ 1 := hmost 1 rfl
    rcases Nat.le_one_iff_eq_zero_or_eq_one.mp hn with rfl | rfl
    · exact .inl hrounds
    · exact .inr (rounds_one.mp hrounds)
  · rintro (rfl | h)
    · exact ⟨0, Nat.le_refl 0, fun _ _ => Nat.zero_le _, rfl⟩
    · exact ⟨1, Nat.zero_le 1, fun m hm => by cases hm; exact Nat.le_refl 1, rounds_one.mpr h⟩

/-- What comes before the ends, with the slash or without, reaches no more than with a slash that may be
    left out. -/
theorem within_read_ends (hstop : StrictEnd stop) (ht : s.read 0 stop = .ok t)
    (ht' : s.read 0 looseEnd = .ok t') : t.level.close.expr.Within t'.level.close.expr := by
  rw [looseEnd, read_optionalSlash s (by decide)] at ht'
  cases hstop with
  | bare =>
    refine @within_read_closing s _ _ s.level.items _ ?_ ht ht'
    intro p q hreaches
    rw [reaches_sequence_cons]
    exact ⟨q, hreaches, (reaches_optionalSlashNode _ _ _).mpr (.inl rfl)⟩
  | slash =>
    rw [read_slash] at ht
    refine within_read_closing ?_ ht ht'
    intro p q hreaches
    rw [reaches_sequence_cons] at hreaches ⊢
    obtain ⟨m, hm, hslash⟩ := hreaches
    exact ⟨m, hm, (reaches_optionalSlashNode _ _ _).mpr (.inr hslash)⟩

/-- An escaped parenthesis closes nothing. -/
theorem outer_of_read_escapedClosing (h : s.read 0 ['\\', ')', '$'] = .ok t) : t.outer = s.outer := by
  have hend : ∀ s : ParserState, s.read 0 ['$'] =
      .ok (s.withItems (some ⟨.look (endAssertion s.flags), 0⟩ :: s.level.items)) := fun s =>
    read_of_readEffect (by decide) [] _ rfl rfl
  rw [read_escaped rfl, hend] at h
  cases h
  rfl

end ParserState

open ParserState

/-- **An expression that asks for its last slash, or for none, reaches no more than the expression of
    the same text with a slash at its end that may be left out.** -/
theorem within_of_parse {flags : Flags} {text : List Char} (hstop : StrictEnd stop) {e e' : Expr}
    (h : parse flags (text ++ stop) = .ok e) (h' : parse flags (text ++ looseEnd) = .ok e') :
    e.Within e' := by
  obtain ⟨s, hs, houter, rfl⟩ := read_of_parse h
  obtain ⟨s', hs', -, rfl⟩ := read_of_parse h'
  rcases read_follows hstop (Nat.zero_le _) hs' with hsame | ⟨b, last, hlast, hloose, hstrict⟩
  · rw [hs] at hsame
    cases hsame
    exact .refl _
  rw [hs] at hstrict
  simp only [List.mem_cons, List.not_mem_nil, or_false] at hlast
  rcases hlast with rfl | rfl
  · exact within_read_ends hstop hstrict.symm hloose
  · rw [looseEnd, List.singleton_append, read_escapedSlash] at hloose
    cases hstop with
    | slash =>
      rw [List.singleton_append, read_escapedSlash] at hstrict
      exact within_read_ends .slash hstrict.symm hloose
    | bare =>
      -- the group that the unescaped parenthesis closes stays open behind the escaped one
      have houter' := outer_of_read_escapedClosing hstrict.symm
      rw [read_optionalSlash b (by decide)] at hloose
      exact absurd (houter'.symm.trans houter) (outer_ne_nil_of_read_closing hloose :)

end RequestRouter.Regex
