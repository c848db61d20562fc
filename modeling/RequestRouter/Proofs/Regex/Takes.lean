/-
  RequestRouter/Proofs/Regex/Takes.lean
  =====================================
  **The texts that an expression takes, and the groups it keeps of them.**

  An expression without assertions reads the same texts from every place.  `Expr.Takes` describes
  them by recursion on the expression, with the kept groups, newest first, as a list of indices and
  texts.  What an anchored expression finds in a text is then a reading of the whole text
  (`find_anchored`).
-/
import RequestRouter.Proofs.Regex.Reach
import RequestRouter.Proofs.Regex.Reading

namespace RequestRouter.Regex

/-- The texts that groups have kept, newest first. -/
abbrev Kept := List (Nat × List Char)

/-- So many texts of a relation one after the other. -/
def TakesRounds (T : List Char → Kept → Prop) : Nat → List Char → Kept → Prop
  | 0, s, gs => s = [] ∧ gs = []
  | n + 1, s, gs =>
    ∃ s₁ s₂ g₁ g₂, T s₁ g₁ ∧ TakesRounds T n s₂ g₂ ∧ s = s₁ ++ s₂ ∧ gs = g₂ ++ g₁

namespace Expr

/-- The expression takes the text and keeps the groups. -/
def Takes : Expr → List Char → Kept → Prop
  | .empty, s, gs => s = [] ∧ gs = []
  | .one set, s, gs => ∃ c, s = [c] ∧ set.contains c = true ∧ gs = []
  | .look _, _, _ => False
  | .group index e, s, gs => ∃ inner, e.Takes s inner ∧ gs = (index, s) :: inner
  | .seq a b, s, gs =>
    ∃ s₁ s₂ g₁ g₂, a.Takes s₁ g₁ ∧ b.Takes s₂ g₂ ∧ s = s₁ ++ s₂ ∧ gs = g₂ ++ g₁
  | .alt a b, s, gs => a.Takes s gs ∨ b.Takes s gs
  | .rounds e least most _, s, gs =>
    ∃ n, least ≤ n ∧ (∀ m ∈ most, n ≤ max least m) ∧ TakesRounds e.Takes n s gs

/-- Whether the expression asks nothing of its surroundings. -/
def lookFree : Expr → Bool
  | .look _ => false
  | .empty | .one _ => true
  | .group _ e | .rounds e _ _ _ => e.lookFree
  | .seq a b | .alt a b => a.lookFree && b.lookFree

/-- The expressions take parts of the text, one after the other. -/
def TakesAll : List Expr → List Char → Kept → Prop
  | [], s, gs => s = [] ∧ gs = []
  | e :: more, s, gs =>
    ∃ s₁ s₂ g₁ g₂, e.Takes s₁ g₁ ∧ TakesAll more s₂ g₂ ∧ s = s₁ ++ s₂ ∧ gs = g₂ ++ g₁

end Expr

/-! ### Sequences and repetitions -/

theorem takes_foldl_seq (more : List Expr) (e : Expr) (s : List Char) (gs : Kept) :
    (more.foldl .seq e).Takes s gs ↔ Expr.TakesAll (e :: more) s gs := by
  induction more generalizing e with
  | nil =>
    constructor
    · intro h
      exact ⟨s, [], gs, [], h, ⟨rfl, rfl⟩, by simp, by simp⟩
    · rintro ⟨s₁, s₂, g₁, g₂, h, ⟨rfl, rfl⟩, rfl, rfl⟩
      simpa using h
  | cons e' more ih =>
    rw [List.foldl_cons, ih]
    constructor
    · rintro ⟨-, s₃, -, g₃, ⟨s₁, s₂, g₁, g₂, h₁, h₂, rfl, rfl⟩, h₃, rfl, rfl⟩
      exact ⟨s₁, _, g₁, _, h₁, ⟨s₂, s₃, g₂, g₃, h₂, h₃, rfl, rfl⟩, by simp, by simp⟩
    · rintro ⟨s₁, -, g₁, -, h₁, ⟨s₂, s₃, g₂, g₃, h₂, h₃, rfl, rfl⟩, rfl, rfl⟩
      exact ⟨_, s₃, _, g₃, ⟨s₁, s₂, g₁, g₂, h₁, h₂, rfl, rfl⟩, h₃, by simp, by simp⟩

theorem takes_seqs (es : List Expr) (s : List Char) (gs : Kept) :
    (Expr.seqs es).Takes s gs ↔ Expr.TakesAll es s gs := by
  cases es with
  | nil => exact Iff.rfl
  | cons e more => exact takes_foldl_seq more e s gs

theorem takesAll_append (a b : List Expr) (s : List Char) (gs : Kept) :
    Expr.TakesAll (a ++ b) s gs ↔
      ∃ s₁ s₂ g₁ g₂, Expr.TakesAll a s₁ g₁ ∧ Expr.TakesAll b s₂ g₂ ∧ s = s₁ ++ s₂ ∧
        gs = g₂ ++ g₁ := by
  induction a generalizing s gs with
  | nil =>
    constructor
    · intro h
      exact ⟨[], s, [], gs, ⟨rfl, rfl⟩, h, rfl, by simp⟩
    · rintro ⟨-, s₂, -, g₂, ⟨rfl, rfl⟩, h, rfl, rfl⟩
      simpa using h
  | cons e a ih =>
    constructor
    · rintro ⟨s₁, s', g₁, g', h₁, hmore, rfl, rfl⟩
      obtain ⟨s₂, s₃, g₂, g₃, h₂, h₃, rfl, rfl⟩ := (ih _ _).mp hmore
      exact ⟨_, s₃, _, g₃, ⟨s₁, s₂, g₁, g₂, h₁, h₂, rfl, rfl⟩, h₃, by simp, by simp⟩
    · rintro ⟨-, s₃, -, g₃, ⟨s₁, s₂, g₁, g₂, h₁, h₂, rfl, rfl⟩, h₃, rfl, rfl⟩
      exact ⟨s₁, _, g₁, _, h₁, (ih _ _).mpr ⟨s₂, s₃, g₂, g₃, h₂, h₃, rfl, rfl⟩, by simp, by simp⟩

theorem takesRounds_one (set : CharSet) (n : Nat) (s : List Char) (gs : Kept) :
    TakesRounds (Expr.one set).Takes n s gs ↔
      s.length = n ∧ (∀ c ∈ s, set.contains c = true) ∧ gs = [] := by
  induction n generalizing s gs with
  | zero =>
    constructor
    · rintro ⟨rfl, rfl⟩
      simp
    · rintro ⟨hlength, -, rfl⟩
      exact ⟨List.length_eq_zero_iff.mp hlength, rfl⟩
  | succ n ih =>
    constructor
    · rintro ⟨-, s₂, -, g₂, ⟨c, rfl, hc, rfl⟩, hmore, rfl, rfl⟩
      obtain ⟨rfl, hall, rfl⟩ := (ih _ _).mp hmore
      refine ⟨rfl, ?_, rfl⟩
      intro d hd
      rcases List.mem_cons.mp hd with rfl | hd
      · exact hc
      · exact hall d hd
    · rintro ⟨hlength, hall, rfl⟩
      cases s with
      | nil => cases hlength
      | cons c s =>
        have hmore := (ih s []).mpr ⟨Nat.succ.inj hlength,
          fun d hd => hall d (List.mem_cons_of_mem _ hd), rfl⟩
        exact ⟨[c], s, [], [], ⟨c, rfl, hall c List.mem_cons_self, rfl⟩, hmore, rfl, rfl⟩

/-- A run of characters of one set. -/
theorem takes_run (set : CharSet) (least : Nat) (greedy : Bool) (s : List Char) (gs : Kept) :
    (Expr.rounds (.one set) least none greedy).Takes s gs ↔
      least ≤ s.length ∧ (∀ c ∈ s, set.contains c = true) ∧ gs = [] := by
  constructor
  · rintro ⟨n, hleast, -, h⟩
    obtain ⟨rfl, hall, rfl⟩ := (takesRounds_one set n s gs).mp h
    exact ⟨hleast, hall, rfl⟩
  · rintro ⟨hleast, hall, rfl⟩
    refine ⟨s.length, hleast, ?_, (takesRounds_one set _ s []).mpr ⟨rfl, hall, rfl⟩⟩
    intro m hm
    cases hm

theorem takes_optional (e : Expr) (greedy : Bool) (s : List Char) (gs : Kept) :
    (Expr.rounds e 0 (some 1) greedy).Takes s gs ↔ (s = [] ∧ gs = []) ∨ e.Takes s gs := by
  constructor
  · rintro ⟨n, -, hmost, h⟩
    have hn : n ≤ 1 := by simpa using hmost 1 rfl
    rcases n with _ | _ | n
    · exact Or.inl h
    · obtain ⟨s₁, s₂, g₁, g₂, h₁, ⟨rfl, rfl⟩, rfl, rfl⟩ := h
      exact Or.inr (by simpa using h₁)
    · omega
  · rintro (h | h)
    · exact ⟨0, Nat.zero_le _, by simp, h⟩
    · exact ⟨1, Nat.zero_le _, by simp, s, [], gs, [], h, ⟨rfl, rfl⟩, by simp, by simp⟩

/-! ### Measures of sequences -/

theorem groupCount_seqs (es : List Expr) :
    (Expr.seqs es).groupCount = (es.map Expr.groupCount).foldl max 0 := by
  cases es with
  | nil => rfl
  | cons e more =>
    rw [Expr.seqs, List.map_cons, List.foldl_cons, Nat.zero_max, List.foldl_map]
    exact (List.foldl_hom Expr.groupCount fun _ _ => rfl).symm

theorem lookFree_seqs {es : List Expr} (h : ∀ e ∈ es, e.lookFree = true) :
    (Expr.seqs es).lookFree = true := by
  cases es with
  | nil => rfl
  | cons e more =>
    rw [Expr.seqs]
    induction more generalizing e with
    | nil => exact h e List.mem_cons_self
    | cons e' more ih =>
      apply ih
      intro d hd
      rcases List.mem_cons.mp hd with rfl | hd
      · rw [Expr.lookFree, h e List.mem_cons_self,
          h e' (List.mem_cons_of_mem _ List.mem_cons_self)]
        rfl
      · exact h d (List.mem_cons_of_mem _ (List.mem_cons_of_mem _ hd))

/-! ### Places -/

namespace Cursor

/-- The texts kept on the way to a place, newest first. -/
def kept (p : Cursor) : Kept := p.groups.map fun g => (g.1, g.2.chars)

/-- Reading the text leads from one place to the other and keeps the groups. -/
structure Takes (p : Cursor) (s : List Char) (gs : Kept) (q : Cursor) : Prop where
  reads : p.Reads s q
  kept : q.kept = gs ++ p.kept

theorem lookup_kept (groups : List (Nat × Span)) (index : Nat) :
    (groups.map fun g => (g.1, g.2.chars)).lookup index = (groups.lookup index).map Span.chars := by
  induction groups with
  | nil => rfl
  | cons g groups ih =>
    obtain ⟨i, span⟩ := g
    rw [List.map_cons, List.lookup_cons, List.lookup_cons]
    cases index == i with
    | true => rfl
    | false => exact ih

theorem group?_eq_lookup (p : Cursor) (index : Nat) : p.group? index = p.kept.lookup index :=
  (lookup_kept p.groups index).symm

variable {p q r : Cursor}

theorem Takes.nil (p : Cursor) : p.Takes [] [] p :=
  ⟨.nil_of_samePlace (.refl p), rfl⟩

theorem Takes.append {a b : List Char} {gs gs' : Kept} (h : p.Takes a gs q)
    (h' : q.Takes b gs' r) : p.Takes (a ++ b) (gs' ++ gs) r := by
  constructor
  · exact h.reads.append h'.reads
  · rw [h'.kept, h.kept, List.append_assoc]

theorem Takes.keep {s : List Char} {gs : Kept} (h : p.Takes s gs q) (index : Nat) :
    p.Takes s ((index, s) :: gs) (q.keep index p) := by
  have hlength : q.offset - p.offset = s.length := by
    have := h.reads.offset
    omega
  constructor
  · exact h.reads.of_samePlace (.refl p) (keep_samePlace q index p).symm
  · have hchars : (⟨p.rest, q.offset - p.offset⟩ : Span).chars = s := by
      rw [Span.chars, hlength, h.reads.rest, List.take_left]
    change (index, (⟨p.rest, q.offset - p.offset⟩ : Span).chars) :: q.kept = _
    rw [hchars, h.kept]
    rfl

theorem Takes.rest {s rest : List Char} {gs : Kept} (h : p.Takes s gs q)
    (hrest : p.rest = s ++ rest) : q.rest = rest :=
  List.append_cancel_left (h.reads.rest.symm.trans hrest)

end Cursor

/-! ### Reaching and taking -/

theorem takesRounds_of_rounds {R : Cursor → Cursor → Prop} {T : List Char → Kept → Prop}
    (h : ∀ {p q}, R p q → ∃ s gs, T s gs ∧ p.Takes s gs q) {n : Nat} {p q : Cursor}
    (hr : Rounds R n p q) : ∃ s gs, TakesRounds T n s gs ∧ p.Takes s gs q := by
  induction n generalizing p with
  | zero =>
    have hq : q = p := hr
    subst hq
    exact ⟨[], [], ⟨rfl, rfl⟩, .nil q⟩
  | succ n ih =>
    obtain ⟨m, hm, hrest⟩ := hr
    obtain ⟨s₁, g₁, hs₁, h₁⟩ := h hm
    obtain ⟨s₂, g₂, hs₂, h₂⟩ := ih hrest
    exact ⟨_, _, ⟨s₁, s₂, g₁, g₂, hs₁, hs₂, rfl, rfl⟩, h₁.append h₂⟩

theorem rounds_of_takesRounds {R : Cursor → Cursor → Prop} {T : List Char → Kept → Prop}
    (h : ∀ {p s gs rest}, T s gs → p.rest = s ++ rest → ∃ q, R p q ∧ p.Takes s gs q)
    {n : Nat} {p : Cursor} {s rest : List Char} {gs : Kept} (ht : TakesRounds T n s gs)
    (hrest : p.rest = s ++ rest) : ∃ q, Rounds R n p q ∧ p.Takes s gs q := by
  induction n generalizing p s gs with
  | zero =>
    obtain ⟨rfl, rfl⟩ := ht
    exact ⟨p, rfl, .nil p⟩
  | succ n ih =>
    obtain ⟨s₁, s₂, g₁, g₂, h₁, h₂, rfl, rfl⟩ := ht
    rw [List.append_assoc] at hrest
    obtain ⟨m, hm, htakes⟩ := h h₁ hrest
    obtain ⟨q, hq, htakes'⟩ := ih h₂ (htakes.rest hrest)
    exact ⟨q, ⟨m, hm, hq⟩, htakes.append htakes'⟩

/-- What is reached is reached by taking a text. -/
theorem takes_of_reaches {e : Expr} (hfree : e.lookFree = true) {p q : Cursor}
    (h : e.Reaches p q) : ∃ s gs, e.Takes s gs ∧ p.Takes s gs q := by
  induction e generalizing p q with
  | empty =>
    have hq : q = p := h
    subst hq
    exact ⟨[], [], ⟨rfl, rfl⟩, .nil q⟩
  | one set =>
    simp only [Expr.Reaches, Cursor.step?] at h
    split at h
    · cases h
    · next c rest hrest =>
      split at h
      · next hc =>
        cases h
        exact ⟨[c], [], ⟨c, rfl, hc, rfl⟩, ⟨hrest, rfl, rfl⟩, rfl⟩
      · cases h
  | look a => cases hfree
  | group index e ih =>
    obtain ⟨m, hm, rfl⟩ := h
    obtain ⟨s, gs, hs, htakes⟩ := ih hfree hm
    exact ⟨s, _, ⟨gs, hs, rfl⟩, htakes.keep index⟩
  | seq a b iha ihb =>
    rw [Expr.lookFree, Bool.and_eq_true] at hfree
    obtain ⟨m, hm, hq⟩ := h
    obtain ⟨s₁, g₁, hs₁, h₁⟩ := iha hfree.1 hm
    obtain ⟨s₂, g₂, hs₂, h₂⟩ := ihb hfree.2 hq
    exact ⟨_, _, ⟨s₁, s₂, g₁, g₂, hs₁, hs₂, rfl, rfl⟩, h₁.append h₂⟩
  | alt a b iha ihb =>
    rw [Expr.lookFree, Bool.and_eq_true] at hfree
    rcases h with h | h
    · obtain ⟨s, gs, hs, htakes⟩ := iha hfree.1 h
      exact ⟨s, gs, Or.inl hs, htakes⟩
    · obtain ⟨s, gs, hs, htakes⟩ := ihb hfree.2 h
      exact ⟨s, gs, Or.inr hs, htakes⟩
  | rounds e least most greedy ih =>
    obtain ⟨n, hleast, hmost, hr⟩ := h
    obtain ⟨s, gs, hs, htakes⟩ := takesRounds_of_rounds (ih hfree) hr
    exact ⟨s, gs, ⟨n, hleast, hmost, hs⟩, htakes⟩

/-- A text that is taken is read wherever it stands. -/
theorem reaches_of_takes {e : Expr} {p : Cursor} {s rest : List Char} {gs : Kept}
    (h : e.Takes s gs) (hrest : p.rest = s ++ rest) : ∃ q, e.Reaches p q ∧ p.Takes s gs q := by
  induction e generalizing p s rest gs with
  | empty =>
    obtain ⟨rfl, rfl⟩ := h
    exact ⟨p, rfl, .nil p⟩
  | one set =>
    obtain ⟨c, rfl, hc, rfl⟩ := h
    refine ⟨⟨some c, rest, p.offset + 1, p.groups⟩, ?_, ⟨hrest, rfl, rfl⟩, rfl⟩
    rw [List.singleton_append] at hrest
    simp only [Expr.Reaches, Cursor.step?, hrest, hc, if_true]
  | look a => cases h
  | group index e ih =>
    obtain ⟨inner, hinner, rfl⟩ := h
    obtain ⟨m, hm, htakes⟩ := ih hinner hrest
    exact ⟨m.keep index p, ⟨m, hm, rfl⟩, htakes.keep index⟩
  | seq a b iha ihb =>
    obtain ⟨s₁, s₂, g₁, g₂, h₁, h₂, rfl, rfl⟩ := h
    rw [List.append_assoc] at hrest
    obtain ⟨m, hm, htakes⟩ := iha h₁ hrest
    obtain ⟨q, hq, htakes'⟩ := ihb h₂ (htakes.rest hrest)
    exact ⟨q, ⟨m, hm, hq⟩, htakes.append htakes'⟩
  | alt a b iha ihb =>
    rcases h with h | h
    · obtain ⟨q, hq, htakes⟩ := iha h hrest
      exact ⟨q, Or.inl hq, htakes⟩
    · obtain ⟨q, hq, htakes⟩ := ihb h hrest
      exact ⟨q, Or.inr hq, htakes⟩
  | rounds e least most greedy ih =>
    obtain ⟨n, hleast, hmost, ht⟩ := h
    obtain ⟨q, hq, htakes⟩ := rounds_of_takesRounds (fun h hrest => ih h hrest) ht hrest
    exact ⟨q, ⟨n, hleast, hmost, hq⟩, htakes⟩

/-! ### Anchored expressions -/

/-- The expression can read the text from its start to its end. -/
def Expr.ReadsWhole (e : Expr) (text : List Char) : Prop :=
  ∃ q, e.Reaches (.start text) q ∧ q.rest = []

/-- An anchored expression reads at the start of the text only. -/
theorem before_of_anchored {inner : Expr} {p q : Cursor} (h : (anchoredExpr inner).Reaches p q) :
    p.before = none := by
  obtain ⟨m, ⟨m', ⟨hholds, -⟩, -⟩, -⟩ := h
  simpa [Assertion.holds] using hholds

/-- **What an anchored expression finds** is reached by the expression inside at the end of the text,
    and it finds something if the end is reached. -/
theorem find_anchored_reads (inner : Expr) (text : List Char) :
    (∀ q, (anchoredExpr inner).find text = some q →
      inner.Reaches (.start text) q ∧ q.rest = []) ∧
    (((anchoredExpr inner).find text).isSome ↔ inner.ReadsWhole text) := by
  have hreaches : ∀ {q}, (anchoredExpr inner).Reaches (Cursor.start text) q →
      inner.Reaches (.start text) q ∧ q.rest = [] := by
    rintro q ⟨m, ⟨m', ⟨-, rfl⟩, hm⟩, hholds, rfl⟩
    exact ⟨hm, by simpa [Assertion.holds] using hholds⟩
  obtain ⟨hfound, hsome⟩ : (∀ q, (anchoredExpr inner).find text = some q → _) ∧ (_ ↔ _) :=
    Expr.find_reaches before_of_anchored
  refine ⟨fun q hq => hreaches (hfound q hq), hsome.trans ⟨?_, ?_⟩⟩
  · rintro ⟨q, hq⟩
    exact ⟨q, hreaches hq⟩
  · rintro ⟨q, hq, hend⟩
    refine ⟨q, q, ⟨Cursor.start text, ⟨rfl, rfl⟩, hq⟩, ?_, rfl⟩
    simp [Assertion.holds, hend]

/-- What an anchored expression without assertions finds is a reading of the whole text, and it finds
    one if there is one. -/
theorem find_anchored {inner : Expr} (hfree : inner.lookFree = true) (text : List Char) :
    (∀ q, (anchoredExpr inner).find text = some q →
      ∃ gs, inner.Takes text gs ∧ ∀ index, q.group? index = gs.lookup index) ∧
    (((anchoredExpr inner).find text).isSome ↔ ∃ gs, inner.Takes text gs) := by
  obtain ⟨hfound, hsome⟩ := find_anchored_reads inner text
  have htakes : ∀ {q}, inner.Reaches (.start text) q → q.rest = [] →
      ∃ gs, inner.Takes text gs ∧ ∀ index, q.group? index = gs.lookup index := by
    intro q hq hend
    obtain ⟨s, gs, hs, htakes⟩ := takes_of_reaches hfree hq
    have htext : text = s := by simpa [Cursor.start, hend] using htakes.reads.rest
    subst htext
    refine ⟨gs, hs, fun index => ?_⟩
    rw [Cursor.group?_eq_lookup, htakes.kept]
    simp [Cursor.kept, Cursor.start]
  refine ⟨fun q hq => htakes (hfound q hq).1 (hfound q hq).2, hsome.trans ⟨?_, ?_⟩⟩
  · rintro ⟨q, hq, hend⟩
    obtain ⟨gs, hs, -⟩ := htakes hq hend
    exact ⟨gs, hs⟩
  · rintro ⟨gs, hs⟩
    have hstart : (Cursor.start text).rest = text ++ [] := (List.append_nil text).symm
    obtain ⟨q, hq, hread⟩ := reaches_of_takes hs hstart
    exact ⟨q, hq, hread.rest hstart⟩

end RequestRouter.Regex
