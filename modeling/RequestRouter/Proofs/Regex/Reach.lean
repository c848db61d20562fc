/-
  RequestRouter/Proofs/Regex/Reach.lean
  =====================================
  **What an expression can read, said without an order of preference.**

  `Expr.ends` lists the places that an expression stops at, and keeps one of the places at each
  offset.  `Expr.Reaches` is the relation behind that list: it says by recursion on the expression
  which places can be reached at all, and knows nothing of greed, of visited places or of how often
  a round may be tried.  The two agree: every place listed is reached (`reaches_of_mem_ends`), and
  for every place reached one at the same offset is listed (`exists_mem_ends`).

  The second half is an argument about search.  A repetition looks for its places depth first and
  never goes on twice from the same offset, so the places found have to be closed under further
  rounds.  `Closed` is that invariant for unbounded repetitions, `Covers` for bounded ones.
-/
import Mathlib.Data.List.Basic
import RequestRouter.Regex.Match

namespace RequestRouter.Regex

/-! ### Places of one text -/

namespace Cursor

/-- Reading the characters leads from one place to the other, whatever groups they carry. -/
structure Reads (p : Cursor) (read : List Char) (q : Cursor) : Prop where
  rest : p.rest = read ++ q.rest
  offset : q.offset = p.offset + read.length
  before : q.before = read.getLast?.or p.before

/-- Some reading leads from one place to the other. -/
def Ahead (p q : Cursor) : Prop := ∃ read, p.Reads read q

/-- The same place, with the same or with other groups. -/
structure SamePlace (p q : Cursor) : Prop where
  before : p.before = q.before
  rest : p.rest = q.rest
  offset : p.offset = q.offset

namespace SamePlace

variable {p q r : Cursor}

@[simp] theorem refl (p : Cursor) : p.SamePlace p := ⟨rfl, rfl, rfl⟩

theorem symm (h : p.SamePlace q) : q.SamePlace p :=
  ⟨h.before.symm, h.rest.symm, h.offset.symm⟩

theorem trans (h : p.SamePlace q) (h' : q.SamePlace r) : p.SamePlace r :=
  ⟨h.before.trans h'.before, h.rest.trans h'.rest, h.offset.trans h'.offset⟩

theorem keep (h : p.SamePlace q) (i j : Nat) (o o' : Cursor) :
    (p.keep i o).SamePlace (q.keep j o') := ⟨h.before, h.rest, h.offset⟩

end SamePlace

theorem keep_samePlace (p : Cursor) (i : Nat) (o : Cursor) : (p.keep i o).SamePlace p :=
  ⟨rfl, rfl, rfl⟩

variable {p p' q q' r : Cursor}

theorem Reads.nil_of_samePlace (h : p.SamePlace q) : p.Reads [] q :=
  ⟨by simp [h.rest], by simp [h.offset], by simp [h.before]⟩

theorem Reads.append {a b : List Char} (h : p.Reads a q) (h' : q.Reads b r) :
    p.Reads (a ++ b) r := by
  refine ⟨?_, ?_, ?_⟩
  · rw [h.rest, h'.rest, List.append_assoc]
  · rw [h'.offset, h.offset, List.length_append]
    omega
  · rw [h'.before, h.before, List.getLast?_append, Option.or_assoc]

theorem Reads.of_samePlace {a : List Char} (h : p.Reads a q) (hp : p.SamePlace p')
    (hq : q.SamePlace q') : p'.Reads a q' := by
  refine ⟨?_, ?_, ?_⟩
  · rw [← hp.rest, ← hq.rest, h.rest]
  · rw [← hp.offset, ← hq.offset, h.offset]
  · rw [← hp.before, ← hq.before, h.before]

/-- What is read and the place it is read from determine the place after it. -/
theorem Reads.samePlace {a : List Char} (h : p.Reads a q) (h' : p.Reads a q') :
    q.SamePlace q' := by
  refine ⟨h.before.trans h'.before.symm, ?_, h.offset.trans h'.offset.symm⟩
  exact List.append_cancel_left (h.rest.symm.trans h'.rest)

@[simp] theorem Ahead.refl (p : Cursor) : p.Ahead p := ⟨[], .nil_of_samePlace (.refl p)⟩

theorem Ahead.of_samePlace (h : p.SamePlace q) : p.Ahead q := ⟨[], .nil_of_samePlace h⟩

theorem Ahead.trans (h : p.Ahead q) (h' : q.Ahead r) : p.Ahead r := by
  obtain ⟨a, ha⟩ := h
  obtain ⟨b, hb⟩ := h'
  exact ⟨a ++ b, ha.append hb⟩

theorem Ahead.offset_le (h : p.Ahead q) : p.offset ≤ q.offset := by
  obtain ⟨a, ha⟩ := h
  have := ha.offset
  omega

/-- What is left grows shorter by as much as the offset grows. -/
theorem Ahead.offset_add_length (h : p.Ahead q) :
    q.offset + q.rest.length = p.offset + p.rest.length := by
  obtain ⟨a, ha⟩ := h
  rw [ha.rest, ha.offset, List.length_append]
  omega

/-- Two places of one text at the same offset are the same place. -/
theorem Ahead.samePlace (h : p.Ahead q) (h' : p.Ahead q') (ho : q.offset = q'.offset) :
    q.SamePlace q' := by
  obtain ⟨a, ha⟩ := h
  obtain ⟨b, hb⟩ := h'
  have hlen : a.length = b.length := by
    have h1 := ha.offset
    have h2 := hb.offset
    omega
  have hab : a ++ q.rest = b ++ q'.rest := ha.rest.symm.trans hb.rest
  have : a = b := List.append_inj_left hab hlen
  subst this
  exact ha.samePlace hb

end Cursor

/-! ### Rounds -/

/-- So many rounds of a relation lead from one place to the other. -/
def Rounds (R : Cursor → Cursor → Prop) : Nat → Cursor → Cursor → Prop
  | 0, p, q => q = p
  | n + 1, p, q => ∃ m, R p m ∧ Rounds R n m q

theorem Rounds.append {R : Cursor → Cursor → Prop} {m n : Nat} {p q r : Cursor}
    (h : Rounds R m p q) (h' : Rounds R n q r) : Rounds R (m + n) p r := by
  induction m generalizing p with
  | zero =>
    simp only [Rounds] at h
    subst h
    simpa using h'
  | succ m ih =>
    obtain ⟨s, hs, hrest⟩ := h
    rw [Nat.succ_add]
    exact ⟨s, hs, ih hrest⟩

theorem Rounds.split {R : Cursor → Cursor → Prop} {m n : Nat} {p r : Cursor}
    (h : Rounds R (m + n) p r) : ∃ q, Rounds R m p q ∧ Rounds R n q r := by
  induction m generalizing p with
  | zero => exact ⟨p, rfl, by simpa using h⟩
  | succ m ih =>
    rw [Nat.succ_add] at h
    obtain ⟨s, hs, hrest⟩ := h
    obtain ⟨q, hq, hr⟩ := ih hrest
    exact ⟨q, ⟨s, hs, hq⟩, hr⟩

@[simp] theorem rounds_one {R : Cursor → Cursor → Prop} {p q : Cursor} :
    Rounds R 1 p q ↔ R p q := by
  constructor
  · rintro ⟨m, hm, rfl⟩
    exact hm
  · intro h
    exact ⟨q, h, rfl⟩

/-- The places that an expression can reach. -/
def Expr.Reaches : Expr → Cursor → Cursor → Prop
  | .empty, p, q => q = p
  | .one set, p, q => p.step? set = some q
  | .look a, p, q => a.holds p.before p.rest = true ∧ q = p
  | .group index e, p, q => ∃ m, e.Reaches p m ∧ q = m.keep index p
  | .seq a b, p, q => ∃ m, a.Reaches p m ∧ b.Reaches m q
  | .alt a b, p, q => a.Reaches p q ∨ b.Reaches p q
  | .rounds e least most _, p, q =>
    ∃ n, least ≤ n ∧ (∀ m ∈ most, n ≤ max least m) ∧ Rounds e.Reaches n p q

/-! ### Lists of places -/

/-- Some place of the list is at the offset. -/
def Has (places : List Cursor) (offset : Nat) : Prop := ∃ p ∈ places, p.offset = offset

theorem Has.mono {a b : List Cursor} {o : Nat} (h : Has a o) (hab : ∀ p ∈ a, p ∈ b) : Has b o := by
  obtain ⟨p, hp, ho⟩ := h
  exact ⟨p, hab p hp, ho⟩

theorem any_offset_iff {places : List Cursor} {o : Nat} :
    places.any (·.offset == o) = true ↔ Has places o := by
  simp [Has]

theorem mem_of_mem_firstsFrom {seen : List Nat} {places : List Cursor} {q : Cursor}
    (h : q ∈ firstsFrom seen places) : q ∈ places := by
  induction places generalizing seen with
  | nil => simp [firstsFrom] at h
  | cons p more ih =>
    rw [firstsFrom] at h
    split at h
    · exact List.mem_cons_of_mem _ (ih h)
    · rcases List.mem_cons.mp h with rfl | h
      · exact List.mem_cons_self
      · exact List.mem_cons_of_mem _ (ih h)

theorem has_firstsFrom {seen : List Nat} {places : List Cursor} {o : Nat}
    (h : Has places o) (ho : o ∉ seen) : Has (firstsFrom seen places) o := by
  induction places generalizing seen with
  | nil =>
    obtain ⟨p, hp, -⟩ := h
    cases hp
  | cons p more ih =>
    rw [firstsFrom]
    obtain ⟨q, hq, rfl⟩ := h
    split
    · next hseen =>
      rcases List.mem_cons.mp hq with rfl | hq
      · exact absurd hseen ho
      · exact ih ⟨q, hq, rfl⟩ ho
    · rcases List.mem_cons.mp hq with rfl | hq
      · exact ⟨q, List.mem_cons_self, rfl⟩
      · by_cases hp : q.offset = p.offset
        · exact ⟨p, List.mem_cons_self, hp.symm⟩
        · have : q.offset ∉ p.offset :: seen := by simp [hp, ho]
          exact (ih ⟨q, hq, rfl⟩ this).mono fun r hr => List.mem_cons_of_mem _ hr

theorem mem_of_mem_firsts {places : List Cursor} {q : Cursor} (h : q ∈ firsts places) :
    q ∈ places := mem_of_mem_firstsFrom h

theorem has_firsts {places : List Cursor} {o : Nat} (h : Has places o) : Has (firsts places) o :=
  has_firstsFrom h (List.not_mem_nil)

theorem mem_note {found : List Cursor} {p q : Cursor} (h : q ∈ note found p) :
    q = p ∨ q ∈ found := by
  unfold note at h
  split at h
  · exact Or.inr h
  · exact List.mem_cons.mp h

theorem mem_note_of_mem {found : List Cursor} {p q : Cursor} (h : q ∈ found) :
    q ∈ note found p := by
  unfold note
  split
  · exact h
  · exact List.mem_cons_of_mem _ h

theorem has_note (found : List Cursor) (p : Cursor) : Has (note found p) p.offset := by
  unfold note
  split
  · next h => exact any_offset_iff.mp h
  · exact ⟨p, List.mem_cons_self, rfl⟩

/-! ### A step and the relation behind it -/

/-- The step lists what the relation reaches: nothing else, and something at each offset.  The
    relation reads on and does not depend on the groups of the place it starts from. -/
structure Lists (step : Cursor → List Cursor) (R : Cursor → Cursor → Prop) : Prop where
  sound : ∀ {p q}, q ∈ step p → R p q
  complete : ∀ {p q}, R p q → Has (step p) q.offset
  ahead : ∀ {p q}, R p q → p.Ahead q
  moved : ∀ {p p' q}, R p q → p.SamePlace p' → ∃ q', R p' q' ∧ q.SamePlace q'

section Search

variable {step : Cursor → List Cursor} {R : Cursor → Cursor → Prop} (h : Lists step R)
include h

theorem Lists.rounds_ahead {n : Nat} {p q : Cursor} (hr : Rounds R n p q) : p.Ahead q := by
  induction n generalizing p with
  | zero =>
    simp only [Rounds] at hr
    subst hr
    exact .refl _
  | succ n ih =>
    obtain ⟨m, hm, hrest⟩ := hr
    exact (h.ahead hm).trans (ih hrest)

theorem Lists.rounds_moved {n : Nat} {p p' q : Cursor} (hr : Rounds R n p q)
    (hp : p.SamePlace p') : ∃ q', Rounds R n p' q' ∧ q.SamePlace q' := by
  induction n generalizing p p' with
  | zero =>
    simp only [Rounds] at hr
    subst hr
    exact ⟨p', rfl, hp⟩
  | succ n ih =>
    obtain ⟨m, hm, hrest⟩ := hr
    obtain ⟨m', hm', hmm⟩ := h.moved hm hp
    obtain ⟨q', hq', hqq⟩ := ih hrest hmm
    exact ⟨q', ⟨m', hm', hq'⟩, hqq⟩

/-- A list of places ahead of `p` and a step that goes on from each of them. -/
theorem Lists.has_flatMap {S : Cursor → Cursor → Prop} {places : List Cursor} {p m q : Cursor}
    (hS : ∀ m ∈ places, S p m) (hahead : ∀ {m}, S p m → p.Ahead m) (hm : S p m)
    (hlisted : Has places m.offset) (hr : R m q) : Has (places.flatMap step) q.offset := by
  obtain ⟨m', hm', ho⟩ := hlisted
  have hsame : m.SamePlace m' := (hahead hm).samePlace (hahead (hS m' hm')) ho.symm
  obtain ⟨q', hq', hqq⟩ := h.moved hr hsame
  obtain ⟨r, hr, hro⟩ := h.complete hq'
  exact ⟨r, List.mem_flatMap.mpr ⟨m', hm', hr⟩, hro.trans hqq.offset.symm⟩

theorem Lists.sound_exactly {n : Nat} {p q : Cursor} (hq : q ∈ exactly step p n) :
    Rounds R n p q := by
  induction n generalizing q with
  | zero => simpa [exactly, Rounds] using hq
  | succ n ih =>
    rw [exactly] at hq
    obtain ⟨m, hm, hq⟩ := List.mem_flatMap.mp (mem_of_mem_firsts hq)
    exact (ih hm).append (rounds_one.mpr (h.sound hq))

theorem Lists.complete_exactly {n : Nat} {p q : Cursor} (hr : Rounds R n p q) :
    Has (exactly step p n) q.offset := by
  induction n generalizing q with
  | zero =>
    simp only [Rounds] at hr
    subst hr
    exact ⟨q, by simp [exactly], rfl⟩
  | succ n ih =>
    obtain ⟨m, hm, hq⟩ := hr.split
    rw [exactly]
    exact has_firsts (h.has_flatMap (fun m hm => h.sound_exactly hm) h.rounds_ahead hm (ih hm)
      (rounds_one.mp hq))

/-- So many rounds lead from the start of the list to a place, given a list of rounds before. -/
theorem Lists.complete_flatMap_exactly {n k : Nat} {p q : Cursor} {next : Cursor → List Cursor}
    (hnext : ∀ {m q}, Rounds R k m q → Has (next m) q.offset) (hr : Rounds R (n + k) p q) :
    Has ((exactly step p n).flatMap next) q.offset := by
  obtain ⟨m, hm, hq⟩ := hr.split
  obtain ⟨m', hm', ho⟩ := h.complete_exactly hm
  have hsame : m.SamePlace m' :=
    (h.rounds_ahead hm).samePlace (h.rounds_ahead (h.sound_exactly hm')) ho.symm
  obtain ⟨q', hq', hqq⟩ := h.rounds_moved hq hsame
  obtain ⟨r, hr, hro⟩ := hnext hq'
  exact ⟨r, List.mem_flatMap.mpr ⟨m', hm', hr⟩, hro.trans hqq.offset.symm⟩

/-! ### Unbounded repetitions -/

/-- Whatever is reached from `p` is still reached with more rounds in front of it. -/
theorem Lists.sound_onward {greedy : Bool} {n : Nat} {p q : Cursor} {found : List Cursor}
    (hq : q ∈ onward step greedy n p found) : q ∈ found ∨ ∃ k, Rounds R k p q := by
  induction n generalizing p found with
  | zero =>
    rcases mem_note hq with rfl | hq
    · exact Or.inr ⟨0, rfl⟩
    · exact Or.inl hq
  | succ n ih =>
    have hfold : ∀ start, q ∈ (step p).foldl (fun found q => if q.offset = p.offset then found
        else onward step greedy n q found) start → q ∈ start ∨ ∃ k, Rounds R k p q := by
      intro start
      refine List.foldlRecOn (step p) _ (motive := fun found =>
        q ∈ found → q ∈ start ∨ ∃ k, Rounds R k p q) Or.inl ?_
      intro found hfound m hm hq
      split at hq
      · exact hfound hq
      · rcases ih hq with hq | ⟨k, hk⟩
        · exact hfound hq
        · exact Or.inr ⟨k + 1, m, h.sound hm, hk⟩
    rw [onward] at hq
    split at hq
    · exact Or.inl hq
    · cases greedy with
      | true =>
        rcases List.mem_cons.mp hq with rfl | hq
        · exact Or.inr ⟨0, rfl⟩
        · exact hfold _ hq
      | false =>
        rcases hfold _ hq with hq | hq
        · rcases List.mem_cons.mp hq with rfl | hq
          · exact Or.inr ⟨0, rfl⟩
          · exact Or.inl hq
        · exact Or.inr hq

/-- The places found from an offset on are closed under rounds that read something. -/
def Closed (step : Cursor → List Cursor) (found : List Cursor) (o : Nat) : Prop :=
  ∀ f ∈ found, o ≤ f.offset → ∀ q ∈ step f, q.offset ≠ f.offset → Has found q.offset

/-- What a search that goes on from `p` makes of the places found before. -/
structure Explored (step : Cursor → List Cursor) (p : Cursor) (found found' : List Cursor) :
    Prop where
  kept : ∀ f ∈ found, f ∈ found'
  new : ∀ f ∈ found', f ∈ found ∨ p.Ahead f
  has : Has found' p.offset
  closed : Closed step found' p.offset

omit h in
theorem Closed.mono {found : List Cursor} {o o' : Nat} (hc : Closed step found o) (ho : o ≤ o') :
    Closed step found o' := fun f hf hle => hc f hf (Nat.le_trans ho hle)

omit h in
/-- Places added below the offset leave the rest closed. -/
theorem Closed.of_new {found found' : List Cursor} {o : Nat} (hc : Closed step found o)
    (hkept : ∀ f ∈ found, f ∈ found') (hnew : ∀ f ∈ found', f ∈ found ∨ f.offset < o) :
    Closed step found' o := by
  intro f hf hle q hq hne
  rcases hnew f hf with hf | hlt
  · exact (hc f hf hle q hq hne).mono hkept
  · omega

/-- One round from `p` to every place that it lists: those at `p` itself are noted by `first`, from
    the others `go` searches on. -/
theorem Lists.explored_fold {p : Cursor} (first : List Cursor → Cursor → List Cursor)
    (go : Cursor → List Cursor → List Cursor)
    (hkept : ∀ found q, ∀ f ∈ found, f ∈ first found q)
    (hnew : ∀ found q, ∀ f ∈ first found q, f = q ∨ f ∈ found)
    (hgo : ∀ q found, R p q → q.offset ≠ p.offset → Closed step found q.offset →
      Explored step q found (go q found))
    (places : List Cursor) (hplaces : ∀ m ∈ places, R p m) {start : List Cursor}
    (hstart : Closed step start (p.offset + 1)) :
    let found' := places.foldl
      (fun found q => if q.offset = p.offset then first found q else go q found) start
    (∀ f ∈ start, f ∈ found') ∧ Closed step found' (p.offset + 1) ∧
      ∀ m ∈ places, m.offset ≠ p.offset ∨ (∀ found, Has (first found m) m.offset) →
        Has found' m.offset := by
  induction places generalizing start with
  | nil => exact ⟨fun f hf => hf, hstart, fun m hm => absurd hm List.not_mem_nil⟩
  | cons m more ih =>
    have hm : R p m := hplaces m List.mem_cons_self
    have hle : p.offset ≤ m.offset := (h.ahead hm).offset_le
    rw [List.foldl_cons]
    split
    · next heq =>
      have hclosed : Closed step (first start m) (p.offset + 1) := by
        refine hstart.of_new (hkept start m) ?_
        intro f hf
        rcases hnew start m f hf with rfl | hf
        · exact Or.inr (by omega)
        · exact Or.inl hf
      obtain ⟨h1, h2, h3⟩ := ih (fun r hr => hplaces r (List.mem_cons_of_mem _ hr)) hclosed
      refine ⟨fun f hf => h1 f (hkept start m f hf), h2, ?_⟩
      intro r hr hhas
      rcases List.mem_cons.mp hr with rfl | hr
      · rcases hhas with hne | hhas
        · exact absurd heq hne
        · exact (hhas start).mono h1
      · exact h3 r hr hhas
    · next hne =>
      have hexp := hgo m start hm hne (hstart.mono (by omega))
      have hclosed : Closed step (go m start) (p.offset + 1) := by
        intro f hf hlt q hq hqf
        rcases hexp.new f hf with hf | hf
        · exact (hstart f hf hlt q hq hqf).mono hexp.kept
        · exact hexp.closed f ‹_› hf.offset_le q hq hqf
      obtain ⟨h1, h2, h3⟩ := ih (fun r hr => hplaces r (List.mem_cons_of_mem _ hr)) hclosed
      refine ⟨fun f hf => h1 f (hexp.kept f hf), h2, ?_⟩
      intro r hr hhas
      rcases List.mem_cons.mp hr with rfl | hr
      · exact hexp.has.mono h1
      · exact h3 r hr hhas

/-- Going on from a place finds it, and leaves everything from there on closed. -/
theorem Lists.explored_onward {greedy : Bool} {n : Nat} {p : Cursor} {found : List Cursor}
    (hn : p.rest.length < n) (hc : Closed step found p.offset) :
    Explored step p found (onward step greedy n p found) := by
  induction n generalizing p found with
  | zero => omega
  | succ n ih =>
    have hnew : ∀ f ∈ onward step greedy (n + 1) p found, f ∈ found ∨ p.Ahead f := by
      intro f hf
      rcases h.sound_onward hf with hf | ⟨k, hk⟩
      · exact Or.inl hf
      · exact Or.inr (h.rounds_ahead hk)
    by_cases hhas : Has found p.offset
    · have heq : onward step greedy (n + 1) p found = found := by
        rw [onward, if_pos (any_offset_iff.mpr hhas)]
      rw [heq] at hnew ⊢
      exact ⟨fun f hf => hf, hnew, hhas, hc⟩
    · have hgo : ∀ q found, R p q → q.offset ≠ p.offset → Closed step found q.offset →
          Explored step q found (onward step greedy n q found) := by
        intro q found hq hne hc
        have hahead := h.ahead hq
        have h1 := hahead.offset_le
        have h2 := hahead.offset_add_length
        exact ih (by omega) hc
      let start := if greedy then found else p :: found
      have hstart : Closed step start (p.offset + 1) := by
        cases greedy with
        | true => exact hc.mono (by omega)
        | false =>
          refine (hc.mono (by omega)).of_new (fun f hf => List.mem_cons_of_mem _ hf) ?_
          intro f hf
          rcases List.mem_cons.mp hf with rfl | hf
          · exact Or.inr (by omega)
          · exact Or.inl hf
      obtain ⟨h1, h2, h3⟩ := h.explored_fold (fun found _ => found) (onward step greedy n)
        (fun _ _ _ hf => hf) (fun _ _ _ hf => Or.inr hf) hgo (step p) (fun m hm => h.sound hm)
        hstart
      let after := (step p).foldl (fun found q => if q.offset = p.offset then found
        else onward step greedy n q found) start
      have heq : onward step greedy (n + 1) p found = if greedy then p :: after else after := by
        rw [onward, if_neg (fun hany => hhas (any_offset_iff.mp hany))]
      have hafter : ∀ f ∈ after, f ∈ onward step greedy (n + 1) p found := by
        intro f hf
        rw [heq]
        split
        · exact List.mem_cons_of_mem _ hf
        · exact hf
      have hp : p ∈ onward step greedy (n + 1) p found := by
        rw [heq]
        cases greedy with
        | true => exact List.mem_cons_self
        | false => exact h1 p List.mem_cons_self
      refine ⟨?_, hnew, ⟨p, hp, rfl⟩, ?_⟩
      · intro f hf
        apply hafter
        apply h1
        cases greedy with
        | true => exact hf
        | false => exact List.mem_cons_of_mem _ hf
      · intro f hf hle q hq hne
        by_cases hfp : f.offset = p.offset
        · -- What is found at the offset of `p` is `p` itself, and all its rounds were tried.
          have hsame : f.SamePlace p := by
            rcases h.sound_onward hf with hf | ⟨k, hk⟩
            · exact absurd ⟨f, hf, hfp⟩ hhas
            · exact ((Cursor.Ahead.refl p).samePlace (h.rounds_ahead hk) hfp.symm).symm
          obtain ⟨q', hq', hqq⟩ := h.moved (h.sound hq) hsame
          obtain ⟨r, hr, hro⟩ := h.complete hq'
          have hrq : r.offset = q.offset := hro.trans hqq.offset.symm
          rw [← hrq]
          exact (h3 r hr (Or.inl (by omega))).mono hafter
        · have hmem : f ∈ after := by
            rw [heq] at hf
            split at hf
            · rcases List.mem_cons.mp hf with rfl | hf
              · exact absurd rfl hfp
              · exact hf
            · exact hf
          exact (h2 f hmem (by omega) q hq hne).mono hafter

/-- Closed places hold whatever rounds lead to from any of them. -/
theorem Lists.has_of_closed {origin : Cursor} {found : List Cursor} {o k : Nat} {f q : Cursor}
    (horigin : ∀ f ∈ found, origin.Ahead f) (hc : Closed step found o) (hf : f ∈ found)
    (hle : o ≤ f.offset) (hr : Rounds R k f q) : Has found q.offset := by
  induction k generalizing f q with
  | zero =>
    simp only [Rounds] at hr
    subst hr
    exact ⟨q, hf, rfl⟩
  | succ k ih =>
    obtain ⟨m, hm, hrest⟩ := hr
    obtain ⟨m', hm', hmo⟩ := h.complete hm
    have hmle : f.offset ≤ m.offset := (h.ahead hm).offset_le
    have hnext : Has found m.offset := by
      by_cases hne : m'.offset = f.offset
      · exact ⟨f, hf, by omega⟩
      · exact hmo ▸ hc f hf hle m' hm' hne
    obtain ⟨g, hg, hgo⟩ := hnext
    have hsame : m.SamePlace g :=
      ((horigin f hf).trans (h.ahead hm)).samePlace (horigin g hg) hgo.symm
    obtain ⟨q', hq', hqq⟩ := h.rounds_moved hrest hsame
    rw [hqq.offset]
    exact ih hg (by omega) hq'

theorem Lists.sound_oneOrMore {greedy : Bool} {p q : Cursor}
    (hq : q ∈ oneOrMore step greedy p) : ∃ k, Rounds R (k + 1) p q := by
  rw [oneOrMore, List.mem_reverse] at hq
  revert hq
  refine List.foldlRecOn (step p) _ (motive := fun found =>
    q ∈ found → ∃ k, Rounds R (k + 1) p q) (fun hq => absurd hq List.not_mem_nil) ?_
  intro found hfound m hm hq
  split at hq
  · rcases mem_note hq with rfl | hq
    · exact ⟨0, rounds_one.mpr (h.sound hm)⟩
    · exact hfound hq
  · rcases h.sound_onward hq with hq | ⟨k, hk⟩
    · exact hfound hq
    · exact ⟨k, m, h.sound hm, hk⟩

theorem Lists.ahead_oneOrMore {greedy : Bool} {p : Cursor} :
    ∀ f ∈ oneOrMore step greedy p, p.Ahead f := by
  intro f hf
  obtain ⟨k, hk⟩ := h.sound_oneOrMore hf
  exact h.rounds_ahead hk

/-- The first round is listed, and everything beyond its start is closed. -/
theorem Lists.closed_oneOrMore (greedy : Bool) (p : Cursor) :
    (∀ m, R p m → Has (oneOrMore step greedy p) m.offset) ∧
      Closed step (oneOrMore step greedy p) (p.offset + 1) := by
  have hmem : ∀ f, f ∈ (step p).foldl (fun found q => if q.offset = p.offset then note found q
      else onward step greedy (q.rest.length + 1) q found) [] →
      f ∈ oneOrMore step greedy p := by
    intro f hf
    rw [oneOrMore, List.mem_reverse]
    exact hf
  have hempty : Closed step [] (p.offset + 1) := fun f hf => absurd hf List.not_mem_nil
  obtain ⟨-, hclosed, hhas⟩ := h.explored_fold note
    (fun q found => onward step greedy (q.rest.length + 1) q found)
    (fun _ _ _ hf => mem_note_of_mem hf) (fun _ _ _ hf => mem_note hf)
    (fun q found _ _ hc => h.explored_onward (by omega) hc) (step p)
    (fun m hm => h.sound hm) hempty
  constructor
  · intro m hm
    obtain ⟨m', hm', hmo⟩ := h.complete hm
    rw [← hmo]
    exact (hhas m' hm' (Or.inr fun found => has_note found m')).mono hmem
  · intro f hf hle q hq hne
    rw [oneOrMore, List.mem_reverse] at hf
    exact (hclosed f hf hle q hq hne).mono hmem

theorem Lists.complete_oneOrMore {greedy : Bool} {k : Nat} {p q : Cursor}
    (hr : Rounds R (k + 1) p q) : Has (oneOrMore step greedy p) q.offset := by
  obtain ⟨hstep, hclosed⟩ := h.closed_oneOrMore greedy p
  induction k generalizing q with
  | zero => exact hstep q (rounds_one.mp hr)
  | succ k ih =>
    obtain ⟨m, hm, hrest⟩ := hr
    by_cases hmp : m.offset = p.offset
    · -- A first round that reads nothing is one round less.
      have hsame : m.SamePlace p := ((Cursor.Ahead.refl p).samePlace (h.ahead hm) hmp.symm).symm
      obtain ⟨q', hq', hqq⟩ := h.rounds_moved hrest hsame
      rw [hqq.offset]
      exact ih hq'
    · obtain ⟨g, hg, hgo⟩ := hstep m hm
      have hle := (h.ahead hm).offset_le
      have hsame : m.SamePlace g := (h.ahead hm).samePlace (h.ahead_oneOrMore g hg) hgo.symm
      obtain ⟨q', hq', hqq⟩ := h.rounds_moved hrest hsame
      rw [hqq.offset]
      exact h.has_of_closed h.ahead_oneOrMore hclosed hg (by omega) hq'

theorem Lists.sound_zeroOrMore {greedy : Bool} {p q : Cursor}
    (hq : q ∈ zeroOrMore step greedy p) : ∃ k, Rounds R k p q := by
  have hor : q ∈ oneOrMore step greedy p ∨ q = p := by
    have hmem := mem_of_mem_firsts hq
    split at hmem
    · simpa using hmem
    · simpa [or_comm] using hmem
  rcases hor with hq | rfl
  · obtain ⟨k, hk⟩ := h.sound_oneOrMore hq
    exact ⟨k + 1, hk⟩
  · exact ⟨0, rfl⟩

theorem Lists.complete_zeroOrMore {greedy : Bool} {k : Nat} {p q : Cursor}
    (hr : Rounds R k p q) : Has (zeroOrMore step greedy p) q.offset := by
  apply has_firsts
  cases k with
  | zero =>
    simp only [Rounds] at hr
    subst hr
    exact ⟨q, by split <;> simp, rfl⟩
  | succ k =>
    have hmore : Has (oneOrMore step greedy p) q.offset := h.complete_oneOrMore hr
    refine hmore.mono ?_
    intro f hf
    split
    · exact List.mem_append_left _ hf
    · exact List.mem_cons_of_mem _ hf

/-! ### Bounded repetitions -/

theorem Lists.sound_upTo {greedy : Bool} {n : Nat} {p q : Cursor} {t : Trail}
    (hq : q ∈ (upTo step greedy n p t).found) : q ∈ t.found ∨ ∃ k ≤ n, Rounds R k p q := by
  induction n generalizing p t with
  | zero =>
    rcases mem_note hq with rfl | hq
    · exact Or.inr ⟨0, Nat.le_refl 0, rfl⟩
    · exact Or.inl hq
  | succ n ih =>
    have hfold : ∀ start : Trail, q ∈ ((step p).foldl (fun t q => upTo step greedy n q t)
        start).found → q ∈ start.found ∨ ∃ k ≤ n + 1, Rounds R k p q := by
      intro start
      refine List.foldlRecOn (step p) _ (motive := fun t : Trail =>
        q ∈ t.found → q ∈ start.found ∨ ∃ k ≤ n + 1, Rounds R k p q) Or.inl ?_
      intro t ht m hm hq
      rcases ih hq with hq | ⟨k, hk, hr⟩
      · exact ht hq
      · exact Or.inr ⟨k + 1, by omega, m, h.sound hm, hr⟩
    rw [upTo] at hq
    split at hq
    · exact Or.inl hq
    · cases greedy with
      | true =>
        rcases mem_note hq with rfl | hq
        · exact Or.inr ⟨0, by omega, rfl⟩
        · have := hfold _ hq
          simpa using this
      | false =>
        rcases hfold _ hq with hq | hq
        · rcases mem_note hq with rfl | hq
          · exact Or.inr ⟨0, by omega, rfl⟩
          · exact Or.inl hq
        · exact Or.inr hq

/-- Where a search with fewer than `n` rounds left has gone on before, it has found everything that
    those rounds lead to. -/
def Covers (R : Cursor → Cursor → Prop) (origin : Cursor) (n : Nat) (t : Trail) : Prop :=
  ∀ m < n, ∀ f, origin.Ahead f → (m, f.offset) ∈ t.tried →
    ∀ k ≤ m + 1, ∀ q, Rounds R k f q → Has t.found q.offset

/-- What a search of at most `n` rounds makes of what was found before. -/
structure Tried (R : Cursor → Cursor → Prop) (origin : Cursor) (n : Nat) (p : Cursor)
    (t t' : Trail) : Prop where
  kept : ∀ f ∈ t.found, f ∈ t'.found
  new : ∀ e ∈ t'.tried, e ∈ t.tried ∨ e.1 < n
  covers : Covers R origin n t'
  has : ∀ k ≤ n, ∀ q, Rounds R k p q → Has t'.found q.offset

omit h in
theorem Tried.fold (greedy : Bool) {origin : Cursor} {n : Nat}
    (ih : ∀ {m t}, origin.Ahead m → Covers R origin n t →
      Tried R origin n m t (upTo step greedy n m t))
    (places : List Cursor) (hplaces : ∀ m ∈ places, origin.Ahead m) {start : Trail}
    (hstart : Covers R origin n start) :
    let t' := places.foldl (fun t q => upTo step greedy n q t) start
    (∀ f ∈ start.found, f ∈ t'.found) ∧ (∀ e ∈ t'.tried, e ∈ start.tried ∨ e.1 < n) ∧
      Covers R origin n t' ∧
      ∀ m ∈ places, ∀ k ≤ n, ∀ q, Rounds R k m q → Has t'.found q.offset := by
  induction places generalizing start with
  | nil => exact ⟨fun f hf => hf, fun e he => Or.inl he, hstart,
      fun m hm => absurd hm List.not_mem_nil⟩
  | cons m more ihp =>
    have hm := ih (hplaces m List.mem_cons_self) hstart
    obtain ⟨h1, h2, h3, h4⟩ := ihp (fun r hr => hplaces r (List.mem_cons_of_mem _ hr)) hm.covers
    refine ⟨fun f hf => h1 f (hm.kept f hf), ?_, h3, ?_⟩
    · intro e he
      rcases h2 e he with he | hlt
      · exact hm.new e he
      · exact Or.inr hlt
    · intro r hr k hk q hq
      rcases List.mem_cons.mp hr with rfl | hr
      · exact (hm.has k hk q hq).mono h1
      · exact h4 r hr k hk q hq

theorem Lists.tried_upTo {greedy : Bool} {origin : Cursor} {n : Nat} {p : Cursor} {t : Trail}
    (hp : origin.Ahead p) (hc : Covers R origin n t) :
    Tried R origin n p t (upTo step greedy n p t) := by
  induction n generalizing p t with
  | zero =>
    refine ⟨fun f hf => mem_note_of_mem hf, fun e he => Or.inl he,
      fun m hm => absurd hm (Nat.not_lt_zero m), ?_⟩
    intro k hk q hq
    obtain rfl : k = 0 := by omega
    simp only [Rounds] at hq
    subst hq
    exact has_note t.found q
  | succ n ih =>
    by_cases htried : (n, p.offset) ∈ t.tried
    · have heq : upTo step greedy (n + 1) p t = t := by rw [upTo, if_pos htried]
      rw [heq]
      exact ⟨fun f hf => hf, fun e he => Or.inl he, hc,
        fun k hk q hq => hc n (Nat.lt_succ_self n) p hp htried k hk q hq⟩
    · let start : Trail := ⟨(n, p.offset) :: t.tried, if greedy then t.found else note t.found p⟩
      have hfound : ∀ f ∈ t.found, f ∈ start.found := by
        intro f hf
        cases greedy with
        | true => exact hf
        | false => exact mem_note_of_mem hf
      have hstart : Covers R origin n start := by
        intro m hm f hf hmem k hk q hq
        rcases List.mem_cons.mp hmem with heq | hmem
        · have : m = n := congrArg Prod.fst heq
          omega
        · exact (hc m (by omega) f hf hmem k hk q hq).mono hfound
      obtain ⟨h1, h2, h3, h4⟩ := Tried.fold greedy ih (step p)
        (fun m hm => hp.trans (h.ahead (h.sound hm))) hstart
      let after := (step p).foldl (fun t q => upTo step greedy n q t) start
      have heq : upTo step greedy (n + 1) p t =
          if greedy then { after with found := note after.found p } else after := by
        rw [upTo, if_neg htried]
      have hafter : ∀ f ∈ after.found, f ∈ (upTo step greedy (n + 1) p t).found := by
        intro f hf
        rw [heq]
        split
        · exact mem_note_of_mem hf
        · exact hf
      have htrieds : (upTo step greedy (n + 1) p t).tried = after.tried := by
        rw [heq]
        split <;> rfl
      have hself : Has (upTo step greedy (n + 1) p t).found p.offset := by
        rw [heq]
        cases greedy with
        | true => exact has_note after.found p
        | false => exact (has_note t.found p).mono h1
      have hhas : ∀ k ≤ n + 1, ∀ q, Rounds R k p q →
          Has (upTo step greedy (n + 1) p t).found q.offset := by
        intro k hk q hq
        cases k with
        | zero =>
          simp only [Rounds] at hq
          subst hq
          exact hself
        | succ k =>
          obtain ⟨m, hm, hrest⟩ := hq
          obtain ⟨m', hm', hmo⟩ := h.complete hm
          have hsame : m.SamePlace m' :=
            (h.ahead hm).samePlace (h.ahead (h.sound hm')) hmo.symm
          obtain ⟨q', hq', hqq⟩ := h.rounds_moved hrest hsame
          rw [hqq.offset]
          exact (h4 m' hm' k (by omega) q' hq').mono hafter
      refine ⟨fun f hf => hafter f (h1 f (hfound f hf)), ?_, ?_, hhas⟩
      · intro e he
        rw [htrieds] at he
        rcases h2 e he with he | hlt
        · rcases List.mem_cons.mp he with rfl | he
          · exact Or.inr (Nat.lt_succ_self n)
          · exact Or.inl he
        · exact Or.inr (by omega)
      · intro m hm f hf hmem k hk q hq
        rw [htrieds] at hmem
        by_cases hmn : m < n
        · exact (h3 m hmn f hf hmem k hk q hq).mono hafter
        · obtain rfl : m = n := by omega
          rcases h2 _ hmem with hmem | hlt
          · rcases List.mem_cons.mp hmem with heq | hmem
            · have hfp : f.offset = p.offset := congrArg Prod.snd heq
              obtain ⟨q', hq', hqq⟩ := h.rounds_moved hq (hf.samePlace hp hfp)
              rw [hqq.offset]
              exact hhas k hk q' hq'
            · exact (hc m hm f hf hmem k hk q hq).mono fun g hg => hafter g (h1 g (hfound g hg))
          · omega

theorem Lists.sound_atMost {greedy : Bool} {n : Nat} {p q : Cursor}
    (hq : q ∈ atMost step greedy n p) : ∃ k ≤ n, Rounds R k p q := by
  rw [atMost, List.mem_reverse] at hq
  rcases h.sound_upTo hq with hq | hq
  · exact absurd hq List.not_mem_nil
  · exact hq

theorem Lists.complete_atMost {greedy : Bool} {n k : Nat} {p q : Cursor} (hk : k ≤ n)
    (hr : Rounds R k p q) : Has (atMost step greedy n p) q.offset := by
  have hnothing : Covers R p n ⟨[], []⟩ := fun m _ f _ hmem => absurd hmem List.not_mem_nil
  have htried : Tried R p n p ⟨[], []⟩ (upTo step greedy n p ⟨[], []⟩) :=
    h.tried_upTo (Cursor.Ahead.refl p) hnothing
  refine (htried.has k hk q hr).mono ?_
  intro f hf
  rw [atMost, List.mem_reverse]
  exact hf

end Search

/-! ### The places of an expression -/

theorem lists_one (set : CharSet) : Lists (Expr.one set).ends (Expr.one set).Reaches where
  sound hq := by simpa [Expr.ends, Expr.Reaches] using hq
  complete hr := by
    rename_i p q
    exact ⟨q, by simpa [Expr.ends, Expr.Reaches] using hr, rfl⟩
  ahead hr := by
    rename_i p q
    obtain ⟨before, rest, offset, groups⟩ := p
    cases rest with
    | nil => simp [Expr.Reaches, Cursor.step?] at hr
    | cons c rest =>
      simp only [Expr.Reaches, Cursor.step?] at hr
      split at hr
      · simp only [Option.some.injEq] at hr
        subst hr
        exact ⟨[c], rfl, rfl, rfl⟩
      · cases hr
  moved hr hp := by
    rename_i p p' q
    obtain ⟨before, rest, offset, groups⟩ := p
    obtain ⟨before', rest', offset', groups'⟩ := p'
    obtain ⟨rfl, rfl, rfl⟩ := hp
    cases rest with
    | nil => simp [Expr.Reaches, Cursor.step?] at hr
    | cons c rest =>
      simp only [Expr.Reaches, Cursor.step?] at hr ⊢
      split at hr
      · next hc =>
        simp only [Option.some.injEq] at hr
        subst hr
        exact ⟨⟨some c, rest, offset + 1, groups'⟩, by rw [if_pos hc], rfl, rfl, rfl⟩
      · cases hr

theorem lists_look (a : Assertion) : Lists (Expr.look a).ends (Expr.look a).Reaches where
  sound hq := by
    simp only [Expr.ends] at hq
    split at hq
    · next ha => exact ⟨ha, by simpa using hq⟩
    · cases hq
  complete hr := by
    obtain ⟨ha, rfl⟩ := hr
    exact ⟨_, by simp [Expr.ends, ha], rfl⟩
  ahead hr := by
    obtain ⟨-, rfl⟩ := hr
    exact .refl _
  moved hr hp := by
    obtain ⟨ha, rfl⟩ := hr
    exact ⟨_, ⟨by rw [← hp.before, ← hp.rest]; exact ha, rfl⟩, hp⟩

theorem lists_group {e : Expr} (h : Lists e.ends e.Reaches) (index : Nat) :
    Lists (Expr.group index e).ends (Expr.group index e).Reaches where
  sound hq := by
    obtain ⟨m, hm, rfl⟩ := List.mem_map.mp hq
    exact ⟨m, h.sound hm, rfl⟩
  complete hr := by
    obtain ⟨m, hm, rfl⟩ := hr
    obtain ⟨m', hm', ho⟩ := h.complete hm
    exact ⟨_, List.mem_map.mpr ⟨m', hm', rfl⟩, ho⟩
  ahead hr := by
    obtain ⟨m, hm, rfl⟩ := hr
    exact (h.ahead hm).trans (.of_samePlace (Cursor.keep_samePlace m _ _).symm)
  moved hr hp := by
    obtain ⟨m, hm, rfl⟩ := hr
    obtain ⟨m', hm', hmm⟩ := h.moved hm hp
    exact ⟨_, ⟨m', hm', rfl⟩, hmm.keep _ _ _ _⟩

theorem lists_seq {a b : Expr} (ha : Lists a.ends a.Reaches) (hb : Lists b.ends b.Reaches) :
    Lists (Expr.seq a b).ends (Expr.seq a b).Reaches where
  sound hq := by
    obtain ⟨m, hm, hq⟩ := List.mem_flatMap.mp (mem_of_mem_firsts hq)
    exact ⟨m, ha.sound hm, hb.sound hq⟩
  complete hr := by
    obtain ⟨m, hm, hq⟩ := hr
    exact has_firsts (hb.has_flatMap (fun m hm => ha.sound hm) ha.ahead hm (ha.complete hm) hq)
  ahead hr := by
    obtain ⟨m, hm, hq⟩ := hr
    exact (ha.ahead hm).trans (hb.ahead hq)
  moved hr hp := by
    obtain ⟨m, hm, hq⟩ := hr
    obtain ⟨m', hm', hmm⟩ := ha.moved hm hp
    obtain ⟨q', hq', hqq⟩ := hb.moved hq hmm
    exact ⟨q', ⟨m', hm', hq'⟩, hqq⟩

theorem lists_alt {a b : Expr} (ha : Lists a.ends a.Reaches) (hb : Lists b.ends b.Reaches) :
    Lists (Expr.alt a b).ends (Expr.alt a b).Reaches where
  sound hq := by
    rcases List.mem_append.mp (mem_of_mem_firsts hq) with hq | hq
    · exact Or.inl (ha.sound hq)
    · exact Or.inr (hb.sound hq)
  complete hr := by
    apply has_firsts
    rcases hr with hr | hr
    · exact (ha.complete hr).mono fun f hf => List.mem_append_left _ hf
    · exact (hb.complete hr).mono fun f hf => List.mem_append_right _ hf
  ahead hr := by
    rcases hr with hr | hr
    · exact ha.ahead hr
    · exact hb.ahead hr
  moved hr hp := by
    rcases hr with hr | hr
    · obtain ⟨q', hq', hqq⟩ := ha.moved hr hp
      exact ⟨q', Or.inl hq', hqq⟩
    · obtain ⟨q', hq', hqq⟩ := hb.moved hr hp
      exact ⟨q', Or.inr hq', hqq⟩

theorem lists_rounds {e : Expr} (h : Lists e.ends e.Reaches) (least : Nat) (most : Option Nat)
    (greedy : Bool) :
    Lists (Expr.rounds e least most greedy).ends (Expr.rounds e least most greedy).Reaches where
  sound hq := by
    rcases most with _ | most
    · rcases least with _ | least
      · obtain ⟨k, hk⟩ := h.sound_zeroOrMore hq
        exact ⟨k, Nat.zero_le k, by simp, hk⟩
      · obtain ⟨m, hm, hq⟩ := List.mem_flatMap.mp (mem_of_mem_firsts hq)
        obtain ⟨k, hk⟩ := h.sound_oneOrMore hq
        exact ⟨least + (k + 1), by omega, by simp, (h.sound_exactly hm).append hk⟩
    · rw [Expr.ends] at hq
      obtain ⟨m, hm, hq⟩ := List.mem_flatMap.mp (mem_of_mem_firsts hq)
      obtain ⟨k, hk, hr⟩ := h.sound_atMost hq
      refine ⟨least + k, by omega, ?_, (h.sound_exactly hm).append hr⟩
      intro m hm
      simp only [Option.mem_some_iff] at hm
      omega
  complete hr := by
    obtain ⟨k, hleast, hmost, hr⟩ := hr
    rcases most with _ | most
    · rcases least with _ | least
      · exact h.complete_zeroOrMore hr
      · obtain ⟨j, rfl⟩ : ∃ j, k = least + (j + 1) := ⟨k - (least + 1), by omega⟩
        exact has_firsts (h.complete_flatMap_exactly h.complete_oneOrMore hr)
    · have hle := hmost most rfl
      obtain ⟨j, rfl⟩ : ∃ j, k = least + j := ⟨k - least, by omega⟩
      rw [Expr.ends]
      exact has_firsts (h.complete_flatMap_exactly (h.complete_atMost (by omega)) hr)
  ahead hr := by
    obtain ⟨k, -, -, hr⟩ := hr
    exact h.rounds_ahead hr
  moved hr hp := by
    obtain ⟨k, hleast, hmost, hr⟩ := hr
    obtain ⟨q', hq', hqq⟩ := h.rounds_moved hr hp
    exact ⟨q', ⟨k, hleast, hmost, hq'⟩, hqq⟩

/-- **The places listed are those reached**, one at each offset. -/
theorem Expr.lists_ends (e : Expr) : Lists e.ends e.Reaches := by
  induction e with
  | empty =>
    refine ⟨?_, ?_, ?_, ?_⟩
    · intro p q hq
      simpa [Expr.ends, Expr.Reaches] using hq
    · rintro p q rfl
      exact ⟨q, by simp [Expr.ends], rfl⟩
    · rintro p q rfl
      exact .refl _
    · rintro p p' q rfl hp
      exact ⟨p', rfl, hp⟩
  | one set => exact lists_one set
  | look a => exact lists_look a
  | group index e ih => exact lists_group ih index
  | seq a b iha ihb => exact lists_seq iha ihb
  | alt a b iha ihb => exact lists_alt iha ihb
  | rounds e least most greedy ih => exact lists_rounds ih least most greedy

theorem reaches_of_mem_ends {e : Expr} {p q : Cursor} (h : q ∈ e.ends p) : e.Reaches p q :=
  e.lists_ends.sound h

theorem exists_mem_ends {e : Expr} {p q : Cursor} (h : e.Reaches p q) :
    ∃ q' ∈ e.ends p, q.SamePlace q' := by
  obtain ⟨q', hq', ho⟩ := e.lists_ends.complete h
  have hahead := e.lists_ends.ahead (reaches_of_mem_ends hq')
  exact ⟨q', hq', (e.lists_ends.ahead h).samePlace hahead ho.symm⟩

/-! ### Whole texts -/

/-- An expression that reads at the start of the text only is tried nowhere else. -/
theorem Expr.find_of_starts {e : Expr} (hstart : ∀ {p q}, e.Reaches p q → p.before = none)
    (text : List Char) : e.find text = (e.ends (Cursor.start text)).head? := by
  have hlater : ∀ rest c offset, e.findFrom (some c) offset rest = none := by
    intro rest
    induction rest with
    | nil =>
      intro c offset
      rw [Expr.findFrom]
      split
      · next p more hp =>
        exact absurd (hstart (reaches_of_mem_ends (hp ▸ List.mem_cons_self))) (by simp)
      · rfl
    | cons d rest ih =>
      intro c offset
      rw [Expr.findFrom]
      split
      · next p more hp =>
        exact absurd (hstart (reaches_of_mem_ends (hp ▸ List.mem_cons_self))) (by simp)
      · exact ih d (offset + 1)
  rw [Expr.find, Expr.findFrom.eq_def]
  cases hp : e.ends (Cursor.start text) with
  | cons p more => simp only [Cursor.start] at hp; simp [hp]
  | nil =>
    simp only [Cursor.start] at hp
    simp only [hp, List.head?_nil]
    cases text with
    | nil => rfl
    | cons c rest => exact hlater rest c _

/-- What a search from the start finds is reached, and it finds something if anything is reached. -/
theorem Expr.find_reaches {e : Expr} (hstart : ∀ {p q}, e.Reaches p q → p.before = none)
    {text : List Char} :
    (∀ q, e.find text = some q → e.Reaches (Cursor.start text) q) ∧
      ((e.find text).isSome ↔ ∃ q, e.Reaches (Cursor.start text) q) := by
  rw [e.find_of_starts hstart]
  refine ⟨fun q hq => reaches_of_mem_ends (List.mem_of_head? hq), ?_, ?_⟩
  · intro h
    obtain ⟨q, hq⟩ := Option.isSome_iff_exists.mp h
    exact ⟨q, reaches_of_mem_ends (List.mem_of_head? hq)⟩
  · rintro ⟨q, hq⟩
    obtain ⟨q', hq', -⟩ := exists_mem_ends hq
    rw [List.isSome_head?]
    exact List.ne_nil_of_mem hq'

end RequestRouter.Regex
