/-
  RequestRouter/Proofs/Regex/Whole.lean
  =====================================
  **Reading the whole of a text, alone and behind another text.**

  Of what precedes a text an expression sees little: whether it is a word character and whether it is
  a carriage return, unless it asks for the start of the text or of a line.  Behind a character that
  is neither it goes the same ways as at the start, and so does an expression that keeps its groups
  under other indices (`Regrouped.reaches`).
-/
import RequestRouter.Proofs.Regex.Takes

namespace RequestRouter.Regex

/-! ### Sequences -/

/-- The expressions lead from one place to the other, one after the other. -/
def Expr.ReachesAll : List Expr → Cursor → Cursor → Prop
  | [], p, q => q = p
  | e :: more, p, q => ∃ m, e.Reaches p m ∧ ReachesAll more m q

theorem reaches_foldl_seq (more : List Expr) (e : Expr) (p q : Cursor) :
    (more.foldl .seq e).Reaches p q ↔ Expr.ReachesAll (e :: more) p q := by
  induction more generalizing e with
  | nil =>
    constructor
    · intro h
      exact ⟨q, h, rfl⟩
    · rintro ⟨m, h, rfl⟩
      exact h
  | cons e' more ih =>
    rw [List.foldl_cons, ih]
    constructor
    · rintro ⟨m, ⟨m', h, h'⟩, hmore⟩
      exact ⟨m', h, m, h', hmore⟩
    · rintro ⟨m', h, m, h', hmore⟩
      exact ⟨m, ⟨m', h, h'⟩, hmore⟩

theorem reaches_seqs (es : List Expr) (p q : Cursor) :
    (Expr.seqs es).Reaches p q ↔ Expr.ReachesAll es p q := by
  cases es with
  | nil => exact Iff.rfl
  | cons e more => exact reaches_foldl_seq more e p q

theorem reachesAll_append (a b : List Expr) (p q : Cursor) :
    Expr.ReachesAll (a ++ b) p q ↔
      ∃ m, Expr.ReachesAll a p m ∧ Expr.ReachesAll b m q := by
  induction a generalizing p with
  | nil =>
    constructor
    · intro h
      exact ⟨p, rfl, h⟩
    · rintro ⟨m, rfl, h⟩
      exact h
  | cons e a ih =>
    constructor
    · rintro ⟨m, h, hmore⟩
      obtain ⟨m', hm', hq⟩ := (ih m).mp hmore
      exact ⟨m', ⟨m, h, hm'⟩, hq⟩
    · rintro ⟨m', ⟨m, h, hm'⟩, hq⟩
      exact ⟨m, h, (ih m).mpr ⟨m', hm', hq⟩⟩

/-! ### Surroundings -/

/-- Whether the expression never asks for the start of the text or of a line. -/
def Expr.startFree : Expr → Bool
  | .look .textStart => false
  | .look (.lineStart _) => false
  | .look _ | .empty | .one _ => true
  | .group _ e | .rounds e _ _ _ => e.startFree
  | .seq a b | .alt a b => a.startFree && b.startFree

/-- The expressions differ at most in the indices of their groups. -/
inductive Expr.Regrouped : Expr → Expr → Prop
  | empty : Regrouped .empty .empty
  | one (set : CharSet) : Regrouped (.one set) (.one set)
  | look (a : Assertion) : Regrouped (.look a) (.look a)
  | group {e e' : Expr} (index index' : Nat) : Regrouped e e' →
      Regrouped (.group index e) (.group index' e')
  | seq {a a' b b' : Expr} : Regrouped a a' → Regrouped b b' → Regrouped (.seq a b) (.seq a' b')
  | alt {a a' b b' : Expr} : Regrouped a a' → Regrouped b b' → Regrouped (.alt a b) (.alt a' b')
  | rounds {e e' : Expr} (least : Nat) (most : Option Nat) (greedy : Bool) : Regrouped e e' →
      Regrouped (.rounds e least most greedy) (.rounds e' least most greedy)

namespace Expr.Regrouped

variable {e e' : Expr}

theorem symm (h : e.Regrouped e') : e'.Regrouped e := by
  induction h with
  | empty => exact .empty
  | one set => exact .one set
  | look a => exact .look a
  | group index index' _ ih => exact .group index' index ih
  | seq _ _ iha ihb => exact .seq iha ihb
  | alt _ _ iha ihb => exact .alt iha ihb
  | rounds least most greedy _ ih => exact .rounds least most greedy ih

theorem startFree (h : e.Regrouped e') : e'.startFree = e.startFree := by
  induction h with
  | empty => rfl
  | one set => rfl
  | look a => rfl
  | group _ _ _ ih => exact ih
  | seq _ _ iha ihb => rw [Expr.startFree, Expr.startFree, iha, ihb]
  | alt _ _ iha ihb => rw [Expr.startFree, Expr.startFree, iha, ihb]
  | rounds _ _ _ _ ih => exact ih

end Expr.Regrouped

namespace Cursor

/-- The same text is left, and what precedes it looks the same but for the start. -/
structure Alike (p p' : Cursor) : Prop where
  rest : p.rest = p'.rest
  word : ∀ unicode, wordAt unicode p.before = wordAt unicode p'.before
  carriage : (p.before != some '\r') = (p'.before != some '\r')

theorem Alike.symm {p p' : Cursor} (h : p.Alike p') : p'.Alike p :=
  ⟨h.rest.symm, fun unicode => (h.word unicode).symm, h.carriage.symm⟩

theorem Alike.keep {p p' : Cursor} (h : p.Alike p') (index index' : Nat) (o o' : Cursor) :
    (p.keep index o).Alike (p'.keep index' o') :=
  ⟨h.rest, h.word, h.carriage⟩

end Cursor

open Cursor

/-- An assertion that does not ask for a start sees no difference. -/
theorem holds_alike {a : Assertion} (hfree : (Expr.look a).startFree = true) {p p' : Cursor}
    (h : p.Alike p') : a.holds p.before p.rest = a.holds p'.before p'.rest := by
  obtain ⟨hrest, hword, hcarriage⟩ := h
  cases a with
  | textStart => cases hfree
  | lineStart crlf => cases hfree
  | textEnd => rw [Assertion.holds, Assertion.holds, hrest]
  | lineEnd crlf =>
    cases crlf with
    | false => rw [Assertion.holds, Assertion.holds, hrest]
    | true => rw [Assertion.holds, Assertion.holds, hrest, hcarriage]
  | boundary u => rw [Assertion.holds, Assertion.holds, hrest, hword]
  | noBoundary u => rw [Assertion.holds, Assertion.holds, hrest, hword]
  | wordStart u => rw [Assertion.holds, Assertion.holds, hrest, hword]
  | wordEnd u => rw [Assertion.holds, Assertion.holds, hrest, hword]
  | wordStartHalf u => rw [Assertion.holds, Assertion.holds, hword]
  | wordEndHalf u => rw [Assertion.holds, Assertion.holds, hrest]

theorem rounds_alike {R R' : Cursor → Cursor → Prop}
    (h : ∀ {p p' q}, R p q → p.Alike p' → ∃ q', R' p' q' ∧ q.Alike q') {n : Nat} {p p' q : Cursor}
    (hr : Rounds R n p q) (hp : p.Alike p') : ∃ q', Rounds R' n p' q' ∧ q.Alike q' := by
  induction n generalizing p p' with
  | zero =>
    obtain rfl : q = p := hr
    exact ⟨p', rfl, hp⟩
  | succ n ih =>
    obtain ⟨m, hm, hmore⟩ := hr
    obtain ⟨m', hm', hmm⟩ := h hm hp
    obtain ⟨q', hq', hqq⟩ := ih hmore hmm
    exact ⟨q', ⟨m', hm', hq'⟩, hqq⟩

/-- **An expression that does not ask for a start goes the same ways from places that are alike**, and
    so does one with its groups under other indices. -/
theorem Expr.Regrouped.reaches {e e' : Expr} (h : e.Regrouped e') (hfree : e.startFree = true)
    {p p' q : Cursor} (hq : e.Reaches p q) (hp : p.Alike p') :
    ∃ q', e'.Reaches p' q' ∧ q.Alike q' := by
  induction h generalizing p p' q with
  | empty =>
    obtain rfl : q = p := hq
    exact ⟨p', rfl, hp⟩
  | one set =>
    simp only [Expr.Reaches, Cursor.step?] at hq ⊢
    rw [← hp.rest]
    split at hq
    · cases hq
    · next c rest hrest =>
      split at hq
      · next hc =>
        cases hq
        exact ⟨⟨some c, rest, p'.offset + 1, p'.groups⟩, if_pos hc, rfl, fun _ => rfl, rfl⟩
      · cases hq
  | look a =>
    obtain ⟨hholds, rfl⟩ := hq
    exact ⟨p', ⟨holds_alike hfree hp ▸ hholds, rfl⟩, hp⟩
  | group index index' _ ih =>
    obtain ⟨m, hm, rfl⟩ := hq
    obtain ⟨m', hm', hmm⟩ := ih hfree hm hp
    exact ⟨m'.keep index' p', ⟨m', hm', rfl⟩, hmm.keep index index' p p'⟩
  | seq _ _ iha ihb =>
    rw [Expr.startFree, Bool.and_eq_true] at hfree
    obtain ⟨m, hm, hq⟩ := hq
    obtain ⟨m', hm', hmm⟩ := iha hfree.1 hm hp
    obtain ⟨q', hq', hqq⟩ := ihb hfree.2 hq hmm
    exact ⟨q', ⟨m', hm', hq'⟩, hqq⟩
  | alt _ _ iha ihb =>
    rw [Expr.startFree, Bool.and_eq_true] at hfree
    rcases hq with hq | hq
    · obtain ⟨q', hq', hqq⟩ := iha hfree.1 hq hp
      exact ⟨q', .inl hq', hqq⟩
    · obtain ⟨q', hq', hqq⟩ := ihb hfree.2 hq hp
      exact ⟨q', .inr hq', hqq⟩
  | rounds least most greedy _ ih =>
    obtain ⟨n, hleast, hmost, hr⟩ := hq
    obtain ⟨q', hq', hqq⟩ := rounds_alike (fun h hp => ih hfree h hp) hr hp
    exact ⟨q', ⟨n, hleast, hmost, hq'⟩, hqq⟩

end RequestRouter.Regex
