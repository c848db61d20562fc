/-
  RequestRouter/Proofs/Unicode/Folding.lean
  =========================================
  **Case variants are the characters with the same representative.**

  A set closed under case is asked about the variants of a character, which are found by going through
  the table of foldings backwards.  That this is the equivalence of having the same representative
  rests on two facts about the table: no code point is in two of its runs, and no representative is in
  any of them.
-/
import Mathlib.Data.List.Basic
import RequestRouter.Regex.CharSet

namespace RequestRouter.Unicode

/-- Whether no image of the one run lies in the other: the intervals are apart, or one takes the even
    and the other the odd code points. -/
def FoldRun.apart (r r' : FoldRun) : Bool :=
  (r.image + (r.last - r.first)).blt r'.first || r'.last.blt r.image ||
    (r'.step.beq 2 && (r.step.beq 2 || r.first.beq r.last) && ((r.image + r'.first) % 2).beq 1)

/-- Whether a run ends before another begins. -/
def FoldRun.Before (r r' : FoldRun) : Prop := r.first ≤ r.last ∧ r.last < r'.first

instance : DecidableRel FoldRun.Before := fun _ _ => inferInstanceAs (Decidable (_ ∧ _))

instance : IsTrans FoldRun FoldRun.Before where
  trans _ _ _ h h' := ⟨h.1, by have := h.2; have := h'.1; have := h'.2; omega⟩

theorem foldRuns_ascending : foldRuns.Pairwise FoldRun.Before := by
  have hchain : foldRuns.IsChain FoldRun.Before := by decide +kernel
  exact List.isChain_iff_pairwise.mp hchain

theorem foldRuns_apart {r r' : FoldRun} (hr : r ∈ foldRuns) (hr' : r' ∈ foldRuns) :
    r.apart r' = true := by
  have hall : (foldRuns.all fun r => foldRuns.all fun r' => r.apart r') = true := by decide +kernel
  exact List.all_eq_true.mp (List.all_eq_true.mp hall r hr) r' hr'

theorem foldRuns_ordered : ∀ r ∈ foldRuns, r.first ≤ r.last := by
  decide +kernel

theorem FoldRun.image?_eq_some {r : FoldRun} {n m : Nat} :
    r.image? n = some m ↔
      (r.first ≤ n ∧ n ≤ r.last ∧ (n - r.first) % r.step = 0) ∧ r.image + (n - r.first) = m := by
  unfold image?
  split
  · next h => simp [h]
  · next h =>
    constructor
    · intro hnone
      cases hnone
    · rintro ⟨hin, -⟩
      exact absurd hin h

theorem FoldRun.preimage?_eq_some {r : FoldRun} (h : r.first ≤ r.last) {n m : Nat} :
    r.preimage? m = some n ↔ r.image? n = some m := by
  rw [image?_eq_some]
  unfold preimage?
  split
  · next hin =>
    rw [Option.some.injEq]
    constructor
    · rintro rfl
      obtain ⟨h1, h2, h3⟩ := hin
      rw [Nat.add_sub_cancel_left]
      refine ⟨⟨?_, ?_, h3⟩, ?_⟩
      · omega
      · omega
      · omega
    · rintro ⟨⟨h1, h2, h3⟩, rfl⟩
      omega
  · next hout =>
    constructor
    · intro hnone
      cases hnone
    · rintro ⟨⟨h1, h2, h3⟩, rfl⟩
      refine absurd ⟨?_, ?_, ?_⟩ hout
      · omega
      · omega
      · rwa [Nat.add_sub_cancel_left]

/-- A code point of a run is found in it. -/
theorem findSome?_image? {runs : List FoldRun} (hruns : runs.Pairwise FoldRun.Before)
    {r : FoldRun} (hr : r ∈ runs) {n m : Nat} (h : r.image? n = some m) :
    runs.findSome? (·.image? n) = some m := by
  induction runs with
  | nil => cases hr
  | cons r' runs ih =>
    rw [List.pairwise_cons] at hruns
    rcases List.mem_cons.mp hr with rfl | hr
    · rw [List.findSome?_cons, h]
    · obtain ⟨-, hlater⟩ := hruns.1 r hr
      have hnone : r'.image? n = none := by
        rw [Option.eq_none_iff_forall_ne_some]
        intro m' hm'
        have h1 := (FoldRun.image?_eq_some.mp h).1
        have h2 := (FoldRun.image?_eq_some.mp hm').1
        omega
      rw [List.findSome?_cons, hnone]
      exact ih hruns.2 hr

theorem foldCode_of_image? {r : FoldRun} (hr : r ∈ foldRuns) {n m : Nat}
    (h : r.image? n = some m) : foldCode n = m := by
  rw [foldCode, findSome?_image? foldRuns_ascending hr h]
  rfl

/-- A code point is its own representative or lies in a run. -/
theorem foldCode_cases (n : Nat) :
    foldCode n = n ∨ ∃ r ∈ foldRuns, r.image? n = some (foldCode n) := by
  cases h : foldRuns.findSome? (·.image? n) with
  | none =>
    refine Or.inl ?_
    rw [foldCode, h]
    rfl
  | some m =>
    obtain ⟨r, hr, hm⟩ := List.exists_of_findSome?_eq_some h
    refine Or.inr ⟨r, hr, ?_⟩
    rw [hm, foldCode, h]
    rfl

/-- A representative stands for itself. -/
theorem foldCode_foldCode (n : Nat) : foldCode (foldCode n) = foldCode n := by
  rcases foldCode_cases n with h | ⟨r, hr, h⟩
  · rw [h]
    exact h
  · rcases foldCode_cases (foldCode n) with h' | ⟨r', hr', h'⟩
    · exact h'
    · -- The representative would be an image of one run inside another.
      have hapart := foldRuns_apart hr hr'
      obtain ⟨⟨h1, h2, h3⟩, h4⟩ := FoldRun.image?_eq_some.mp h
      obtain ⟨⟨h5, h6, h7⟩, -⟩ := FoldRun.image?_eq_some.mp h'
      simp only [FoldRun.apart, Bool.or_eq_true, Bool.and_eq_true, Nat.blt_eq, Nat.beq_eq] at hapart
      rcases hapart with (hlow | hhigh) | ⟨⟨hstep', hstep⟩, hodd⟩
      · omega
      · omega
      · rw [hstep'] at h7
        rcases hstep with hstep | hsingle
        · rw [hstep] at h3
          omega
        · omega

theorem mem_variantCodes {n m : Nat} : n ∈ variantCodes m ↔ foldCode n = foldCode m := by
  rw [variantCodes, List.mem_cons, List.mem_filterMap]
  constructor
  · rintro (rfl | ⟨r, hr, h⟩)
    · exact foldCode_foldCode m
    · exact foldCode_of_image? hr ((FoldRun.preimage?_eq_some (foldRuns_ordered r hr)).mp h)
  · intro h
    rcases foldCode_cases n with hself | ⟨r, hr, himage⟩
    · exact Or.inl (hself.symm.trans h)
    · rw [h] at himage
      exact Or.inr ⟨r, hr, (FoldRun.preimage?_eq_some (foldRuns_ordered r hr)).mpr himage⟩

/-- **The set of a character closed under case** holds the characters that are equal to it up to
    case. -/
theorem contains_folded_ofChar (c d : Char) :
    (Regex.CharSet.folded (.ofChar c)).contains d = sameFold c d := by
  rw [Bool.eq_iff_iff]
  change (variantCodes d.toNat).any (fun n => n == c.toNat) = true ↔ (fold c == fold d) = true
  rw [List.any_eq_true, beq_iff_eq]
  constructor
  · rintro ⟨n, hn, hc⟩
    rw [beq_iff_eq] at hc
    subst hc
    exact mem_variantCodes.mp hn
  · intro h
    exact ⟨c.toNat, mem_variantCodes.mpr h, beq_self_eq_true _⟩

/-- A character without other variants is equal to itself only. -/
theorem sameFold_of_single {c d : Char} (h : variantCodes c.toNat = [c.toNat]) :
    sameFold c d = true ↔ d = c := by
  constructor
  · intro hfold
    have hcode : fold c = fold d := by simpa [sameFold] using hfold
    have hmem : d.toNat ∈ variantCodes c.toNat := mem_variantCodes.mpr hcode.symm
    rw [h, List.mem_singleton] at hmem
    exact Char.ext (UInt32.toNat_inj.mp hmem)
  · rintro rfl
    exact sameFold_refl d

theorem sameFold_slash {d : Char} : sameFold '/' d = true ↔ d = '/' :=
  sameFold_of_single (by decide +kernel)

theorem sameFold_dot {d : Char} : sameFold '.' d = true ↔ d = '.' :=
  sameFold_of_single (by decide +kernel)

end RequestRouter.Unicode
