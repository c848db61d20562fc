/-
  RequestRouter/Proofs/Pattern/Strictness.lean
  ============================================
  **Leaving strict mode loses no match.**

  The strict text of a spec and the text that leaves its last slash open are the same but for what
  stands between the pattern and the end of the anchored text (`anchored_ends`).  That holds of every
  spec, also of one that ends in the middle of an escape, so the comparison of texts that differ in
  their ends applies to every pair of patterns.
-/
import RequestRouter.Proofs.Regex.LooseEnds
import RequestRouter.Proofs.Spec.Ending
import RequestRouter.Pattern

namespace RequestRouter.Pattern

open RequestRouter.Regex RequestRouter.Spec

/-- A compiled pattern is the expression of its anchored text. -/
theorem exists_of_compile {options : CompileOptions} {spec : String} {p : Pattern}
    (h : compile options spec = .ok p) :
    ∃ text, patternFor (textFor options spec.toList) = some text ∧
      parse { ignoreCase := !options.caseSensitive } (anchored text) = .ok p.expr := by
  unfold compile at h
  split at h
  · cases h
  · next source hsource =>
    simp only at h
    split at h
    · cases h
    · next expr hcompile =>
      split at h
      · cases h
        exact ⟨source.pattern, patternFor_of_compile hsource, parse_of_compile hcompile⟩
      · cases h

/-- The strict text and the text that is not strict are the same up to their ends, or altogether. -/
theorem anchored_ends {spec strict loose : List Char} (hstrict : patternFor spec = some strict)
    (hloose : patternFor (withOptionalSlash spec) = some loose) :
    strict = loose ∨ ∃ front stop, StrictEnd stop ∧ anchored strict = front ++ stop ∧
      anchored loose = front ++ looseEnd := by
  rcases withOptionalSlash_cases spec with hsame | ⟨front, hfront, hspec⟩
  · rw [hsame, hstrict] at hloose
    exact .inl (Option.some.inj hloose)
  · have hend : IsEnd ['/', '?'] := by simp [IsEnd]
    rw [hfront] at hloose
    obtain ⟨text, htext, rfl⟩ := patternFor_append hend (by decide) hloose
    have hanchored : ∀ tail, anchored (text ++ tail) =
        (['^', '(', '?', ':'] ++ text) ++ (tail ++ [')', '$']) := by
      simp [anchored]
    refine .inr ⟨['^', '(', '?', ':'] ++ text, ?_⟩
    rcases hspec with rfl | rfl
    · rw [htext] at hstrict
      cases hstrict
      refine ⟨[')', '$'], .bare, ?_, hanchored _⟩
      simpa using hanchored []
    · obtain ⟨text', htext', rfl⟩ := patternFor_append (by simp [IsEnd]) (by decide) hstrict
      rw [htext] at htext'
      cases htext'
      exact ⟨['/', ')', '$'], .slash, hanchored _, hanchored _⟩

/-- **Leaving strict mode loses no match.**  Whatever the strict pattern of a spec matches, the pattern
    that is not strict matches as well. -/
theorem captures_of_strict {caseSensitive : Bool} {budget : Budget} {spec : String} {p q : Pattern}
    (hp : compile ⟨caseSensitive, true, budget⟩ spec = .ok p)
    (hq : compile ⟨caseSensitive, false, budget⟩ spec = .ok q)
    (path : String) (h : (p.captures path).isSome) : (q.captures path).isSome := by
  obtain ⟨strict, hstrict, hparse⟩ := exists_of_compile hp
  obtain ⟨loose, hloose, hparse'⟩ := exists_of_compile hq
  have hwithin : p.expr.Within q.expr := by
    rcases anchored_ends hstrict hloose with rfl | ⟨front, stop, hstop, hfront, hfront'⟩
    · rw [Except.ok.inj (hparse.symm.trans hparse')]
      exact .refl _
    · rw [hfront] at hparse
      rw [hfront'] at hparse'
      exact within_of_parse hstop hparse hparse'
  unfold captures at h ⊢
  rw [Option.isSome_map] at h ⊢
  exact hwithin.isSome_find h

/-- A spec that ends with an escaped slash, which is optional in the second pattern. -/
theorem captures_of_strict_escaped :
    ∃ p q, compile { caseSensitive := true, strict := true } "/users/:id(\\d+)\\/" = .ok p ∧
      compile { caseSensitive := true } "/users/:id(\\d+)\\/" = .ok q ∧
      (p.captures "/users/7/").isSome ∧ (q.captures "/users/7/").isSome := by
  have hstrict : ((compile { caseSensitive := true, strict := true } "/users/:id(\\d+)\\/").toOption.map fun p =>
      (p.captures "/users/7/").isSome) = some true := by decide
  have hloose : (compile { caseSensitive := true } "/users/:id(\\d+)\\/").toOption.isSome := by decide
  cases hp : compile { caseSensitive := true, strict := true } "/users/:id(\\d+)\\/" with
  | error e =>
    rw [hp] at hstrict
    cases hstrict
  | ok p =>
    cases hq : compile { caseSensitive := true } "/users/:id(\\d+)\\/" with
    | error e =>
      rw [hq] at hloose
      cases hloose
    | ok q =>
      rw [hp] at hstrict
      have hmatch : (p.captures "/users/7/").isSome := Option.some.inj hstrict
      exact ⟨p, q, rfl, rfl, hmatch, captures_of_strict hp hq _ hmatch⟩

end RequestRouter.Pattern
