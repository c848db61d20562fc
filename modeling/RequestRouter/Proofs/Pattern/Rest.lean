/-
  RequestRouter/Proofs/Pattern/Rest.lean
  ======================================
  **Wildcards that take the rest of a path.**

  Behind literal segments a spec can end with `/*` or `/:name*`.  Both come to the same expression, a
  slash and a kept greedy run up to a line feed.  So a rest with a line feed is not matched at all.
  Any other rest is taken as a whole: unless strict there is a second reading that leaves a last slash
  to the end of the pattern, but the greedy run tries the end of the path first
  (`kept_of_firstAll_wildcard`).
-/
import RequestRouter.Proofs.Pattern.Behind
import RequestRouter.Proofs.Pattern.Optional

namespace RequestRouter.Pattern

open RequestRouter.Regex RequestRouter.Spec RequestRouter.Unicode

/-- What takes the rest of a path. -/
inductive Wildcard where
  | anonymous
  | named (name : List Char)

namespace Wildcard

/-- The wildcard as it is written behind its slash. -/
def text : Wildcard → List Char
  | .anonymous => ['*']
  | .named name => ':' :: (name ++ ['*'])

def WellFormed : Wildcard → Prop
  | .anonymous => True
  | .named name => IsName name

/-- The wildcard and its slash as elements of a spec. -/
def elements : Wildcard → List Element
  | .anonymous => [.char '/', .star]
  | .named name => [.param ⟨true, false, name, none, false, true⟩]

/-- The parameters of a path with this rest. -/
def params (rest : List Char) : Wildcard → Params
  | .anonymous => ⟨[], [String.ofList rest]⟩
  | .named name => ⟨[⟨String.ofList name, [String.ofList rest]⟩], []⟩

end Wildcard

/-- The spec of literal segments and a wildcard. -/
def wildcardSpec (texts : List (List Char)) (w : Wildcard) : String :=
  String.ofList (slashed texts ++ '/' :: w.text)

variable {ic strict : Bool} {texts pieces : List (List Char)} {w : Wildcard} {rest : List Char}

/-! ### The spec -/

theorem text_wildcard (w : Wildcard) : w.elements.flatMap Element.text = '/' :: w.text := by
  cases w with
  | anonymous => rfl
  | named name => simp [Wildcard.elements, Wildcard.text, Element.text, Token.text, Token.lead]

theorem wildcardSpec_eq (texts : List (List Char)) (w : Wildcard) :
    wildcardSpec texts w = specBehind texts w.elements := by
  rw [wildcardSpec, specBehind, text_wildcard]

theorem laid_wildcard (hw : w.WellFormed) (strict : Bool) : Laid (w.elements ++ endOf strict) := by
  cases w with
  | anonymous =>
    refine ⟨⟨by decide, readToken?_slash (by simp [Element.text]) ?_⟩, trivial, laid_endOf strict⟩
    intro more hmore
    cases hmore
  | named name =>
    refine ⟨⟨rfl, readToken?_text rfl hw.1 hw.2 ?_⟩, laid_endOf strict⟩
    intro c hc
    obtain rfl := head?_endOf hc
    exact ⟨isWord_slash, by decide⟩

/-- What a wildcard takes. -/
theorem takeAll_wildcard {s : List Char} {vs : List Value} :
    TakeAll ic w.elements s vs ↔ ∃ v, s = '/' :: v ∧ '\n' ∉ v ∧ vs = [some v] := by
  cases w with
  | anonymous =>
    constructor
    · rintro ⟨s₁, s₂, v₁, v₂, hslash, hstar, rfl, rfl⟩
      obtain ⟨rfl, rfl⟩ := takes_slash.mp hslash
      obtain ⟨hline, rfl⟩ := takeAll_singleton.mp hstar
      exact ⟨s₂, rfl, hline, rfl⟩
    · rintro ⟨v, rfl, hline, rfl⟩
      exact ⟨['/'], v, [], [some v], takes_slash.mpr ⟨rfl, rfl⟩, takeAll_singleton.mpr ⟨hline, rfl⟩,
        rfl, rfl⟩
  | named name =>
    rw [Wildcard.elements, takeAll_singleton]
    constructor
    · rintro (⟨hoptional, -, -⟩ | ⟨v, rfl, hline, rfl⟩)
      · cases hoptional
      · exact ⟨v, rfl, hline, rfl⟩
    · rintro ⟨v, rfl, hline, rfl⟩
      exact Or.inr ⟨v, rfl, hline, rfl⟩

theorem ending_wildcard (hw : w.WellFormed) : Ending w.elements where
  laid := laid_wildcard hw
  written := ⟨_, text_wildcard w⟩
  takes := by
    intro ic s vs h
    obtain ⟨v, rfl, -, -⟩ := takeAll_wildcard.mp h
    exact ⟨v, rfl⟩
  mark := by
    intro c hc
    have hstar : ('/' :: w.text).getLast? = some '*' := by
      cases w <;> simp [Wildcard.text, List.getLast?_cons]
    rw [text_wildcard, hstar] at hc
    obtain rfl := Option.some.inj hc
    decide
  spread := by
    cases w with
    | anonymous => exact Nat.le_refl 1
    | named name => exact Nat.le_refl 0

/-! ### Readings -/

/-- There is a reading if the rest has no line feed. -/
theorem exists_takeAll_wildcard :
    (∃ vs, TakeAll ic (w.elements ++ endOf strict) ('/' :: rest) vs) ↔ '\n' ∉ rest := by
  constructor
  · rintro ⟨vs, h⟩
    obtain ⟨s₁, tail, v₁, v₂, hwildcard, hend, hs, -⟩ := (takeAll_append _ _ _ _).mp h
    obtain ⟨v, rfl, hline, -⟩ := takeAll_wildcard.mp hwildcard
    obtain rfl : rest = v ++ tail := (List.cons.inj hs).2
    rw [List.mem_append]
    rintro (hmem | hmem)
    · exact hline hmem
    · rcases (takeAll_endOf.mp hend).1 with rfl | ⟨-, rfl⟩
      · cases hmem
      · exact absurd hmem (by decide)
  · intro hline
    refine ⟨[some rest], (takeAll_append _ _ _ _).mpr ⟨'/' :: rest, [], [some rest], [], ?_, ?_, ?_, rfl⟩⟩
    · exact takeAll_wildcard.mpr ⟨rest, rfl, hline, rfl⟩
    · exact takeAll_endOf.mpr ⟨Or.inl rfl, rfl⟩
    · exact (List.append_nil _).symm

/-- Both wildcards are a slash and a kept greedy run. -/
theorem exprsFrom_wildcard (w : Wildcard) (g : Nat) (more : List Element) :
    exprsFrom ic g (w.elements ++ more) =
      .one (charSet ic '/') :: .group (g + 1) (.rounds (.one lineSet) 0 none true) ::
        exprsFrom ic (g + 1) more := by
  cases w <;> rfl

/-- **The run takes the whole of the rest**, a slash at its end included. -/
theorem kept_of_firstAll_wildcard {g : Nat} {p q : Cursor} (hrest : p.rest = '/' :: rest)
    (hline : '\n' ∉ rest)
    (h : Expr.firstAll (exprsFrom ic g (w.elements ++ endOf strict)) Cursor.atEnd p = some q) :
    q.kept = (g + 1, rest) :: p.kept := by
  rw [exprsFrom_wildcard, Expr.firstAll, Expr.firstAll] at h
  obtain ⟨m, hslash, hrun⟩ := exists_of_first h
  obtain ⟨s, gs, hs, htakes⟩ := takes_of_reaches rfl hslash
  obtain ⟨d, rfl, -, rfl⟩ := takes_char.mp hs
  have hm : m.rest = rest := by
    have := htakes.reads.rest
    rw [hrest] at this
    exact (List.cons.inj this).2.symm
  have hall : ∀ c ∈ m.rest, lineSet.contains c = true := by
    rw [hm]
    exact fun c hc => contains_lineSet.mpr fun hfeed => hline (hfeed ▸ hc)
  obtain ⟨e, hread, hfirst⟩ := @first_kept_run Cursor lineSet (g + 1) m hall
  have hend : e.rest = [] := hread.rest (List.append_nil _).symm
  have htail : TakeAll ic (endOf strict) e.rest [] := takeAll_endOf.mpr ⟨Or.inl hend, rfl⟩
  rw [hfirst _ (isSome_of_takeAll htail)] at hrun
  obtain ⟨vs, hvs, hkept⟩ := takeFirst_of_firstAll hrun
  obtain rfl := (takeAll_endOf.mp hvs.takeAll).2
  rw [hkept, hread.kept, htakes.kept, hm]
  rfl

/-- The preferred way leads from the literal segments to the rest of the path and goes on there in the
    preferred way. -/
theorem exists_behind_literals {last : List Element} {q : Cursor}
    (hformed : ∀ t ∈ literals texts, t.WellFormed) (hlast : Ending last)
    (hfits : List.Forall₂ (Segment.Fits ic) (literals texts) pieces)
    (h : Expr.firstAll (exprsFrom ic 0 (elementsBehind strict texts last)) Cursor.atEnd
      (.start (slashed pieces ++ '/' :: rest)) = some q) :
    ∃ m : Cursor, m.rest = '/' :: rest ∧ m.kept = [] ∧
      Expr.firstAll (exprsFrom ic 0 (last ++ endOf strict)) Cursor.atEnd m = some q := by
  rw [elementsBehind, exprsFrom_append, slots_literals, firstAll_append] at h
  obtain ⟨m, hliterals, hmore⟩ := exists_of_firstAll h
  obtain ⟨s, gs, hs, htakes⟩ :=
    takes_of_reaches (lookFree_seqs (lookFree_exprsFrom ic _ 0)) ((reaches_seqs _ _ _).mpr hliterals)
  obtain ⟨vs, hvs, rfl⟩ := (takesAll_exprsFrom _).mp ((takes_seqs _ _ _).mp hs)
  obtain ⟨pieces', hfits', rfl, rfl⟩ := takeAll_segments.mp hvs
  obtain ⟨vs', hvs', -⟩ := takeFirst_of_firstAll hmore
  obtain ⟨s₁, s₂, v₁, v₂, h₁, -, hm, -⟩ := (takeAll_append _ _ _ _).mp hvs'.takeAll
  obtain ⟨more, rfl⟩ := hlast.takes h₁
  have hpath : slashed pieces ++ '/' :: rest = slashed pieces' ++ '/' :: (more ++ s₂) := by
    rw [← List.cons_append, ← hm]
    exact htakes.reads.rest
  obtain ⟨-, rfl⟩ := eq_of_slashed_slash (not_mem_of_fits hformed hfits)
    (not_mem_of_fits hformed hfits') (hfits.length_eq.symm.trans hfits'.length_eq) hpath
  refine ⟨m, hm, ?_, hmore⟩
  rw [htakes.kept, allValues_literals]
  rfl

/-! ### The route -/

theorem captures_wildcard_some {options : CompileOptions} {spec : String} {params : Params}
    (hformed : ∀ t ∈ literals texts, t.WellFormed) (hw : w.WellFormed)
    (hfits : List.Forall₂ (Segment.Fits (!options.caseSensitive)) (literals texts) pieces)
    (hpath : Path.collapseChars (String.ofList (slashed pieces ++ '/' :: rest)).toList =
      slashed pieces ++ '/' :: rest) (hline : '\n' ∉ rest)
    (h : (ofElements options spec (elementsBehind options.strict texts w.elements)).captures
      (String.ofList (slashed pieces ++ '/' :: rest)) = some params) :
    params = w.params rest := by
  obtain ⟨found, hfind, rfl⟩ := Option.map_eq_some_iff.mp h
  rw [hpath] at hfind
  have hfirst := (find_anchored_first _ _).symm.trans hfind
  obtain ⟨m, hm, hkept, hmore⟩ := exists_behind_literals hformed (ending_wildcard hw) hfits hfirst
  have hgroup : found.group? 1 = some rest := by
    rw [Cursor.group?_eq_lookup, kept_of_firstAll_wildcard hm hline hmore, hkept]
    rfl
  change collect found Params.empty 1 ((elementsBehind options.strict texts w.elements).flatMap
    Element.slots) = _
  rw [slots_elementsBehind]
  cases w with
  | anonymous =>
    change addGroup Params.empty none (found.group? 1) = _
    rw [hgroup]
    rfl
  | named name =>
    change addGroup Params.empty (some ⟨String.ofList name, false⟩) (found.group? 1) = _
    rw [hgroup]
    rfl

/-- **A wildcard takes the whole rest of a path without line feeds.**  Let a spec consist of literal
    segments and a wildcard.  It is refused only if its expression passes the size limit, which with
    the usual costs a spec of at most 10000 characters never does.  Otherwise a path of fitting pieces
    and a rest without repeated slashes matches exactly if the rest has no line feed, and the single
    parameter is the rest, slashes and a slash at its end included. -/
theorem captures_rest (hformed : ∀ t ∈ literals texts, t.WellFormed) (hw : w.WellFormed)
    (options : CompileOptions) :
    (∀ e, compile options (wildcardSpec texts w) = .error e →
      e = .invalidPattern (wildcardSpec texts w) .tooLarge) ∧
    (options.budget.Usual → (wildcardSpec texts w).length ≤ 10000 →
      ∃ p, compile options (wildcardSpec texts w) = .ok p) ∧
    ∀ p, compile options (wildcardSpec texts w) = .ok p → ∀ pieces rest,
      List.Forall₂ (Segment.Fits (!options.caseSensitive)) (literals texts) pieces →
      rest.head? ≠ some '/' → ¬ ['/', '/'] <:+: rest →
      p.captures (String.ofList (slashed pieces ++ '/' :: rest)) =
          (if '\n' ∈ rest then none else some (w.params rest)) ∧
        ∀ name, w = .named name →
          (w.params rest).get? (String.ofList name) = some (String.ofList rest) := by
  rw [wildcardSpec_eq]
  have hending := ending_wildcard hw
  obtain ⟨hrefused, haccepted, hpattern⟩ := compile_specBehind hformed hending options
  refine ⟨hrefused, haccepted, ?_⟩
  intro p hp pieces rest hfits hhead hsingle
  have hpath : Path.collapseChars (String.ofList (slashed pieces ++ '/' :: rest)).toList =
      slashed pieces ++ '/' :: rest := by
    rw [String.toList_ofList]
    exact collapseChars_slashed_slash (solid_of_fits hformed hfits) hhead hsingle
  obtain rfl := hpattern p hp
  have hsome : ((ofElements options (specBehind texts w.elements)
      (elementsBehind options.strict texts w.elements)).captures
        (String.ofList (slashed pieces ++ '/' :: rest))).isSome = true ↔ '\n' ∉ rest := by
    rw [(captures_laid options _ _ _).2, hpath]
    simp only [takeAll_behind hformed hending hfits]
    exact exists_takeAll_wildcard
  constructor
  · split
    · next hline =>
      rw [← Option.not_isSome_iff_eq_none, hsome]
      exact not_not_intro hline
    · next hline =>
      obtain ⟨params, hparams⟩ := Option.isSome_iff_exists.mp (hsome.mpr hline)
      rw [hparams, captures_wildcard_some hformed hw hfits hpath hline hparams]
  · rintro name rfl
    have hentries : ([(String.ofList name, String.ofList rest)].map Prod.fst).Pairwise
        fun a b => Text.sameIgnoringCase a b = false := List.pairwise_singleton _ _
    exact Params.get?_ofEntry hentries List.mem_cons_self []

/-- A directory below a literal in other letters, with the slash at its end. -/
theorem captures_rest_directory :
    ∃ p, compile {} (wildcardSpec ["files".toList] (.named "path".toList)) = .ok p ∧
      p.captures "/Files/docs/2024 (a)/" = some ⟨[⟨"path", ["docs/2024 (a)/"]⟩], []⟩ := by
  have hliteral : ("files".toList.all fun c => decide (c ≠ '/' ∧ Element.Literal c)) = true := by decide
  have hformed : ∀ t ∈ literals ["files".toList], t.WellFormed := by
    intro t ht
    rw [List.mem_singleton.mp ht]
    exact ⟨by decide, fun c hc => of_decide_eq_true (List.all_eq_true.mp hliteral c hc)⟩
  have hname : (Wildcard.named "path".toList).WellFormed :=
    ⟨by decide, List.all_eq_true.mp (by decide)⟩
  have hfits : List.Forall₂ (Segment.Fits true) (literals ["files".toList]) ["Files".toList] := by
    refine .cons (.cons ?_ (List.forall₂_same.mpr fun c _ => sameFold_refl c)) .nil
    decide +kernel
  obtain ⟨-, haccepted, hmatches⟩ := captures_rest hformed hname {}
  obtain ⟨p, hp⟩ := haccepted Budget.usual_standard (by decide)
  have hsingle : ¬ ['/', '/'] <:+: "docs/2024 (a)/".toList := by decide +kernel
  exact ⟨p, hp, (hmatches p hp _ "docs/2024 (a)/".toList hfits (by decide) hsingle).1⟩

/-- **A rest with a line feed is lost**: neither wildcard matches it, although the rest begins with no
    slash and repeats none. -/
theorem wildcard_rejects_lineFeed :
    "a\nb".toList.head? ≠ some '/' ∧ ¬ ['/', '/'] <:+: "a\nb".toList ∧
      (compile {} "/files/*").toOption.map (·.captures "/files/a\nb") = some none ∧
      (compile {} "/files/:path*").toOption.map (·.captures "/files/a\nb") = some none := by
  refine ⟨by decide, by decide +kernel, by decide, by decide⟩

end RequestRouter.Pattern
