/-
  RequestRouter/Proofs/Pattern/Dotted.lean
  ========================================
  **Two parameters with a dot between them.**

  Behind literal segments a spec can end with `/:name.:extension`.  Both parameters can have more than
  one character, and the first may hold dots, so a piece with several dots could be parted at any of
  them.  The second parameter takes no dot, which leaves the last one (`takeAll_dotted`): no choice of
  the search enters into what the two are bound to (`captures_dotted`).
-/
import RequestRouter.Proofs.Pattern.Behind
import RequestRouter.Proofs.Pattern.Optional

namespace RequestRouter.Pattern

open RequestRouter.Regex RequestRouter.Spec RequestRouter.Text RequestRouter.Unicode

/-- The parameter behind a dot as a token. -/
def dotToken (name : List Char) : Token := ⟨false, true, name, none, false, false⟩

/-- A parameter behind a slash and one behind a dot. -/
def dotted (name extension : List Char) : List Element :=
  [.param (Segment.token name), .param (dotToken extension)]

/-- The spec of literal segments and two parameters with a dot between them. -/
def dottedSpec (texts : List (List Char)) (name extension : List Char) : String :=
  String.ofList (slashed texts ++ '/' :: ':' :: (name ++ '.' :: ':' :: extension))

/-- A text parted at its last dot, with something on either side. -/
def PartedAtDot (s a b : List Char) : Prop := s = a ++ '.' :: b ∧ a ≠ [] ∧ b ≠ [] ∧ '.' ∉ b

/-- The parameters with one value each. -/
def dottedParams (name extension a b : List Char) : Params :=
  ⟨[⟨String.ofList name, [String.ofList a]⟩, ⟨String.ofList extension, [String.ofList b]⟩], []⟩

variable {ic strict : Bool} {texts pieces : List (List Char)} {name extension s a b : List Char}

theorem IsName.not_mem {c : Char} (h : IsName name) (hc : isWord c = false) : c ∉ name := by
  intro hmem
  rw [h.2 c hmem] at hc
  cases hc

/-! ### Readings -/

theorem takes_token {vs : List Value} :
    (Element.param (Segment.token name)).Takes ic s vs ↔
      ∃ v, s = '/' :: v ∧ Solid v ∧ vs = [some v] := by
  constructor
  · rintro (⟨hoptional, -, -⟩ | ⟨v, rfl, hv, rfl⟩)
    · cases hoptional
    · exact ⟨v, rfl, ⟨hv.1, hv.2.1⟩, rfl⟩
  · rintro ⟨v, rfl, hv, rfl⟩
    refine Or.inr ⟨v, rfl, ⟨hv.1, hv.2, ?_⟩, rfl⟩
    intro hdot
    cases hdot

theorem takes_dotToken {vs : List Value} :
    (Element.param (dotToken extension)).Takes ic s vs ↔
      ∃ v, s = '.' :: v ∧ Solid v ∧ '.' ∉ v ∧ vs = [some v] := by
  constructor
  · rintro (⟨hoptional, -, -⟩ | ⟨v, rfl, hv, rfl⟩)
    · cases hoptional
    · exact ⟨v, rfl, ⟨hv.1, hv.2.1⟩, hv.2.2 rfl, rfl⟩
  · rintro ⟨v, rfl, hv, hdot, rfl⟩
    exact Or.inr ⟨v, rfl, ⟨hv.1, hv.2, fun _ => hdot⟩, rfl⟩

/-- **A piece is parted at its last dot.**  The slash at the end takes no part, as the piece has no
    slash. -/
theorem takeAll_dotted (hslash : '/' ∉ s) {vs : List Value} :
    TakeAll ic (dotted name extension ++ endOf strict) ('/' :: s) vs ↔
      ∃ a b, PartedAtDot s a b ∧ vs = [some a, some b] := by
  constructor
  · rintro ⟨s₁, s₂, v₁, v₂, h₁, ⟨s₃, s₄, v₃, v₄, h₃, h₄, rfl, rfl⟩, hs, rfl⟩
    obtain ⟨a, rfl, ha, rfl⟩ := takes_token.mp h₁
    obtain ⟨b, rfl, hb, hdot, rfl⟩ := takes_dotToken.mp h₃
    obtain ⟨htail, rfl⟩ := takeAll_endOf.mp h₄
    obtain rfl : s = a ++ ('.' :: b ++ s₄) := (List.cons.inj hs).2
    rcases htail with rfl | ⟨-, rfl⟩
    · exact ⟨a, b, ⟨by rw [List.append_nil], ha.1, hb.1, hdot⟩, rfl⟩
    · exact absurd (by simp) hslash
  · rintro ⟨a, b, ⟨rfl, ha, hb, hdot⟩, rfl⟩
    simp only [List.mem_append, List.mem_cons, not_or] at hslash
    refine ⟨'/' :: a, '.' :: b, [some a], [some b], takes_token.mpr ⟨a, rfl, ⟨ha, hslash.1⟩, rfl⟩, ?_,
      rfl, rfl⟩
    exact ⟨'.' :: b, [], [some b], [], takes_dotToken.mpr ⟨b, rfl, ⟨hb, hslash.2.2⟩, hdot, rfl⟩,
      takeAll_endOf.mpr ⟨Or.inl rfl, rfl⟩, (List.append_nil _).symm, (List.append_nil _).symm⟩

/-- There is one last dot. -/
theorem PartedAtDot.unique {a' b' : List Char} (h : PartedAtDot s a b) (h' : PartedAtDot s a' b') :
    a = a' ∧ b = b' := by
  obtain ⟨rfl, -, -, hb⟩ := h
  obtain ⟨heq, -, -, hb'⟩ := h'
  rcases List.append_eq_append_iff.mp heq with ⟨mid, rfl, hmid⟩ | ⟨mid, rfl, hmid⟩
  · cases mid with
    | nil => exact ⟨(List.append_nil _).symm, (List.cons.inj hmid).2⟩
    | cons c mid =>
      rw [(List.cons.inj hmid).2] at hb
      exact absurd (List.mem_append_right _ List.mem_cons_self) hb
  · cases mid with
    | nil => exact ⟨List.append_nil _, (List.cons.inj hmid).2.symm⟩
    | cons c mid =>
      rw [(List.cons.inj hmid).2] at hb'
      exact absurd (List.mem_append_right _ List.mem_cons_self) hb'

/-! ### The spec -/

theorem text_dotted (name extension : List Char) : (dotted name extension).flatMap Element.text =
    '/' :: ':' :: (name ++ '.' :: ':' :: extension) := by
  simp [dotted, Element.text, Token.text, Token.lead, Segment.token, dotToken]

theorem dottedSpec_eq (texts : List (List Char)) (name extension : List Char) :
    dottedSpec texts name extension = specBehind texts (dotted name extension) := by
  rw [dottedSpec, specBehind, text_dotted]

theorem ending_dotted (hname : IsName name) (hextension : IsName extension) :
    Ending (dotted name extension) where
  laid strict := by
    refine ⟨⟨rfl, readToken?_text rfl hname.1 hname.2 ?_⟩,
      ⟨rfl, readToken?_text rfl hextension.1 hextension.2 ?_⟩, laid_endOf strict⟩
    · intro c hc
      obtain rfl := Option.some.inj hc
      exact ⟨by decide, by decide⟩
    · intro c hc
      obtain rfl := head?_endOf hc
      exact ⟨isWord_slash, by decide⟩
  written := ⟨_, text_dotted name extension⟩
  takes := by
    rintro ic s vs ⟨s₁, s₂, v₁, v₂, h₁, -, rfl, -⟩
    obtain ⟨a, rfl, -, -⟩ := takes_token.mp h₁
    exact ⟨a ++ s₂, rfl⟩
  mark := by
    intro c hc
    obtain ⟨front, last, rfl⟩ := (List.eq_nil_or_concat extension).resolve_left hextension.1
    have hlast : last ∈ front.concat last := by simp
    have hc : last = c := by
      rw [text_dotted] at hc
      simpa [List.getLast?_append, List.getLast?_cons] using hc
    subst hc
    constructor
    · rintro rfl
      exact hextension.not_mem isWord_slash hlast
    · rintro rfl
      exact hextension.not_mem (by decide) hlast
  spread := Nat.le_refl 0

/-! ### Parameters -/

theorem gather_dotted
    (hdistinct : sameIgnoringCase (String.ofList name) (String.ofList extension) = false)
    (a b : List Char) :
    gather Params.empty ((dotted name extension).flatMap Element.slots) [some a, some b] =
      dottedParams name extension a b := by
  change Params.mk (Params.addNamed (String.ofList extension) (String.ofList b)
    [⟨String.ofList name, [String.ofList a]⟩]) [] = _
  rw [Params.addNamed, hdistinct]
  rfl

theorem get?_dottedParams
    (hdistinct : sameIgnoringCase (String.ofList name) (String.ofList extension) = false)
    (a b : List Char) :
    (dottedParams name extension a b).get? (String.ofList name) = some (String.ofList a) ∧
    (dottedParams name extension a b).get? (String.ofList extension) = some (String.ofList b) := by
  let entries : List Params.Entry := [(String.ofList name, String.ofList a),
    (String.ofList extension, String.ofList b)]
  have hentries : (entries.map Prod.fst).Pairwise fun x y => sameIgnoringCase x y = false :=
    List.pairwise_pair.mpr hdistinct
  exact ⟨Params.get?_ofEntry hentries List.mem_cons_self [],
    Params.get?_ofEntry hentries (List.mem_cons_of_mem _ List.mem_cons_self) []⟩

/-- **Parameters with a dot between them part a piece at its last dot.**  Let a spec consist of
    literal segments and `/:name.:extension`, with names that differ in more than ASCII case.  It is
    refused only if its expression passes the size limit, which with the usual costs a spec of at
    most 10000 characters never does.  Otherwise a path of fitting pieces and one more text without a
    slash matches exactly if that text has something before and behind its last dot, and these are the
    two values. -/
theorem captures_dotted (hformed : ∀ t ∈ literals texts, t.WellFormed) (hname : IsName name)
    (hextension : IsName extension)
    (hdistinct : sameIgnoringCase (String.ofList name) (String.ofList extension) = false)
    (options : CompileOptions) :
    (∀ e, compile options (dottedSpec texts name extension) = .error e →
      e = .invalidPattern (dottedSpec texts name extension) .tooLarge) ∧
    (options.budget.Usual → (dottedSpec texts name extension).length ≤ 10000 →
      ∃ p, compile options (dottedSpec texts name extension) = .ok p) ∧
    ∀ p, compile options (dottedSpec texts name extension) = .ok p → ∀ pieces s,
      List.Forall₂ (Segment.Fits (!options.caseSensitive)) (literals texts) pieces → '/' ∉ s →
      let found := p.captures (String.ofList (slashed pieces ++ '/' :: s))
      (found.isSome = true ↔ ∃ a b, s = a ++ '.' :: b ∧ a ≠ [] ∧ b ≠ [] ∧ '.' ∉ b) ∧
      ∀ a b, s = a ++ '.' :: b → a ≠ [] → b ≠ [] → '.' ∉ b → ∃ params, found = some params ∧
        params = dottedParams name extension a b ∧
        params.get? (String.ofList name) = some (String.ofList a) ∧
        params.get? (String.ofList extension) = some (String.ofList b) := by
  rw [dottedSpec_eq]
  have hending := ending_dotted hname hextension
  obtain ⟨hrefused, haccepted, hpattern⟩ := compile_specBehind hformed hending options
  refine ⟨hrefused, haccepted, ?_⟩
  intro p hp pieces s hfits hslash found
  have hpath : Path.collapseChars (String.ofList (slashed pieces ++ '/' :: s)).toList =
      slashed pieces ++ '/' :: s := by
    rw [String.toList_ofList]
    refine collapseChars_slashed_slash (solid_of_fits hformed hfits) ?_ ?_
    · exact fun hhead => hslash (List.mem_of_head? hhead)
    · exact fun hpair => hslash (hpair.subset List.mem_cons_self)
  have hreadings : ∀ vs, TakeAll (!options.caseSensitive)
      (elementsBehind options.strict texts (dotted name extension))
      (Path.collapseChars (String.ofList (slashed pieces ++ '/' :: s)).toList) vs ↔
        ∃ a b, PartedAtDot s a b ∧ vs = [some a, some b] := by
    intro vs
    rw [hpath, takeAll_behind hformed hending hfits, takeAll_dotted hslash]
  obtain ⟨hfound, hsome⟩ := captures_laid options (specBehind texts (dotted name extension))
    (String.ofList (slashed pieces ++ '/' :: s))
    (elementsBehind options.strict texts (dotted name extension))
  rw [← hpattern p hp] at hfound hsome
  simp only [hreadings] at hfound hsome
  have hmatch : found.isSome = true ↔ ∃ a b, PartedAtDot s a b := by
    rw [hsome]
    constructor
    · rintro ⟨vs, a, b, hparted, -⟩
      exact ⟨a, b, hparted⟩
    · rintro ⟨a, b, hparted⟩
      exact ⟨_, a, b, hparted, rfl⟩
  refine ⟨hmatch, ?_⟩
  intro a b hs ha hb hdot
  have hparted : PartedAtDot s a b := ⟨hs, ha, hb, hdot⟩
  obtain ⟨params, hparams⟩ := Option.isSome_iff_exists.mp (hmatch.mpr ⟨a, b, hparted⟩)
  obtain ⟨vs, ⟨a', b', hparted', rfl⟩, hgather⟩ := hfound params hparams
  obtain ⟨rfl, rfl⟩ := hparted.unique hparted'
  have hvalues : params = dottedParams name extension a b := by
    rw [hgather, slots_elementsBehind, gather_dotted hdistinct]
  refine ⟨params, hparams, hvalues, ?_⟩
  rw [hvalues]
  exact get?_dottedParams hdistinct a b

/-- A file with two dots in its name and one without any. -/
theorem captures_dotted_archive :
    ∃ p, compile {} (dottedSpec ["files".toList] "name".toList "ext".toList) = .ok p ∧
      p.captures "/Files/a.tar.gz" = some ⟨[⟨"name", ["a.tar"]⟩, ⟨"ext", ["gz"]⟩], []⟩ ∧
      p.captures "/Files/README" = none := by
  have hliteral : ("files".toList.all fun c => decide (c ≠ '/' ∧ Element.Literal c)) = true := by decide
  have hformed : ∀ t ∈ literals ["files".toList], t.WellFormed := by
    intro t ht
    rw [List.mem_singleton.mp ht]
    exact ⟨by decide, fun c hc => of_decide_eq_true (List.all_eq_true.mp hliteral c hc)⟩
  have hname : IsName "name".toList := ⟨by decide, List.all_eq_true.mp (by decide)⟩
  have hextension : IsName "ext".toList := ⟨by decide, List.all_eq_true.mp (by decide)⟩
  have hfits : List.Forall₂ (Segment.Fits true) (literals ["files".toList]) ["Files".toList] := by
    refine .cons (.cons ?_ (List.forall₂_same.mpr fun c _ => sameFold_refl c)) .nil
    decide +kernel
  obtain ⟨-, haccepted, hmatches⟩ := captures_dotted hformed hname hextension (by decide) {}
  obtain ⟨p, hp⟩ := haccepted Budget.usual_standard (by decide)
  obtain ⟨-, hparted⟩ := hmatches p hp _ "a.tar.gz".toList hfits (by decide)
  obtain ⟨hplain, -⟩ := hmatches p hp _ "README".toList hfits (by decide)
  obtain ⟨params, hparams, hvalues, -⟩ :=
    hparted "a.tar".toList "gz".toList (by decide) (by decide) (by decide) (by decide)
  refine ⟨p, hp, hparams.trans (congrArg some hvalues), ?_⟩
  rw [← Option.not_isSome_iff_eq_none]
  intro hsome
  obtain ⟨a, b, hs, -⟩ := hplain.mp hsome
  have hdot : '.' ∈ "README".toList := by
    rw [hs]
    exact List.mem_append_right _ List.mem_cons_self
  exact absurd hdot (by decide)

/-- A long literal before the two parameters is refused. -/
theorem compile_dotted_replicate {n : Nat} (hn : 10485760 < 204 * n) :
    compile {} (dottedSpec [List.replicate n 'ι'] ['x'] ['y']) =
      .error (.invalidPattern (dottedSpec [List.replicate n 'ι'] ['x'] ['y']) .tooLarge) := by
  have hformed : ∀ t ∈ literals [List.replicate n 'ι'], t.WellFormed := by
    intro t ht
    rw [List.mem_singleton.mp ht]
    exact wellFormed_literal_replicate (by omega)
  have hending : Ending (dotted ['x'] ['y']) := ending_dotted ⟨by decide, List.all_eq_true.mp (by decide)⟩
    ⟨by decide, List.all_eq_true.mp (by decide)⟩
  have helements : elementsBehind false [List.replicate n 'ι'] (dotted ['x'] ['y']) =
      ('/' :: List.replicate n 'ι').map .char ++ (dotted ['x'] ['y'] ++ endOf false) := by
    simp [elementsBehind, literals, Segment.elements]
  have hcosts := le_costs_literal ('/' :: List.replicate n 'ι') 0 (dotted ['x'] ['y'] ++ endOf false)
  rw [List.length_cons, List.length_replicate] at hcosts
  rw [dottedSpec_eq]
  apply compile_laid_tooLarge (laid_elementsBehind hformed hending false)
    (textFor_specBehind hending {}) rfl
  rw [helements]
  change 10485760 < Budget.standard.costs (exprsFrom true 0 _)
  omega

/-- **What the names and the size limit exclude.**  Values under two names that differ in ASCII case
    only are kept under the first of them, so that both names give the first value; and behind a
    literal of seventy thousand letters the spec is refused, so that no path matches it. -/
theorem dotted_joined_or_refused :
    ((compile {} (dottedSpec [] ['x'] ['X'])).toOption.bind fun p =>
        (p.captures "/a.b").map fun params => (params.get? "x", params.get? "X")) =
      some (some "a", some "a") ∧
    (∀ t ∈ literals [List.replicate 70000 'ι'], t.WellFormed) ∧
    compile {} (dottedSpec [List.replicate 70000 'ι'] ['x'] ['y']) =
      .error (.invalidPattern (dottedSpec [List.replicate 70000 'ι'] ['x'] ['y']) .tooLarge) := by
  refine ⟨by decide, ?_, compile_dotted_replicate (by decide)⟩
  intro t ht
  rw [List.mem_singleton.mp ht]
  exact wellFormed_literal_replicate (by decide)

end RequestRouter.Pattern
