/-
  RequestRouter/Proofs/Pattern/Behind.lean
  ========================================
  **What stands behind literal segments.**

  A spec can begin with literal segments and go on with elements of its own, such as two parameters
  with a dot between them or the rest of the path.  If these elements begin with a slash, a path of
  fitting pieces and of more text behind another slash can be parted in one way only
  (`eq_of_slashed_slash`).  The literal segments take the pieces and capture nothing, so all that is
  left to say about such a spec is what its last elements make of the text behind the pieces
  (`takeAll_behind`).
-/
import RequestRouter.Proofs.Pattern.Segments

namespace RequestRouter.Pattern

open RequestRouter.Regex RequestRouter.Spec

/-- Texts as literal segments. -/
def literals (texts : List (List Char)) : List Segment := texts.map .literal

/-- The spec of literal segments and of what is written behind them. -/
def specBehind (texts : List (List Char)) (last : List Element) : String :=
  String.ofList (slashed texts ++ last.flatMap Element.text)

/-- The elements of this spec. -/
def elementsBehind (strict : Bool) (texts : List (List Char)) (last : List Element) : List Element :=
  (literals texts).flatMap Segment.elements ++ (last ++ endOf strict)

/-- Elements that can stand behind literal segments, at the end of a spec. -/
structure Ending (last : List Element) : Prop where
  laid : ∀ strict, Laid (last ++ endOf strict)
  written : ∃ more, last.flatMap Element.text = '/' :: more
  takes : ∀ {ic s vs}, TakeAll ic last s vs → ∃ more, s = '/' :: more
  mark : ∀ c, (last.flatMap Element.text).getLast? = some c → c ≠ '/' ∧ c ≠ '?'
  spread : Spread last

variable {ic strict : Bool} {texts pieces : List (List Char)} {last : List Element}

/-! ### The spec -/

theorem text_literals (texts : List (List Char)) : (literals texts).map Segment.text = texts := by
  simp [literals, Segment.text, Function.comp_def]

theorem laid_elementsBehind (hformed : ∀ s ∈ literals texts, s.WellFormed) (hlast : Ending last)
    (strict : Bool) : Laid (elementsBehind strict texts last) := by
  refine (laid_segments hformed (hlast.laid strict) ?_).1
  intro c hc
  obtain ⟨more, hmore⟩ := hlast.written
  rw [List.flatMap_append, hmore] at hc
  exact (Option.some.inj hc).symm

theorem textFor_specBehind (hlast : Ending last) (options : CompileOptions) :
    textFor options (specBehind texts last).toList =
      (elementsBehind options.strict texts last).flatMap Element.text := by
  rw [specBehind, String.toList_ofList, textFor, elementsBehind, List.flatMap_append,
    List.flatMap_append, flatMap_text_segments, text_literals]
  cases options.strict with
  | true => simp [endOf]
  | false =>
    rw [if_neg Bool.false_ne_true, withOptionalSlash_eq, List.append_assoc]
    · rfl
    · intro c hc
      obtain ⟨more, hmore⟩ := hlast.written
      refine hlast.mark c ?_
      rwa [List.getLast?_append_of_ne_nil _ (by rw [hmore]; exact List.cons_ne_nil _ _)] at hc

/-- Such a spec is refused for its cost only; otherwise it is the pattern of its elements. -/
theorem compile_specBehind (hformed : ∀ s ∈ literals texts, s.WellFormed) (hlast : Ending last)
    (options : CompileOptions) :
    (∀ e, compile options (specBehind texts last) = .error e →
      e = .invalidPattern (specBehind texts last) .tooLarge) ∧
    (options.budget.Usual → (specBehind texts last).length ≤ 10000 →
      ∃ p, compile options (specBehind texts last) = .ok p) ∧
    ∀ p, compile options (specBehind texts last) = .ok p →
      p = ofElements options (specBehind texts last) (elementsBehind options.strict texts last) :=
  compile_laid_cases (laid_elementsBehind hformed hlast options.strict)
    ((spread_segments _).append (hlast.spread.append (spread_endOf options.strict)))
    (textFor_specBehind hlast options)

/-! ### Paths -/

theorem exists_slashed_slash (pieces : List (List Char)) (s : List Char) :
    ∃ more, slashed pieces ++ '/' :: s = '/' :: more := by
  cases pieces with
  | nil => exact ⟨s, rfl⟩
  | cons v pieces => exact ⟨v ++ slashed pieces ++ '/' :: s, rfl⟩

/-- The pieces of a path and the text behind them, told apart. -/
theorem eq_of_slashed_slash {pieces' : List (List Char)} {s s' : List Char}
    (hpieces : ∀ v ∈ pieces, '/' ∉ v) (hpieces' : ∀ v ∈ pieces', '/' ∉ v)
    (hlength : pieces.length = pieces'.length)
    (h : slashed pieces ++ '/' :: s = slashed pieces' ++ '/' :: s') : pieces = pieces' ∧ s = s' := by
  induction pieces generalizing pieces' with
  | nil =>
    obtain rfl := List.length_eq_zero_iff.mp hlength.symm
    exact ⟨rfl, (List.cons.inj h).2⟩
  | cons v pieces ih =>
    obtain ⟨v', pieces', rfl⟩ := List.exists_cons_of_length_eq_add_one hlength.symm
    obtain ⟨more, hmore⟩ := exists_slashed_slash pieces s
    obtain ⟨more', hmore'⟩ := exists_slashed_slash pieces' s'
    have hfirst : v ++ '/' :: more = v' ++ '/' :: more' := by
      rw [← hmore, ← hmore', ← List.append_assoc, ← List.append_assoc]
      exact (List.cons.inj h).2
    have hsplit := congrArg Path.split hfirst
    rw [Path.split_append (hpieces v List.mem_cons_self),
      Path.split_append (hpieces' v' List.mem_cons_self)] at hsplit
    obtain rfl := (List.cons.inj hsplit).1
    have hrest : slashed pieces ++ '/' :: s = slashed pieces' ++ '/' :: s' := by
      rw [hmore, hmore']
      exact List.append_cancel_left hfirst
    obtain ⟨rfl, rfl⟩ := ih (fun w hw => hpieces w (List.mem_cons_of_mem _ hw))
      (fun w hw => hpieces' w (List.mem_cons_of_mem _ hw)) (Nat.succ.inj hlength) hrest
    exact ⟨rfl, rfl⟩

/-- A path of pieces without repeated slashes behind them has no repeated slashes. -/
theorem collapseChars_slashed_slash {s : List Char} (hpieces : ∀ v ∈ pieces, v ≠ [] ∧ '/' ∉ v)
    (hhead : s.head? ≠ some '/') (hsingle : ¬ ['/', '/'] <:+: s) :
    Path.collapseChars (slashed pieces ++ '/' :: s) = slashed pieces ++ '/' :: s := by
  have hrest : Path.collapseFrom false ('/' :: s) = '/' :: s := by
    rw [Path.collapseFrom, if_pos rfl, if_neg Bool.false_ne_true,
      Path.collapseFrom_of_single hsingle fun _ => hhead]
  unfold Path.collapseChars
  induction pieces with
  | nil => exact hrest
  | cons v pieces ih =>
    obtain ⟨hne, hslash⟩ := hpieces v List.mem_cons_self
    have hmore := ih fun w hw => hpieces w (List.mem_cons_of_mem _ hw)
    have hcons : slashed (v :: pieces) ++ '/' :: s = '/' :: (v ++ (slashed pieces ++ '/' :: s)) := by
      simp [slashed]
    rw [hcons, Path.collapseFrom, if_pos rfl, if_neg Bool.false_ne_true,
      Path.collapseFrom_append_piece hne hslash, hmore]

/-! ### Readings -/

theorem allValues_literals (texts pieces : List (List Char)) :
    allValues (literals texts) pieces = [] := by
  induction texts generalizing pieces with
  | nil => cases pieces <;> rfl
  | cons text texts ih =>
    cases pieces with
    | nil => rfl
    | cons piece pieces => exact ih pieces

/-- **Literal segments take the pieces**, and what stands behind them reads the text behind the
    pieces. -/
theorem takeAll_behind {s : List Char} (hformed : ∀ t ∈ literals texts, t.WellFormed)
    (hlast : Ending last) (hfits : List.Forall₂ (Segment.Fits ic) (literals texts) pieces)
    {vs : List Value} :
    TakeAll ic (elementsBehind strict texts last) (slashed pieces ++ '/' :: s) vs ↔
      TakeAll ic (last ++ endOf strict) ('/' :: s) vs := by
  rw [elementsBehind, takeAll_append]
  constructor
  · rintro ⟨s₁, s₂, v₁, v₂, h₁, h₂, hs, rfl⟩
    obtain ⟨pieces', hfits', rfl, rfl⟩ := takeAll_segments.mp h₁
    obtain ⟨s₃, s₄, v₃, v₄, h₃, -, rfl, -⟩ := (takeAll_append _ _ _ _).mp h₂
    obtain ⟨more, rfl⟩ := hlast.takes h₃
    obtain ⟨-, rfl⟩ := eq_of_slashed_slash (not_mem_of_fits hformed hfits)
      (not_mem_of_fits hformed hfits') (hfits.length_eq.symm.trans hfits'.length_eq) hs
    rwa [allValues_literals, List.nil_append]
  · intro h
    refine ⟨slashed pieces, '/' :: s, [], vs, takeAll_segments.mpr ⟨pieces, hfits, rfl, ?_⟩, h, rfl, rfl⟩
    exact (allValues_literals texts pieces).symm

theorem slots_literals (texts : List (List Char)) :
    ((literals texts).flatMap Segment.elements).flatMap Element.slots = [] := by
  rw [List.flatMap_eq_nil_iff]
  intro e he
  obtain ⟨segment, hsegment, he⟩ := List.mem_flatMap.mp he
  obtain ⟨text, -, rfl⟩ := List.mem_map.mp hsegment
  obtain ⟨c, -, rfl⟩ := List.mem_map.mp he
  rfl

/-- The slots belong to the elements behind the literal segments. -/
theorem slots_elementsBehind (strict : Bool) (texts : List (List Char)) (last : List Element) :
    (elementsBehind strict texts last).flatMap Element.slots = last.flatMap Element.slots := by
  have hend : (endOf strict).flatMap Element.slots = [] := by cases strict <;> rfl
  rw [elementsBehind, List.flatMap_append, List.flatMap_append, slots_literals, hend,
    List.append_nil, List.nil_append]

end RequestRouter.Pattern
