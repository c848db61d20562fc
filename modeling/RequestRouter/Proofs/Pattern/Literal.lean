/-
  RequestRouter/Proofs/Pattern/Literal.lean
  =========================================
  **Literal routes match their own text.**

  A spec without path syntax is matched by the paths that are spelled like it: character by character,
  up to case where case is ignored, and unless strict with or without a slash at the end
  (`isSome_captures_literal`).  Slashes may stand anywhere in such a spec, also at its end.
-/
import RequestRouter.Proofs.Pattern.Segments

namespace RequestRouter.Spec

/-! ### Literal texts as elements -/

theorem colon_not_mem {cs : List Char} (h : ∀ c ∈ cs, Element.Literal c) : ':' ∉ cs :=
  fun hcolon => absurd (h ':' hcolon) (by decide)

/-- Literal characters stand for themselves before a text without a colon. -/
theorem laid_literal {cs : List Char} {more : List Element} (hcs : ∀ c ∈ cs, Element.Literal c)
    (hmore : Laid more) (hcolon : ':' ∉ more.flatMap Element.text) : Laid (cs.map .char ++ more) := by
  induction cs with
  | nil => exact hmore
  | cons c cs ih =>
    refine ⟨⟨hcs c List.mem_cons_self, readToken?_of_not_mem ?_⟩,
      ih fun d hd => hcs d (List.mem_cons_of_mem _ hd)⟩
    change ':' ∉ c :: (cs.map Element.char ++ more).flatMap Element.text
    rw [Pattern.flatMap_text_chars, ← List.cons_append, List.mem_append]
    exact not_or.mpr ⟨colon_not_mem hcs, hcolon⟩

end RequestRouter.Spec

namespace RequestRouter.Pattern

open RequestRouter.Regex RequestRouter.Spec

variable {ic : Bool} {cs s : List Char}

/-! ### The end of a spec -/

/-- What is left of a spec when the slash at its end is optional. -/
def stem (cs : List Char) : List Char := if cs.getLast? = some '/' then cs.dropLast else cs

theorem stem_append (cs : List Char) : ∃ rest, stem cs ++ rest = cs ∧ Tail false rest := by
  unfold stem
  split
  · next hlast =>
    obtain ⟨front, rfl⟩ := List.getLast?_eq_some_iff.mp hlast
    exact ⟨['/'], by rw [List.dropLast_concat], Or.inr ⟨rfl, rfl⟩⟩
  · exact ⟨[], List.append_nil cs, Or.inl rfl⟩

theorem withOptionalSlash_literal (h : ∀ c ∈ cs, Element.Literal c) :
    withOptionalSlash cs = stem cs ++ ['/', '?'] := by
  have hmark : cs.getLast? ≠ some '?' := fun hlast =>
    absurd (h '?' (List.mem_of_getLast? hlast)) (by decide)
  by_cases hslash : cs.getLast? = some '/'
  · obtain ⟨front, rfl⟩ := List.getLast?_eq_some_iff.mp hslash
    have hsuffix : ¬ ['/', '?'].isSuffixOf (front ++ ['/']) = true := by
      intro hsuffix
      obtain ⟨more, hmore⟩ := List.isSuffixOf_iff_suffix.mp hsuffix
      rw [← hmore] at hmark
      exact hmark (by simp)
    rw [withOptionalSlash, if_neg hsuffix, if_pos hslash, stem, if_pos hslash,
      List.dropLast_concat, List.append_assoc]
    rfl
  · rw [stem, if_neg hslash]
    apply withOptionalSlash_eq
    intro c hc
    constructor
    · rintro rfl
      exact hslash hc
    · rintro rfl
      exact hmark hc

/-! ### Literal routes -/

/-- What a literal spec always asks of a path. -/
def literalBody (strict : Bool) (cs : List Char) : List Char := if strict then cs else stem cs

/-- The elements of a literal spec. -/
def literalElements (strict : Bool) (cs : List Char) : List Element :=
  (literalBody strict cs).map .char ++ endOf strict

/-- The text is spelled like another, up to case where case is ignored. -/
def Spells (ic : Bool) (cs s : List Char) : Prop :=
  List.Forall₂ (fun c d => sameChar ic c d = true) cs s

/-- The spec is what it always asks for, and perhaps a slash. -/
theorem literalBody_append (strict : Bool) (cs : List Char) :
    ∃ rest, literalBody strict cs ++ rest = cs ∧ Tail strict rest := by
  cases strict with
  | true => exact ⟨[], List.append_nil cs, Or.inl rfl⟩
  | false => exact stem_append cs

theorem mem_of_mem_literalBody {strict : Bool} {c : Char} (h : c ∈ literalBody strict cs) :
    c ∈ cs := by
  obtain ⟨rest, hrest, -⟩ := literalBody_append strict cs
  rw [← hrest]
  exact List.mem_append_left _ h

theorem takeAll_literalElements {strict : Bool} {vs : List Value} :
    TakeAll ic (literalElements strict cs) s vs ↔
      (∃ body tail, Spells ic (literalBody strict cs) body ∧ s = body ++ tail ∧ Tail strict tail) ∧
        vs = [] := by
  rw [literalElements, takeAll_append]
  constructor
  · rintro ⟨body, tail, v₁, v₂, hbody, htail, rfl, rfl⟩
    obtain ⟨hspells, rfl⟩ := takeAll_chars.mp hbody
    obtain ⟨hend, rfl⟩ := takeAll_endOf.mp htail
    exact ⟨⟨body, tail, hspells, rfl, hend⟩, rfl⟩
  · rintro ⟨⟨body, tail, hspells, rfl, htail⟩, rfl⟩
    exact ⟨body, tail, [], [], takeAll_chars.mpr ⟨hspells, rfl⟩, takeAll_endOf.mpr ⟨htail, rfl⟩,
      rfl, rfl⟩

theorem laid_literalElements (h : ∀ c ∈ cs, Element.Literal c) (strict : Bool) :
    Laid (literalElements strict cs) := by
  refine laid_literal (fun c hc => h c (mem_of_mem_literalBody hc)) (laid_endOf strict) ?_
  cases strict <;> decide

theorem spread_literalElements (strict : Bool) (cs : List Char) :
    Spread (literalElements strict cs) :=
  (spread_chars _).append (spread_endOf strict)

theorem textFor_literal {options : CompileOptions} (h : ∀ c ∈ cs, Element.Literal c) :
    textFor options cs = (literalElements options.strict cs).flatMap Element.text := by
  rw [literalElements, flatMap_text_chars, textFor, literalBody]
  cases options.strict with
  | true => exact (List.append_nil cs).symm
  | false => exact withOptionalSlash_literal h

/-- **A literal route matches its own text**, unless strict with or without a slash at the end. -/
theorem isSome_captures_literal {options : CompileOptions} {spec : String} {p : Pattern}
    (h : ∀ c ∈ spec.toList, Element.Literal c) (hp : compile options spec = .ok p) (path : String) :
    (p.captures path).isSome ↔ ∃ body tail,
      Spells (!options.caseSensitive) (literalBody options.strict spec.toList) body ∧
        (Path.collapse path).toList = body ++ tail ∧ Tail options.strict tail := by
  obtain ⟨-, -, hpattern⟩ :=
    compile_laid_cases (laid_literalElements h options.strict)
      (spread_literalElements options.strict spec.toList) (textFor_literal h)
  obtain rfl := hpattern p hp
  rw [(captures_laid options spec path _).2, Path.collapse, String.toList_ofList]
  simp only [takeAll_literalElements, exists_eq_right]

end RequestRouter.Pattern
