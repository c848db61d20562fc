/-
  RequestRouter/Proofs/Pattern/Preferred.lean
  ===========================================
  **Which reading of a path a pattern captures.**

  A path can have several readings by the elements of a spec: of two parameters that may be left out,
  one value goes to the first or to the second.  `TakeFirst` are the readings in which no such
  parameter is left out that could have a value once the elements before it have taken theirs.  What
  a laid spec captures is one of them (`captures_laid_first`), because the search of its expression
  tries for each of these parameters to take part before it leaves it out.
-/
import RequestRouter.Proofs.Pattern.Matching
import RequestRouter.Proofs.Regex.Preferred

namespace RequestRouter.Spec

open RequestRouter.Regex Element

/-- The elements take parts of the text one after the other, and a parameter is left out only if no
    reading of what is left of the text gives it a value. -/
def TakeFirst (ic : Bool) : List Element → List Char → List Value → Prop
  | [], s, vs => s = [] ∧ vs = []
  | e :: es, s, vs =>
    ∃ s₁ s₂ v₁ v₂, e.Takes ic s₁ v₁ ∧ TakeFirst ic es s₂ v₂ ∧ s = s₁ ++ s₂ ∧ vs = v₁ ++ v₂ ∧
      (v₁ = [none] → ∀ text values, ¬ TakeAll ic (e :: es) s (some text :: values))

variable {ic : Bool}

theorem TakeFirst.takeAll {es : List Element} {s : List Char} {vs : List Value}
    (h : TakeFirst ic es s vs) : TakeAll ic es s vs := by
  induction es generalizing s vs with
  | nil => exact h
  | cons e es ih =>
    obtain ⟨s₁, s₂, v₁, v₂, h₁, h₂, rfl, rfl, -⟩ := h
    exact ⟨s₁, s₂, v₁, v₂, h₁, ih h₂, rfl, rfl⟩

/-- Elements that come first take their part before the rest takes its own in the preferred way. -/
theorem TakeFirst.append {a b : List Element} {s : List Char} {vs : List Value}
    (h : TakeFirst ic (a ++ b) s vs) :
    ∃ s₁ s₂ v₁ v₂, TakeAll ic a s₁ v₁ ∧ TakeFirst ic b s₂ v₂ ∧ s = s₁ ++ s₂ ∧ vs = v₁ ++ v₂ := by
  induction a generalizing s vs with
  | nil => exact ⟨[], s, [], vs, ⟨rfl, rfl⟩, h, rfl, rfl⟩
  | cons e a ih =>
    obtain ⟨s₁, s', v₁, v', h₁, hmore, rfl, rfl, -⟩ := h
    obtain ⟨s₂, s₃, v₂, v₃, h₂, h₃, rfl, rfl⟩ := ih hmore
    exact ⟨s₁ ++ s₂, s₃, v₁ ++ v₂, v₃, ⟨s₁, s₂, v₁, v₂, h₁, h₂, rfl, rfl⟩, h₃, by simp, by simp⟩

/-! ### The search for a reading -/

/-- Only a parameter that may be left out has a capture without a value. -/
theorem Element.Takes.optional {e : Element} {s : List Char} (h : e.Takes ic s [none]) :
    ∃ t, e = .param t ∧ t.optional = true := by
  cases e with
  | param t =>
    rcases h with ⟨hoptional, -, -⟩ | ⟨v, -, -, hvalue⟩
    · exact ⟨t, rfl, hoptional⟩
    · cases hvalue
  | char c => obtain ⟨d, -, -, hvalue⟩ := h; cases hvalue
  | digits => obtain ⟨-, -, hvalue⟩ := h; cases hvalue
  | star => obtain ⟨-, hvalue⟩ := h; cases hvalue
  | optionalSlash => obtain ⟨-, hvalue⟩ := h; cases hvalue

/-- What is reached through the expressions of elements is a reading by the elements. -/
theorem takes_of_reachesAll {e : Element} {g : Nat} {p m : Cursor}
    (h : Expr.ReachesAll (e.exprs ic g) p m) :
    ∃ s vs, e.Takes ic s vs ∧ p.Takes s (keptFrom g vs) m := by
  have hexprs : exprsFrom ic g [e] = e.exprs ic g := List.append_nil _
  have hfree := lookFree_seqs (lookFree_exprsFrom ic [e] g)
  rw [hexprs] at hfree
  obtain ⟨s, gs, hs, htakes⟩ := takes_of_reaches hfree ((reaches_seqs _ p m).mpr h)
  obtain ⟨vs, hvs, rfl⟩ := e.takesAll_exprs.mp ((takes_seqs _ _ _).mp hs)
  exact ⟨s, vs, hvs, htakes⟩

/-- A reading of the rest of the text is a way to its end. -/
theorem isSome_of_takeAll {es : List Element} {g : Nat} {p : Cursor} {vs : List Value}
    (h : TakeAll ic es p.rest vs) :
    (Expr.firstAll (exprsFrom ic g es) Cursor.atEnd p).isSome = true := by
  have htakes := (takes_seqs _ _ _).mpr ((takesAll_exprsFrom es (g := g)).mpr ⟨vs, h, rfl⟩)
  have hrest : p.rest = p.rest ++ [] := (List.append_nil _).symm
  obtain ⟨q, hq, hread⟩ := reaches_of_takes htakes hrest
  refine isSome_firstAll placeOnly_atEnd ((reaches_seqs _ _ _).mp hq) ?_
  rw [Cursor.atEnd, if_pos (hread.rest hrest)]
  rfl

/-- A parameter that may be left out takes part if that leads to the end of the text. -/
theorem takes_of_first_optional {t : Token} (hoptional : t.optional = true) {g : Nat}
    {k : Cursor → Option Cursor} (hk : PlaceOnly k) {p q : Cursor}
    (h : Expr.firstAll ((Element.param t).exprs ic g) k p = some q) :
    (∃ s text m, (Element.param t).Takes ic s [some text] ∧
      p.Takes s (keptFrom g [some text]) m ∧ k m = some q) ∨
    k p = some q ∧ ∀ s rest text, p.rest = s ++ rest → (Element.param t).Takes ic s [some text] →
      ∃ m, p.Takes s (keptFrom g [some text]) m ∧ k m = none := by
  have hexprs : (Element.param t).exprs ic g = [.rounds (insideExpr ic g t) 0 (some 1) true] := by
    simp [Element.exprs, hoptional]
  have hlead : t.lead = (if t.slash && t.optional then ['/'] else []) ++
      (if t.dot then ['.'] else []) := by simp [Token.lead, hoptional]
  rw [hexprs, Expr.firstAll, Expr.firstAll, first_optional hk] at h
  cases hinside : (insideExpr ic g t).first k p with
  | some r =>
    rw [hinside, Option.some_or, Option.some.injEq] at h
    subst h
    obtain ⟨m, hm, hresult⟩ := exists_of_first hinside
    obtain ⟨s, gs, hs, htakes⟩ := takes_of_reaches (lookFree_insideExpr g t) hm
    obtain ⟨text, rfl, hadmits, rfl⟩ := takes_insideExpr.mp hs
    rw [← hlead] at htakes
    exact Or.inl ⟨t.lead ++ text, text, m, Or.inr ⟨text, rfl, hadmits, rfl⟩, htakes, hresult⟩
  | none =>
    rw [hinside, Option.none_or] at h
    refine Or.inr ⟨h, ?_⟩
    rintro s rest text hrest (⟨-, -, hvalue⟩ | ⟨v, rfl, hadmits, hvalue⟩)
    · cases hvalue
    obtain rfl : text = v := by simpa using hvalue
    have hinner : (insideExpr ic g t).Takes (t.lead ++ text) [(g + 1, text)] :=
      takes_insideExpr.mpr ⟨text, by rw [hlead], hadmits, rfl⟩
    obtain ⟨m, hm, htakes⟩ := reaches_of_takes hinner hrest
    refine ⟨m, htakes, ?_⟩
    cases hresult : k m with
    | none => rfl
    | some r =>
      have hsome := (isSome_first hk).mpr ⟨m, hm, by rw [hresult]; rfl⟩
      rw [hinside] at hsome
      cases hsome

/-- The first step of the preferred way: what the element takes, and what it could not have taken if
    it is left out. -/
theorem takes_of_firstAll {e : Element} {es : List Element} {g : Nat} {p q : Cursor}
    (h : Expr.firstAll (e.exprs ic g)
      (Expr.firstAll (exprsFrom ic (g + e.slots.length) es) Cursor.atEnd) p = some q) :
    ∃ s v m, e.Takes ic s v ∧ p.Takes s (keptFrom g v) m ∧
      Expr.firstAll (exprsFrom ic (g + e.slots.length) es) Cursor.atEnd m = some q ∧
      (v = [none] → ∀ text values, ¬ TakeAll ic (e :: es) p.rest (some text :: values)) := by
  by_cases hoptional : ∃ t, e = .param t ∧ t.optional = true
  · obtain ⟨t, rfl, hoptional⟩ := hoptional
    rcases takes_of_first_optional hoptional (placeOnly_atEnd.firstAll _) h with
      ⟨s, text, m, hv, htakes, hmore⟩ | ⟨hmore, hnone⟩
    · exact ⟨s, [some text], m, hv, htakes, hmore, by simp⟩
    · refine ⟨[], [none], p, Or.inl ⟨hoptional, rfl, rfl⟩, .nil p, hmore, ?_⟩
      rintro - text values ⟨s₁, s₂, v₁, v₂, h₁, h₂, hrest, hvalues⟩
      obtain ⟨v, rfl⟩ := List.length_eq_one_iff.mp h₁.length
      obtain ⟨rfl, rfl⟩ := List.cons.inj hvalues
      obtain ⟨m, htakes, hfail⟩ := hnone s₁ s₂ text hrest h₁
      rw [← htakes.rest hrest] at h₂
      have hsome := (congrArg Option.isSome hfail).symm.trans (isSome_of_takeAll h₂)
      cases hsome
  · obtain ⟨m, hm, hmore⟩ := exists_of_firstAll h
    obtain ⟨s, v, hv, htakes⟩ := takes_of_reachesAll hm
    refine ⟨s, v, m, hv, htakes, hmore, ?_⟩
    rintro rfl
    exact absurd hv.optional hoptional

/-- **The preferred way to the end of the text is a preferred reading.** -/
theorem takeFirst_of_firstAll {es : List Element} {g : Nat} {p q : Cursor}
    (h : Expr.firstAll (exprsFrom ic g es) Cursor.atEnd p = some q) :
    ∃ vs, TakeFirst ic es p.rest vs ∧ q.kept = keptFrom g vs ++ p.kept := by
  induction es generalizing g p with
  | nil =>
    obtain ⟨rfl, hrest⟩ := atEnd_eq_some h
    exact ⟨[], ⟨hrest, rfl⟩, rfl⟩
  | cons e es ih =>
    rw [exprsFrom, firstAll_append] at h
    obtain ⟨s, v, m, hv, htakes, hmore, hleft⟩ := takes_of_firstAll h
    obtain ⟨vs, hvs, hkept⟩ := ih hmore
    refine ⟨v ++ vs, ⟨s, m.rest, v, vs, hv, hvs, htakes.reads.rest, rfl, hleft⟩, ?_⟩
    rw [hkept, htakes.kept, keptFrom_append, hv.length, List.append_assoc]

end RequestRouter.Spec

namespace RequestRouter.Pattern

open RequestRouter.Regex RequestRouter.Spec

/-- **What a laid spec captures is a preferred reading of the path.** -/
theorem captures_laid_first (options : CompileOptions) (spec path : String) (es : List Element)
    {params : Params} (h : (ofElements options spec es).captures path = some params) :
    ∃ values, TakeFirst (!options.caseSensitive) es (Path.collapseChars path.toList) values ∧
      params = gather Params.empty (es.flatMap Element.slots) values := by
  obtain ⟨found, hfind, rfl⟩ := Option.map_eq_some_iff.mp h
  have hfirst := (find_anchored_first _ _).symm.trans hfind
  obtain ⟨values, hvalues, hkept⟩ := takeFirst_of_firstAll hfirst
  refine ⟨values, hvalues, ?_⟩
  apply collect_eq_gather (g := 0) hvalues.takeAll.length
  intro i
  have hstart : (Cursor.start (Path.collapseChars path.toList)).kept = [] := rfl
  rw [Cursor.group?_eq_lookup, hkept, hstart, List.append_nil, lookup_keptFrom]

end RequestRouter.Pattern
