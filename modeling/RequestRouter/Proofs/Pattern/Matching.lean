/-
  RequestRouter/Proofs/Pattern/Matching.lean
  ==========================================
  **What the pattern of a laid spec matches, and what it captures.**

  `Element.Takes` says which texts an element takes and which values its captures then have.  The
  expression of a laid spec takes exactly the texts that its elements take one after the other
  (`takesAll_exprsFrom`), and the parameters of a match are the values of such a reading, slot by slot
  (`captures_laid`).
-/
import RequestRouter.Proofs.Pattern.Expression
import RequestRouter.Proofs.Unicode.Folding

namespace RequestRouter.Spec

open RequestRouter.Regex RequestRouter.Unicode Element

/-- Whether a character of a spec stands for a character of a path. -/
def sameChar (ic : Bool) (c d : Char) : Bool := if ic then sameFold c d else c == d

/-- What a capture has taken, if it took part. -/
abbrev Value := Option (List Char)

/-- The texts that a parameter may have. -/
def Admits (t : Token) (v : List Char) : Prop :=
  if t.rest then '\n' ∉ v else v ≠ [] ∧ '/' ∉ v ∧ (t.dot = true → '.' ∉ v)

/-- The element takes the text, and its captures the values. -/
def Element.Takes (ic : Bool) : Element → List Char → List Value → Prop
  | .char c, s, vs => ∃ d, s = [d] ∧ sameChar ic c d = true ∧ vs = []
  | .digits, s, vs => s ≠ [] ∧ (∀ d ∈ s, isDigit d = true) ∧ vs = [some s]
  | .star, s, vs => '\n' ∉ s ∧ vs = [some s]
  | .optionalSlash, s, vs => (s = [] ∨ s = ['/']) ∧ vs = []
  | .param t, s, vs =>
    (t.optional = true ∧ s = [] ∧ vs = [none]) ∨
      ∃ v, s = t.lead ++ v ∧ Admits t v ∧ vs = [some v]

/-- The elements take parts of the text, one after the other. -/
def TakeAll (ic : Bool) : List Element → List Char → List Value → Prop
  | [], s, vs => s = [] ∧ vs = []
  | e :: es, s, vs =>
    ∃ s₁ s₂ v₁ v₂, e.Takes ic s₁ v₁ ∧ TakeAll ic es s₂ v₂ ∧ s = s₁ ++ s₂ ∧ vs = v₁ ++ v₂

variable {ic : Bool}

theorem Element.Takes.length {e : Element} {s : List Char} {vs : List Value}
    (h : e.Takes ic s vs) : vs.length = e.slots.length := by
  cases e with
  | char c => obtain ⟨d, -, -, rfl⟩ := h; rfl
  | digits => obtain ⟨-, -, rfl⟩ := h; rfl
  | star => obtain ⟨-, rfl⟩ := h; rfl
  | optionalSlash => obtain ⟨-, rfl⟩ := h; rfl
  | param t => rcases h with ⟨-, -, rfl⟩ | ⟨v, -, -, rfl⟩ <;> rfl

theorem TakeAll.length {es : List Element} {s : List Char} {vs : List Value}
    (h : TakeAll ic es s vs) : vs.length = (es.flatMap Element.slots).length := by
  induction es generalizing s vs with
  | nil => obtain ⟨-, rfl⟩ := h; rfl
  | cons e es ih =>
    obtain ⟨s₁, s₂, v₁, v₂, h₁, h₂, rfl, rfl⟩ := h
    rw [List.flatMap_cons, List.length_append, List.length_append, h₁.length, ih h₂]

theorem takeAll_append (a b : List Element) (s : List Char) (vs : List Value) :
    TakeAll ic (a ++ b) s vs ↔
      ∃ s₁ s₂ v₁ v₂, TakeAll ic a s₁ v₁ ∧ TakeAll ic b s₂ v₂ ∧ s = s₁ ++ s₂ ∧ vs = v₁ ++ v₂ := by
  induction a generalizing s vs with
  | nil =>
    constructor
    · intro h
      exact ⟨[], s, [], vs, ⟨rfl, rfl⟩, h, rfl, rfl⟩
    · rintro ⟨-, s₂, -, v₂, ⟨rfl, rfl⟩, h, rfl, rfl⟩
      exact h
  | cons e a ih =>
    constructor
    · rintro ⟨s₁, s', v₁, v', h₁, hmore, rfl, rfl⟩
      obtain ⟨s₂, s₃, v₂, v₃, h₂, h₃, rfl, rfl⟩ := (ih _ _).mp hmore
      exact ⟨_, s₃, _, v₃, ⟨s₁, s₂, v₁, v₂, h₁, h₂, rfl, rfl⟩, h₃, by simp, by simp⟩
    · rintro ⟨-, s₃, -, v₃, ⟨s₁, s₂, v₁, v₂, h₁, h₂, rfl, rfl⟩, h₃, rfl, rfl⟩
      exact ⟨s₁, _, v₁, _, h₁, (ih _ _).mpr ⟨s₂, s₃, v₂, v₃, h₂, h₃, rfl, rfl⟩, by simp, by simp⟩

/-! ### Sets of characters -/

theorem contains_charSet (c d : Char) : (charSet ic c).contains d = sameChar ic c d := by
  cases ic with
  | false =>
    change (CharSet.ofChar c).contains d = (c == d)
    rw [CharSet.contains_ofChar, Bool.beq_comm]
  | true => exact contains_folded_ofChar c d

theorem sameChar_self (c : Char) : sameChar ic c c = true := by
  cases ic <;> exact beq_self_eq_true _

theorem sameChar_slash {d : Char} : sameChar ic '/' d = true ↔ d = '/' := by
  cases ic with
  | false =>
    change ('/' == d) = true ↔ d = '/'
    rw [beq_iff_eq, eq_comm]
  | true => exact sameFold_slash

theorem sameChar_dot {d : Char} : sameChar ic '.' d = true ↔ d = '.' := by
  cases ic with
  | false =>
    change ('.' == d) = true ↔ d = '.'
    rw [beq_iff_eq, eq_comm]
  | true => exact sameFold_dot

theorem any_or {l : List Nat} (p q : Nat → Bool) :
    l.any (fun n => p n || q n) = (l.any p || l.any q) := by
  induction l with
  | nil => rfl
  | cons n l ih =>
    rw [List.any_cons, List.any_cons, List.any_cons, ih]
    cases p n <;> cases q n <;> simp

theorem contains_slashOrDot (d : Char) :
    (slashOrDot ic).contains d = (sameChar ic '/' d || sameChar ic '.' d) := by
  rw [← contains_charSet, ← contains_charSet]
  cases ic with
  | false => rfl
  | true => exact any_or (fun n => n == '/'.toNat) (fun n => n == '.'.toNat)

theorem contains_lineSet {d : Char} : lineSet.contains d = true ↔ d ≠ '\n' := by
  change (!(CharSet.ofChar '\n').contains d) = true ↔ _
  rw [CharSet.contains_ofChar, Bool.not_eq_true', beq_eq_false_iff_ne]

/-! ### Captures as kept groups -/

/-- What the groups after the first `g` keep when they take the values. -/
def keptFrom : Nat → List Value → Kept
  | _, [] => []
  | g, v :: vs => keptFrom (g + 1) vs ++ (v.toList.map fun text => (g + 1, text))

theorem keptFrom_append (g : Nat) (a b : List Value) :
    keptFrom g (a ++ b) = keptFrom (g + a.length) b ++ keptFrom g a := by
  induction a generalizing g with
  | nil => simp [keptFrom]
  | cons v a ih =>
    rw [List.cons_append, keptFrom, keptFrom, ih, List.append_assoc, List.length_cons,
      Nat.add_assoc, Nat.add_comm 1]

theorem lookup_keptFrom_of_le {g i : Nat} (h : i ≤ g) (vs : List Value) :
    (keptFrom g vs).lookup i = none := by
  induction vs generalizing g with
  | nil => rfl
  | cons v vs ih =>
    rw [keptFrom, List.lookup_append, ih (by omega)]
    cases v with
    | none => rfl
    | some text =>
      have hne : (i == g + 1) = false := beq_eq_false_iff_ne.mpr (by omega)
      simp [List.lookup_cons, hne]

/-- Group by group, the values are what has been kept. -/
theorem lookup_keptFrom (g i : Nat) (vs : List Value) :
    (keptFrom g vs).lookup (g + 1 + i) = vs[i]?.join := by
  induction vs generalizing g i with
  | nil => rfl
  | cons v vs ih =>
    rw [keptFrom, List.lookup_append]
    cases i with
    | zero =>
      rw [lookup_keptFrom_of_le (Nat.le_refl _)]
      cases v with
      | none => rfl
      | some text => simp
    | succ i =>
      have hindex : g + 1 + (i + 1) = g + 1 + 1 + i := by omega
      rw [hindex, ih, List.getElem?_cons_succ]
      have hown : (v.toList.map fun text => (g + 1, text)).lookup (g + 1 + 1 + i) = none := by
        cases v with
        | none => rfl
        | some text =>
          have hne : (g + 1 + 1 + i == g + 1) = false := beq_eq_false_iff_ne.mpr (by omega)
          simp [List.lookup_cons, hne]
      rw [hown, Option.or_none]

/-! ### Elements and their expressions -/

theorem takesAll_singleton {e : Expr} {s : List Char} {gs : Kept} :
    Expr.TakesAll [e] s gs ↔ e.Takes s gs := (takes_seqs [e] s gs).symm

theorem takes_char {c : Char} {s : List Char} {gs : Kept} :
    (Expr.one (charSet ic c)).Takes s gs ↔ ∃ d, s = [d] ∧ sameChar ic c d = true ∧ gs = [] := by
  simp only [Expr.Takes, contains_charSet]

theorem takesAll_slash {b : Bool} {s : List Char} {gs : Kept} :
    Expr.TakesAll (if b then [.one (charSet ic '/')] else []) s gs ↔
      s = (if b then ['/'] else []) ∧ gs = [] := by
  cases b with
  | false => exact Iff.rfl
  | true =>
    rw [if_pos rfl, if_pos rfl, takesAll_singleton, takes_char]
    simp [sameChar_slash]

theorem takesAll_dot {b : Bool} {s : List Char} {gs : Kept} :
    Expr.TakesAll (if b then [.one (charSet ic '.')] else []) s gs ↔
      s = (if b then ['.'] else []) ∧ gs = [] := by
  cases b with
  | false => exact Iff.rfl
  | true =>
    rw [if_pos rfl, if_pos rfl, takesAll_singleton, takes_char]
    simp [sameChar_dot]

/-- The characters of a parameter that is one segment, or ends at a dot. -/
theorem contains_segmentSet {dot : Bool} {d : Char} :
    (CharSet.compl (if dot then slashOrDot ic else charSet ic '/')).contains d = true ↔
      d ≠ '/' ∧ (dot = true → d ≠ '.') := by
  rw [CharSet.contains_compl, Bool.not_eq_true', Bool.eq_false_iff]
  cases dot with
  | false =>
    rw [if_neg Bool.false_ne_true, contains_charSet, ne_eq, sameChar_slash]
    simp
  | true =>
    rw [if_pos rfl, contains_slashOrDot, ne_eq, Bool.or_eq_true, sameChar_slash, sameChar_dot]
    simp

theorem takes_captureExpr {t : Token} {s : List Char} {gs : Kept} :
    (captureExpr ic t).Takes s gs ↔ Admits t s ∧ gs = [] := by
  unfold captureExpr Admits
  split
  · rw [takes_run]
    simp only [contains_lineSet]
    constructor
    · rintro ⟨-, hall, rfl⟩
      exact ⟨fun h => hall _ h rfl, rfl⟩
    · rintro ⟨hline, rfl⟩
      exact ⟨Nat.zero_le _, fun d hd h => hline (h ▸ hd), rfl⟩
  · rw [takes_run]
    simp only [contains_segmentSet]
    constructor
    · rintro ⟨hlength, hall, rfl⟩
      refine ⟨⟨List.ne_nil_of_length_pos hlength, ?_, ?_⟩, rfl⟩
      · intro h
        exact (hall _ h).1 rfl
      · intro hdot h
        exact (hall _ h).2 hdot rfl
    · rintro ⟨⟨hne, hslash, hdots⟩, rfl⟩
      refine ⟨List.length_pos_iff.mpr hne, ?_, rfl⟩
      intro d hd
      constructor
      · rintro rfl
        exact hslash hd
      · rintro hdot rfl
        exact hdots hdot hd

/-- What the wrapper of a parameter takes. -/
theorem takes_insideExpr {g : Nat} {t : Token} {s : List Char} {gs : Kept} :
    (insideExpr ic g t).Takes s gs ↔
      ∃ v, s = (if t.slash && t.optional then ['/'] else []) ++ (if t.dot then ['.'] else []) ++ v ∧
        Admits t v ∧ gs = [(g + 1, v)] := by
  rw [insideExpr, takes_seqs, leadExprs]
  constructor
  · intro h
    obtain ⟨s', v, g', g'', hlead, hgroup, rfl, rfl⟩ := (takesAll_append _ _ _ _).mp h
    obtain ⟨s₁, s₂, g₁, g₂, h₁, h₂, rfl, rfl⟩ := (takesAll_append _ _ _ _).mp hlead
    obtain ⟨rfl, rfl⟩ := takesAll_slash.mp h₁
    obtain ⟨rfl, rfl⟩ := takesAll_dot.mp h₂
    obtain ⟨inner, hinner, rfl⟩ := takesAll_singleton.mp hgroup
    obtain ⟨hv, rfl⟩ := takes_captureExpr.mp hinner
    exact ⟨v, rfl, hv, rfl⟩
  · rintro ⟨v, rfl, hv, rfl⟩
    refine (takesAll_append _ _ _ _).mpr ⟨_, v, [], _, ?_, ?_, rfl, (List.append_nil _).symm⟩
    · exact (takesAll_append _ _ _ _).mpr
        ⟨_, _, [], [], takesAll_slash.mpr ⟨rfl, rfl⟩, takesAll_dot.mpr ⟨rfl, rfl⟩, rfl, rfl⟩
    · exact takesAll_singleton.mpr ⟨[], takes_captureExpr.mpr ⟨hv, rfl⟩, rfl⟩

theorem takesAll_param {g : Nat} {t : Token} {s : List Char} {gs : Kept} :
    Expr.TakesAll ((Element.param t).exprs ic g) s gs ↔
      ∃ vs, (Element.param t).Takes ic s vs ∧ gs = keptFrom g vs := by
  cases hoptional : t.optional with
  | false =>
    have hexprs : (Element.param t).exprs ic g =
        (if t.slash then [.one (charSet ic '/')] else []) ++ [insideExpr ic g t] := by
      simp [Element.exprs, hoptional]
    rw [hexprs, takesAll_append]
    constructor
    · rintro ⟨s₁, s₂, g₁, g₂, h₁, h₂, rfl, rfl⟩
      obtain ⟨rfl, rfl⟩ := takesAll_slash.mp h₁
      obtain ⟨v, rfl, hv, rfl⟩ := takes_insideExpr.mp (takesAll_singleton.mp h₂)
      exact ⟨[some v], Or.inr ⟨v, by simp [Token.lead, hoptional], hv, rfl⟩, rfl⟩
    · rintro ⟨vs, ⟨hopt, -, -⟩ | ⟨v, rfl, hv, rfl⟩, rfl⟩
      · rw [hoptional] at hopt
        cases hopt
      · refine ⟨_, _, [], _, takesAll_slash.mpr ⟨rfl, rfl⟩,
          takesAll_singleton.mpr (takes_insideExpr.mpr ⟨v, rfl, hv, rfl⟩), ?_, rfl⟩
        simp [Token.lead, hoptional]
  | true =>
    have hexprs : (Element.param t).exprs ic g = [.rounds (insideExpr ic g t) 0 (some 1) true] := by
      simp [Element.exprs, hoptional]
    rw [hexprs, takesAll_singleton, takes_optional, takes_insideExpr]
    constructor
    · rintro (⟨rfl, rfl⟩ | ⟨v, rfl, hv, rfl⟩)
      · exact ⟨[none], Or.inl ⟨hoptional, rfl, rfl⟩, rfl⟩
      · exact ⟨[some v], Or.inr ⟨v, by simp [Token.lead, hoptional], hv, rfl⟩, rfl⟩
    · rintro ⟨vs, ⟨-, rfl, rfl⟩ | ⟨v, rfl, hv, rfl⟩, rfl⟩
      · exact Or.inl ⟨rfl, rfl⟩
      · exact Or.inr ⟨v, by simp [Token.lead, hoptional], hv, rfl⟩

/-- **The expressions of an element take what the element takes.** -/
theorem Element.takesAll_exprs (e : Element) {g : Nat} {s : List Char} {gs : Kept} :
    Expr.TakesAll (e.exprs ic g) s gs ↔ ∃ vs, e.Takes ic s vs ∧ gs = keptFrom g vs := by
  cases e with
  | param t => exact takesAll_param
  | char c =>
    rw [Element.exprs, takesAll_singleton, takes_char]
    constructor
    · rintro ⟨d, rfl, hd, rfl⟩
      exact ⟨[], ⟨d, rfl, hd, rfl⟩, rfl⟩
    · rintro ⟨vs, ⟨d, rfl, hd, rfl⟩, rfl⟩
      exact ⟨d, rfl, hd, rfl⟩
  | digits =>
    rw [Element.exprs, takesAll_singleton]
    constructor
    · rintro ⟨inner, hinner, rfl⟩
      obtain ⟨hlength, hall, rfl⟩ := (takes_run _ _ _ _ _).mp hinner
      exact ⟨[some s], ⟨List.ne_nil_of_length_pos hlength, hall, rfl⟩, rfl⟩
    · rintro ⟨vs, ⟨hne, hall, rfl⟩, rfl⟩
      exact ⟨[], (takes_run _ _ _ _ _).mpr ⟨List.length_pos_iff.mpr hne, hall, rfl⟩, rfl⟩
  | star =>
    rw [Element.exprs, takesAll_singleton]
    constructor
    · rintro ⟨inner, hinner, rfl⟩
      obtain ⟨-, hall, rfl⟩ := (takes_run _ _ _ _ _).mp hinner
      exact ⟨[some s], ⟨fun h => contains_lineSet.mp (hall _ h) rfl, rfl⟩, rfl⟩
    · rintro ⟨vs, ⟨hline, rfl⟩, rfl⟩
      refine ⟨[], (takes_run _ _ _ _ _).mpr ⟨Nat.zero_le _, ?_, rfl⟩, rfl⟩
      intro d hd
      exact contains_lineSet.mpr fun h => hline (h ▸ hd)
  | optionalSlash =>
    rw [Element.exprs, takesAll_singleton, takes_optional, takes_char]
    constructor
    · rintro (⟨rfl, rfl⟩ | ⟨d, rfl, hd, rfl⟩)
      · exact ⟨[], ⟨Or.inl rfl, rfl⟩, rfl⟩
      · exact ⟨[], ⟨Or.inr (by rw [sameChar_slash.mp hd]), rfl⟩, rfl⟩
    · rintro ⟨vs, ⟨rfl | rfl, rfl⟩, rfl⟩
      · exact Or.inl ⟨rfl, rfl⟩
      · exact Or.inr ⟨'/', rfl, sameChar_slash.mpr rfl, rfl⟩

/-- The expressions of elements take what the elements take, one after the other. -/
theorem takesAll_exprsFrom (es : List Element) {g : Nat} {s : List Char} {gs : Kept} :
    Expr.TakesAll (exprsFrom ic g es) s gs ↔ ∃ vs, TakeAll ic es s vs ∧ gs = keptFrom g vs := by
  induction es generalizing g s gs with
  | nil =>
    constructor
    · rintro ⟨rfl, rfl⟩
      exact ⟨[], ⟨rfl, rfl⟩, rfl⟩
    · rintro ⟨vs, ⟨rfl, rfl⟩, rfl⟩
      exact ⟨rfl, rfl⟩
  | cons e es ih =>
    rw [exprsFrom, takesAll_append]
    constructor
    · rintro ⟨s₁, s₂, g₁, g₂, h₁, h₂, rfl, rfl⟩
      obtain ⟨v₁, hv₁, rfl⟩ := e.takesAll_exprs.mp h₁
      obtain ⟨v₂, hv₂, rfl⟩ := ih.mp h₂
      refine ⟨v₁ ++ v₂, ⟨s₁, s₂, v₁, v₂, hv₁, hv₂, rfl, rfl⟩, ?_⟩
      rw [keptFrom_append, hv₁.length]
    · rintro ⟨vs, ⟨s₁, s₂, v₁, v₂, hv₁, hv₂, rfl, rfl⟩, rfl⟩
      refine ⟨s₁, s₂, _, _, e.takesAll_exprs.mpr ⟨v₁, hv₁, rfl⟩, ih.mpr ⟨v₂, hv₂, rfl⟩, rfl, ?_⟩
      rw [keptFrom_append, hv₁.length]

theorem lookFree_insideExpr (g : Nat) (t : Token) : (insideExpr ic g t).lookFree = true := by
  obtain ⟨slash, dot, name, constraint, optional, rest⟩ := t
  cases slash <;> cases dot <;> cases optional <;> cases rest <;> rfl

theorem lookFree_exprsFrom (ic : Bool) (es : List Element) (g : Nat) :
    ∀ x ∈ exprsFrom ic g es, x.lookFree = true := by
  induction es generalizing g with
  | nil =>
    intro x hx
    cases hx
  | cons e es ih =>
    intro x hx
    rcases List.mem_append.mp hx with hx | hx
    · cases e with
      | param t =>
        rcases List.mem_append.mp hx with hx | hx
        · split at hx
          · obtain rfl := List.mem_singleton.mp hx
            rfl
          · cases hx
        · obtain rfl := List.mem_singleton.mp hx
          split
          · exact lookFree_insideExpr g t
          · exact lookFree_insideExpr g t
      | char c => obtain rfl := List.mem_singleton.mp hx; rfl
      | digits => obtain rfl := List.mem_singleton.mp hx; rfl
      | star => obtain rfl := List.mem_singleton.mp hx; rfl
      | optionalSlash => obtain rfl := List.mem_singleton.mp hx; rfl
    · exact ih _ x hx

end RequestRouter.Spec

namespace RequestRouter.Pattern

open RequestRouter.Regex RequestRouter.Spec

/-- Parameters with the values of slots added, slot by slot. -/
def gather (params : Params) (slots : List Slot) (values : List Value) : Params :=
  (slots.zip values).foldl (fun params entry => addGroup params entry.1 entry.2) params

theorem collect_eq_gather {found : Cursor} {slots : List Slot} {values : List Value} {g : Nat}
    (hlength : values.length = slots.length)
    (h : ∀ i, found.group? (g + 1 + i) = values[i]?.join) (params : Params) :
    collect found params (g + 1) slots = gather params slots values := by
  induction slots generalizing g values params with
  | nil =>
    cases values with
    | nil => rfl
    | cons v values => cases hlength
  | cons slot slots ih =>
    cases values with
    | nil => cases hlength
    | cons v values =>
      have hown : found.group? (g + 1) = v := h 0
      have hmore : ∀ i, found.group? (g + 1 + 1 + i) = values[i]?.join := by
        intro i
        have := h (i + 1)
        rw [List.getElem?_cons_succ] at this
        rw [← this]
        congr 1
        omega
      rw [collect, hown, ih (Nat.succ.inj hlength) hmore]
      rfl

/-- **What a laid spec captures.**  A match is a reading of the collapsed path by the elements, its
    parameters are the values of that reading, and there is a match if there is a reading. -/
theorem captures_laid (options : CompileOptions) (spec path : String) (es : List Element) :
    (∀ params, (ofElements options spec es).captures path = some params →
      ∃ values, TakeAll (!options.caseSensitive) es (Path.collapseChars path.toList) values ∧
        params = gather Params.empty (es.flatMap Element.slots) values) ∧
    (((ofElements options spec es).captures path).isSome ↔
      ∃ values, TakeAll (!options.caseSensitive) es (Path.collapseChars path.toList) values) := by
  have hfree := lookFree_seqs (lookFree_exprsFrom (!options.caseSensitive) es 0)
  obtain ⟨hfound, hsome⟩ := find_anchored hfree (Path.collapseChars path.toList)
  constructor
  · intro params hparams
    obtain ⟨found, hfind, rfl⟩ := Option.map_eq_some_iff.mp hparams
    obtain ⟨gs, htakes, hgroup⟩ := hfound found hfind
    obtain ⟨values, hvalues, rfl⟩ := (takesAll_exprsFrom es).mp ((takes_seqs _ _ _).mp htakes)
    refine ⟨values, hvalues, ?_⟩
    apply collect_eq_gather (g := 0) hvalues.length
    intro i
    rw [hgroup, lookup_keptFrom]
  · rw [captures, Option.isSome_map]
    refine hsome.trans ?_
    constructor
    · rintro ⟨gs, htakes⟩
      obtain ⟨values, hvalues, -⟩ := (takesAll_exprsFrom es).mp ((takes_seqs _ _ _).mp htakes)
      exact ⟨values, hvalues⟩
    · rintro ⟨values, hvalues⟩
      exact ⟨_, (takes_seqs _ _ _).mpr ((takesAll_exprsFrom es).mpr ⟨values, hvalues, rfl⟩)⟩

end RequestRouter.Pattern
