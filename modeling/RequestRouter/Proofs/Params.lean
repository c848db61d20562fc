/-
  RequestRouter/Proofs/Params.lean
  ================================
  **Named values added one after the other are the values grouped by name.**
-/
import Mathlib.Data.List.Basic
import RequestRouter.Params

namespace RequestRouter.Params

open RequestRouter.Text

/-- A value and the name under which it is added. -/
abbrev Entry := String × String

/-- The values of a name, in whatever ASCII case it is written, in order. -/
def valuesUnder (name : String) (entries : List Entry) : List String :=
  (entries.filter fun e => sameIgnoringCase name e.1).map Prod.snd

/-- Every name that is not seen yet, in the spelling that comes first, with its values. -/
def groupedFrom (seen : List String) : List Entry → List NamedParam
  | [] => []
  | e :: more =>
    if seen.any (sameIgnoringCase · e.1) then groupedFrom seen more
    else ⟨e.1, valuesUnder e.1 (e :: more)⟩ :: groupedFrom (seen ++ [e.1]) more

/-- The values grouped by name, the names in the order in which they come first. -/
def grouped (entries : List Entry) : List NamedParam := groupedFrom [] entries

/-- The parameter of a name that has one value only. -/
def ofEntry (e : Entry) : NamedParam := ⟨e.1, [e.2]⟩

/-- The values that entries add to those of a name. -/
def extend (entries : List Entry) (p : NamedParam) : NamedParam :=
  { p with values := p.values ++ valuesUnder p.name entries }

/-- No two names are the same. -/
def Distinct (named : List NamedParam) : Prop :=
  named.Pairwise fun p q => sameIgnoringCase p.name q.name = false

theorem valuesUnder_cons_of_pos {name : String} {e : Entry} (h : sameIgnoringCase name e.1 = true)
    (more : List Entry) : valuesUnder name (e :: more) = e.2 :: valuesUnder name more := by
  simp [valuesUnder, h]

theorem valuesUnder_cons_of_neg {name : String} {e : Entry} (h : sameIgnoringCase name e.1 = false)
    (more : List Entry) : valuesUnder name (e :: more) = valuesUnder name more := by
  simp [valuesUnder, h]

theorem addNamed_of_not_any {named : List NamedParam} {name : String}
    (h : named.any (fun p => sameIgnoringCase p.name name) = false) (value : String) :
    addNamed name value named = named ++ [⟨name, [value]⟩] := by
  induction named with
  | nil => rfl
  | cons p named ih =>
    rw [List.any_cons, Bool.or_eq_false_iff] at h
    rw [addNamed, h.1, if_neg Bool.false_ne_true, ih h.2]
    rfl

/-- A value of a known name goes to that name only. -/
theorem map_extend_addNamed {named : List NamedParam} {e : Entry} (hdistinct : Distinct named)
    (h : named.any (fun p => sameIgnoringCase p.name e.1) = true) (more : List Entry) :
    (addNamed e.1 e.2 named).map (extend more) =
      named.map (extend (e :: more)) := by
  induction named with
  | nil => cases h
  | cons p named ih =>
    rw [Distinct, List.pairwise_cons] at hdistinct
    rw [addNamed]
    by_cases hp : sameIgnoringCase p.name e.1 = true
    · rw [if_pos hp, List.map_cons, List.map_cons]
      congr 1
      · simp [extend, valuesUnder_cons_of_pos hp]
      · apply List.map_congr_left
        intro q hq
        have hother : sameIgnoringCase q.name e.1 = false := by
          rw [Bool.eq_false_iff]
          intro hsame
          have hpq := sameIgnoringCase_trans hp (by rwa [sameIgnoringCase_comm])
          rw [hdistinct.1 q hq] at hpq
          cases hpq
        simp [extend, valuesUnder_cons_of_neg hother]
    · rw [Bool.not_eq_true] at hp
      rw [List.any_cons, hp, Bool.false_or] at h
      rw [hp, if_neg Bool.false_ne_true, List.map_cons, List.map_cons, ih hdistinct.2 h]
      congr 1
      simp [extend, valuesUnder_cons_of_neg hp]

theorem map_name_addNamed_of_any {named : List NamedParam} {name : String}
    (h : named.any (fun p => sameIgnoringCase p.name name) = true) (value : String) :
    (addNamed name value named).map NamedParam.name = named.map NamedParam.name := by
  induction named with
  | nil => cases h
  | cons p named ih =>
    rw [addNamed]
    split
    · rfl
    · next hp =>
      rw [List.any_cons, Bool.or_eq_true] at h
      rw [List.map_cons, List.map_cons, ih (h.resolve_left hp)]

theorem distinct_iff {named : List NamedParam} :
    Distinct named ↔ (named.map NamedParam.name).Pairwise fun a b => sameIgnoringCase a b = false := by
  rw [List.pairwise_map]
  rfl

theorem any_map_name {named : List NamedParam} {name : String} :
    (named.map NamedParam.name).any (sameIgnoringCase · name) =
      named.any fun p => sameIgnoringCase p.name name := by
  rw [List.any_map]
  rfl

/-- Entries added one after the other to parameters with distinct names. -/
theorem foldl_addNamed (entries : List Entry) {named : List NamedParam}
    (hdistinct : Distinct named) :
    entries.foldl (fun named e => addNamed e.1 e.2 named) named =
      named.map (extend entries) ++
        groupedFrom (named.map NamedParam.name) entries := by
  induction entries generalizing named with
  | nil =>
    have hself : named.map (extend []) = named := by
      apply List.map_id''
      intro p
      simp [extend, valuesUnder]
    rw [List.foldl_nil, hself, groupedFrom, List.append_nil]
  | cons e more ih =>
    rw [List.foldl_cons, groupedFrom, any_map_name]
    by_cases hany : named.any (fun p => sameIgnoringCase p.name e.1) = true
    · have hnames := map_name_addNamed_of_any hany e.2
      have hdistinct' : Distinct (addNamed e.1 e.2 named) := by
        rw [distinct_iff, hnames]
        exact distinct_iff.mp hdistinct
      rw [if_pos hany, ih hdistinct', map_extend_addNamed hdistinct hany, hnames]
    · rw [Bool.not_eq_true] at hany
      have hdistinct' : Distinct (named ++ [⟨e.1, [e.2]⟩]) := by
        rw [Distinct, List.pairwise_append]
        refine ⟨hdistinct, List.pairwise_singleton _ _, ?_⟩
        intro p hp q hq
        obtain rfl := List.mem_singleton.mp hq
        have hother := List.any_eq_false.mp hany p hp
        rwa [Bool.not_eq_true] at hother
      rw [hany, if_neg Bool.false_ne_true, addNamed_of_not_any hany, ih hdistinct', List.map_append,
        List.map_append, List.append_assoc]
      have hextend : named.map (extend (e :: more)) = named.map (extend more) := by
        apply List.map_congr_left
        intro p hp
        have hother := List.any_eq_false.mp hany p hp
        rw [Bool.not_eq_true] at hother
        simp [extend, valuesUnder_cons_of_neg hother]
      rw [hextend, valuesUnder_cons_of_pos (sameIgnoringCase_refl e.1)]
      rfl

/-- **Added values are grouped by name.** -/
theorem foldl_addNamed_nil (entries : List Entry) :
    entries.foldl (fun named e => addNamed e.1 e.2 named) [] = grouped entries := by
  rw [foldl_addNamed entries .nil]
  rfl

/-! ### The groups -/

/-- Values of names that are seen are not those of a name that is not. -/
theorem valuesUnder_append_of_seen {seen : List String} {before : List Entry}
    (hbefore : ∀ e ∈ before, seen.any (sameIgnoringCase · e.1) = true) {name : String}
    (hname : seen.any (sameIgnoringCase · name) = false) (entries : List Entry) :
    valuesUnder name (before ++ entries) = valuesUnder name entries := by
  have hnone : before.filter (fun e => sameIgnoringCase name e.1) = [] := by
    rw [List.filter_eq_nil_iff]
    intro e he hsame
    obtain ⟨first, hfirst, hown⟩ := List.any_eq_true.mp (hbefore e he)
    rw [sameIgnoringCase_comm] at hsame
    exact List.any_eq_false.mp hname first hfirst (sameIgnoringCase_trans hown hsame)
  rw [valuesUnder, List.filter_append, hnone, List.nil_append, valuesUnder]

/-- What is added under names that are not seen yet, behind entries of names that are: the spellings
    that come first, each with its values. -/
theorem groupedFrom_eq_map {seen : List String} {before : List Entry}
    (hbefore : ∀ e ∈ before, seen.any (sameIgnoringCase · e.1) = true) (entries : List Entry) :
    groupedFrom seen entries =
      (((entries.map Prod.fst).filter fun name => !seen.any (sameIgnoringCase · name)).eraseDupsBy
        sameIgnoringCase).map fun name => ⟨name, valuesUnder name (before ++ entries)⟩ := by
  induction entries generalizing seen before with
  | nil => rfl
  | cons e more ih =>
    have hall : before ++ e :: more = (before ++ [e]) ++ more := by simp
    rw [groupedFrom, List.map_cons, List.filter_cons]
    cases hseen : seen.any (sameIgnoringCase · e.1) with
    | true =>
      rw [if_pos rfl, Bool.not_true, if_neg Bool.false_ne_true, hall]
      apply ih
      intro e' he'
      rcases List.mem_append.mp he' with he' | he'
      · exact hbefore e' he'
      · rwa [List.mem_singleton.mp he']
    | false =>
      rw [if_neg Bool.false_ne_true, Bool.not_false, if_pos rfl, List.eraseDupsBy_cons, List.map_cons,
        valuesUnder_append_of_seen hbefore hseen, hall, List.filter_filter]
      have hbefore' : ∀ e' ∈ before ++ [e], (seen ++ [e.1]).any (sameIgnoringCase · e'.1) = true := by
        intro e' he'
        rw [List.any_append]
        rcases List.mem_append.mp he' with he' | he'
        · rw [hbefore e' he', Bool.true_or]
        · rw [List.mem_singleton.mp he', List.any_cons, sameIgnoringCase_refl, Bool.true_or,
            Bool.or_true]
      congr 1
      rw [ih hbefore']
      congr 2
      apply List.filter_congr
      intro name _
      rw [List.any_append, List.any_cons, List.any_nil, Bool.or_false,
        sameIgnoringCase_comm e.1 name]
      cases seen.any (sameIgnoringCase · name) <;> cases sameIgnoringCase name e.1 <;> rfl

/-- **The groups stand in the order in which their names come first**, in the spelling of that place. -/
theorem grouped_eq_map (entries : List Entry) :
    grouped entries = ((entries.map Prod.fst).eraseDupsBy sameIgnoringCase).map
      fun name => ⟨name, valuesUnder name entries⟩ := by
  have hunseen : (entries.map Prod.fst).filter
      (fun name => !([] : List String).any (sameIgnoringCase · name)) = entries.map Prod.fst := by
    simp
  have hgroups := @groupedFrom_eq_map [] [] (fun _ h => absurd h List.not_mem_nil) entries
  rw [hunseen] at hgroups
  exact hgroups

theorem not_seen_of_mem_groupedFrom {seen : List String} {entries : List Entry} {p : NamedParam}
    (hp : p ∈ groupedFrom seen entries) : seen.any (sameIgnoringCase · p.name) = false := by
  induction entries generalizing seen with
  | nil => cases hp
  | cons e more ih =>
    rw [groupedFrom] at hp
    split at hp
    · exact ih hp
    · next hseen =>
      rcases List.mem_cons.mp hp with rfl | hp
      · exact Bool.eq_false_iff.mpr hseen
      · have hnot := ih hp
        rw [List.any_append, Bool.or_eq_false_iff] at hnot
        exact hnot.1

theorem distinct_groupedFrom (seen : List String) (entries : List Entry) :
    Distinct (groupedFrom seen entries) := by
  induction entries generalizing seen with
  | nil => exact .nil
  | cons e more ih =>
    rw [groupedFrom]
    split
    · exact ih seen
    · refine List.pairwise_cons.mpr ⟨?_, ih (seen ++ [e.1])⟩
      intro p hp
      have hnot := not_seen_of_mem_groupedFrom hp
      rw [List.any_append, Bool.or_eq_false_iff, List.any_cons, Bool.or_eq_false_iff] at hnot
      exact hnot.2.1

/-- A group has the value at least with which its name comes first. -/
theorem values_ne_nil_of_mem_groupedFrom {seen : List String} {entries : List Entry}
    {p : NamedParam} (hp : p ∈ groupedFrom seen entries) : p.values ≠ [] := by
  induction entries generalizing seen with
  | nil => cases hp
  | cons e more ih =>
    rw [groupedFrom] at hp
    split at hp
    · exact ih hp
    · rcases List.mem_cons.mp hp with rfl | hp
      · simp [valuesUnder_cons_of_pos (sameIgnoringCase_refl e.1)]
      · exact ih hp

/-! ### Looking up -/

theorem valuesUnder_congr {name name' : String} (h : sameIgnoringCase name name' = true)
    (entries : List Entry) : valuesUnder name entries = valuesUnder name' entries := by
  have hsame : ∀ other, sameIgnoringCase name other = sameIgnoringCase name' other := by
    intro other
    rw [Bool.eq_iff_iff]
    exact ⟨sameIgnoringCase_trans ((sameIgnoringCase_comm name' name).trans h),
    sameIgnoringCase_trans h⟩
  simp only [valuesUnder, hsame]

theorem getAll_cons_of_pos (p : NamedParam) {name : String}
    (h : sameIgnoringCase p.name name = true) (named : List NamedParam) (splats : List String) :
    (Params.mk (p :: named) splats).getAll name = p.values := by
  simp only [getAll, List.find?_cons, h]

theorem getAll_cons_of_neg (p : NamedParam) {name : String}
    (h : sameIgnoringCase p.name name = false) (named : List NamedParam) (splats : List String) :
    (Params.mk (p :: named) splats).getAll name = (Params.mk named splats).getAll name := by
  simp only [getAll, List.find?_cons, h]

theorem getAll_groupedFrom {seen : List String} {name : String}
    (hseen : ∀ other ∈ seen, sameIgnoringCase other name = false) (entries : List Entry)
    (splats : List String) :
    (Params.mk (groupedFrom seen entries) splats).getAll name = valuesUnder name entries := by
  induction entries generalizing seen with
  | nil => rfl
  | cons e more ih =>
    cases hown : sameIgnoringCase e.1 name with
    | true =>
      -- The first entry of the name: it is not seen yet, and all values stand under it.
      have hnew : seen.any (sameIgnoringCase · e.1) = false := by
        rw [List.any_eq_false]
        intro other hother hsame
        have hfalse := (hseen other hother).symm.trans (sameIgnoringCase_trans hsame hown)
        cases hfalse
      rw [groupedFrom, hnew, if_neg Bool.false_ne_true, getAll_cons_of_pos ⟨e.1, _⟩ hown]
      exact valuesUnder_congr hown _
    | false =>
      rw [valuesUnder_cons_of_neg (by rwa [sameIgnoringCase_comm]), groupedFrom]
      split
      · exact ih hseen
      · rw [getAll_cons_of_neg ⟨e.1, _⟩ hown]
        refine ih ?_
        intro other hother
        rcases List.mem_append.mp hother with hother | hother
        · exact hseen other hother
        · rwa [List.mem_singleton.mp hother]

/-- Under a name stand the values that were taken under it, in any ASCII case. -/
theorem getAll_grouped (entries : List Entry) (splats : List String) (name : String) :
    (Params.mk (grouped entries) splats).getAll name = valuesUnder name entries :=
  getAll_groupedFrom (fun _ h => absurd h List.not_mem_nil) entries splats

/-- If no name stands twice, an entry has the only value under its name. -/
theorem valuesUnder_of_distinct {entries : List Entry}
    (h : (entries.map Prod.fst).Pairwise fun a b => sameIgnoringCase a b = false) {e : Entry}
    (he : e ∈ entries) {name : String} (hname : sameIgnoringCase name e.1 = true) :
    valuesUnder name entries = [e.2] := by
  have hback : sameIgnoringCase e.1 name = true := (sameIgnoringCase_comm e.1 name).trans hname
  induction entries with
  | nil => cases he
  | cons first more ih =>
    rw [List.map_cons, List.pairwise_cons] at h
    obtain ⟨hfirst, hmore⟩ := h
    rcases List.mem_cons.mp he with rfl | he
    · have hrest : valuesUnder name more = [] := by
        rw [valuesUnder, List.map_eq_nil_iff, List.filter_eq_nil_iff]
        intro other hother hsame
        have hfalse := (hfirst other.1 (List.mem_map_of_mem hother)).symm.trans
          (sameIgnoringCase_trans hback hsame)
        cases hfalse
      rw [valuesUnder_cons_of_pos hname, hrest]
    · have hother : sameIgnoringCase name first.1 = false := by
        rw [Bool.eq_false_iff]
        intro hsame
        have hfalse := (hfirst e.1 (List.mem_map_of_mem he)).symm.trans
          (sameIgnoringCase_trans ((sameIgnoringCase_comm first.1 name).trans hsame) hname)
        cases hfalse
      rw [valuesUnder_cons_of_neg hother, ih hmore he]

/-- If no name stands twice, each entry is a parameter of its own. -/
theorem groupedFrom_of_distinct {seen : List String} {entries : List Entry}
    (hseen : ∀ other ∈ seen, ∀ e ∈ entries, sameIgnoringCase other e.1 = false)
    (h : (entries.map Prod.fst).Pairwise fun a b => sameIgnoringCase a b = false) :
    groupedFrom seen entries = entries.map ofEntry := by
  induction entries generalizing seen with
  | nil => rfl
  | cons e more ih =>
    have hnew : seen.any (sameIgnoringCase · e.1) = false := by
      rw [List.any_eq_false]
      intro other hother hsame
      rw [hseen other hother e List.mem_cons_self] at hsame
      cases hsame
    have hvalues := valuesUnder_of_distinct h List.mem_cons_self (sameIgnoringCase_refl e.1)
    rw [List.map_cons, List.pairwise_cons] at h
    rw [groupedFrom, hnew, if_neg Bool.false_ne_true, hvalues, List.map_cons]
    refine congrArg (ofEntry e :: ·) (ih ?_ h.2)
    intro other hother e' he'
    rcases List.mem_append.mp hother with hother | hother
    · exact hseen other hother e' (List.mem_cons_of_mem _ he')
    · rw [List.mem_singleton.mp hother]
      exact h.1 e'.1 (List.mem_map_of_mem he')

theorem grouped_of_distinct {entries : List Entry}
    (h : (entries.map Prod.fst).Pairwise fun a b => sameIgnoringCase a b = false) :
    grouped entries = entries.map ofEntry :=
  groupedFrom_of_distinct (fun _ hother => absurd hother List.not_mem_nil) h

theorem get?_ofEntry {entries : List Entry}
    (h : (entries.map Prod.fst).Pairwise fun a b => sameIgnoringCase a b = false) {e : Entry}
    (he : e ∈ entries) (splats : List String) :
    (Params.mk (entries.map ofEntry) splats).get? e.1 = some e.2 := by
  rw [← grouped_of_distinct h, get?, getAll_grouped,
    valuesUnder_of_distinct h he (sameIgnoringCase_refl e.1)]
  rfl

theorem get?_eq_none {named : List NamedParam} {name : String}
    (h : ∀ p ∈ named, sameIgnoringCase p.name name = false) (splats : List String) :
    (Params.mk named splats).get? name = none := by
  have hfind : named.find? (sameIgnoringCase ·.name name) = none := by
    rw [List.find?_eq_none]
    intro p hp hsame
    rw [h p hp] at hsame
    cases hsame
  rw [get?, getAll, hfind]
  rfl

end RequestRouter.Params
