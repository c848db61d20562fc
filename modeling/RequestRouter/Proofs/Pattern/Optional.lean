/-
  RequestRouter/Proofs/Pattern/Optional.lean
  ==========================================
  **Parameters that may be left out take values from the left.**

  A segment route can go on with parameters `/:name?`.  Its pattern matches the paths with a fitting
  piece for each segment and at most one value for each of these parameters.  Such a path has a
  reading for every choice of the parameters that the values go to; the preferred one gives them to
  the first parameters (`values_of_takeFirst`).  So these are bound to the values in order, and the
  others are absent (`captures_optional`).
-/
import RequestRouter.Proofs.Pattern.Preferred
import RequestRouter.Proofs.Pattern.Segments

namespace RequestRouter.Pattern

open RequestRouter.Regex RequestRouter.Spec RequestRouter.Text RequestRouter.Unicode

/-- A parameter that may be left out together with the slash before it. -/
def optionalToken (name : List Char) : Token := ⟨true, false, name, none, true, false⟩

/-- The parameter as it is written behind its slash. -/
def optionalText (name : List Char) : List Char := ':' :: (name ++ ['?'])

def optionals (names : List (List Char)) : List Element :=
  names.map fun name => .param (optionalToken name)

/-- The spec of a segment route that goes on with parameters that may be left out. -/
def optionalSpec (segments : List Segment) (names : List (List Char)) : String :=
  String.ofList (slashed (segments.map Segment.text ++ names.map optionalText))

/-- The elements of this route. -/
def optionalElements (strict : Bool) (segments : List Segment) (names : List (List Char)) :
    List Element :=
  segments.flatMap Segment.elements ++ (optionals names ++ endOf strict)

/-- The names of all its parameters, in order. -/
def allNames (segments : List Segment) (names : List (List Char)) : List String :=
  namesOf segments ++ names.map String.ofList

/-- A text of word characters, as parameters are named. -/
def IsName (name : List Char) : Prop := name ≠ [] ∧ ∀ c ∈ name, isWord c = true

/-- A text that is neither empty nor holds a slash. -/
def Solid (v : List Char) : Prop := v ≠ [] ∧ '/' ∉ v

/-- The values given to the first of so many parameters. -/
def leftmost (count : Nat) (values : List (List Char)) : List Value :=
  values.map some ++ List.replicate (count - values.length) none

theorem leftmost_nil (count : Nat) : leftmost (count + 1) [] = none :: leftmost count [] := rfl

theorem leftmost_cons (count : Nat) (v : List Char) (values : List (List Char)) :
    leftmost (count + 1) (v :: values) = some v :: leftmost count values := by
  rw [leftmost, leftmost, List.length_cons, Nat.add_sub_add_right]
  rfl

/-- The values under the names that they are given to. -/
def namedValues (names values : List (List Char)) : List Params.Entry :=
  (names.map String.ofList).zip (values.map String.ofList)

variable {ic strict : Bool} {segments : List Segment} {names pieces values : List (List Char)}

/-! ### Paths of solid pieces -/

theorem Segment.Fits.solid {segment : Segment} (hformed : segment.WellFormed) {piece : List Char}
    (h : segment.Fits ic piece) : Solid piece := ⟨h.ne_nil hformed, h.not_mem hformed⟩

theorem solid_of_fits (hformed : ∀ s ∈ segments, s.WellFormed)
    (h : List.Forall₂ (Segment.Fits ic) segments pieces) : ∀ piece ∈ pieces, Solid piece := by
  intro piece hpiece
  obtain ⟨segment, hsegment, hfits⟩ := exists_of_forall₂ h hpiece
  exact hfits.solid (hformed segment hsegment)

theorem slashed_append (a b : List (List Char)) : slashed (a ++ b) = slashed a ++ slashed b :=
  List.flatMap_append

/-- A path of solid pieces ends in no other way. -/
theorem eq_of_slashed {tail : List Char} (hvalues : ∀ v ∈ values, Solid v)
    (hpieces : ∀ s ∈ pieces, '/' ∉ s) (htail : Tail strict tail)
    (h : slashed values = slashed pieces ++ tail) : values = pieces ∧ tail = [] := by
  have hsplit := split_slashed fun v hv => (hvalues v hv).2
  rcases htail with rfl | ⟨-, rfl⟩
  · rw [h, List.append_nil, split_slashed hpieces] at hsplit
    exact ⟨(List.cons.inj hsplit).2.symm, rfl⟩
  · rw [h, split_slashed_slash hpieces] at hsplit
    have hempty : [] ∈ values := by
      rw [← (List.cons.inj hsplit).2]
      exact List.mem_append_right _ (List.mem_singleton_self _)
    exact absurd rfl (hvalues [] hempty).1

/-! ### Readings -/

theorem takes_optionalToken {name s : List Char} {vs : List Value} :
    (Element.param (optionalToken name)).Takes ic s vs ↔
      s = [] ∧ vs = [none] ∨ ∃ v, s = '/' :: v ∧ Solid v ∧ vs = [some v] := by
  constructor
  · rintro (⟨-, hs, hvs⟩ | ⟨v, rfl, hv, rfl⟩)
    · exact Or.inl ⟨hs, hvs⟩
    · exact Or.inr ⟨v, rfl, ⟨hv.1, hv.2.1⟩, rfl⟩
  · rintro (⟨rfl, rfl⟩ | ⟨v, rfl, hv, rfl⟩)
    · exact Or.inl ⟨rfl, rfl, rfl⟩
    · refine Or.inr ⟨v, rfl, ⟨hv.1, hv.2, ?_⟩, rfl⟩
      intro hdot
      cases hdot

/-- The parameters take at most one value each. -/
theorem values_of_takeAll {s : List Char} {vs : List Value} (h : TakeAll ic (optionals names) s vs) :
    ∃ values, values.length ≤ names.length ∧ (∀ v ∈ values, Solid v) ∧ s = slashed values := by
  induction names generalizing s vs with
  | nil => exact ⟨[], Nat.le_refl _, fun _ hv => absurd hv List.not_mem_nil, h.1⟩
  | cons name names ih =>
    obtain ⟨s₁, s₂, v₁, v₂, h₁, h₂, rfl, -⟩ := h
    obtain ⟨values, hlength, hvalues, rfl⟩ := ih h₂
    rcases takes_optionalToken.mp h₁ with ⟨rfl, -⟩ | ⟨v, rfl, hv, -⟩
    · exact ⟨values, Nat.le_succ_of_le hlength, hvalues, rfl⟩
    · refine ⟨v :: values, Nat.succ_le_succ hlength, ?_, rfl⟩
      intro w hw
      rcases List.mem_cons.mp hw with rfl | hw
      · exact hv
      · exact hvalues w hw

theorem values_of_takeAll_endOf {s : List Char} {vs : List Value}
    (h : TakeAll ic (optionals names ++ endOf strict) s vs) :
    ∃ values tail, values.length ≤ names.length ∧ (∀ v ∈ values, Solid v) ∧
      s = slashed values ++ tail ∧ Tail strict tail := by
  obtain ⟨s₁, tail, v₁, v₂, h₁, h₂, rfl, -⟩ := (takeAll_append _ _ _ _).mp h
  obtain ⟨values, hlength, hvalues, rfl⟩ := values_of_takeAll h₁
  exact ⟨values, tail, hlength, hvalues, rfl, (takeAll_endOf.mp h₂).1⟩

/-- The first parameters can take the values. -/
theorem takeAll_leftmost (hlength : values.length ≤ names.length) (hvalues : ∀ v ∈ values, Solid v) :
    TakeAll ic (optionals names) (slashed values) (leftmost names.length values) := by
  induction names generalizing values with
  | nil =>
    obtain rfl := List.length_eq_zero_iff.mp (Nat.le_zero.mp hlength)
    exact ⟨rfl, rfl⟩
  | cons name names ih =>
    cases values with
    | nil =>
      have hmore : TakeAll ic (optionals names) (slashed []) (leftmost names.length []) :=
        ih (Nat.zero_le _) hvalues
      exact ⟨[], [], [none], _, takes_optionalToken.mpr (Or.inl ⟨rfl, rfl⟩), hmore, rfl, rfl⟩
    | cons v values =>
      have hmore := ih (Nat.le_of_succ_le_succ hlength) fun w hw => hvalues w (List.mem_cons_of_mem _ hw)
      refine ⟨'/' :: v, slashed values, [some v], _, ?_, hmore, rfl, ?_⟩
      · exact takes_optionalToken.mpr (Or.inr ⟨v, rfl, hvalues v List.mem_cons_self, rfl⟩)
      · exact leftmost_cons _ _ _

theorem takeAll_leftmost_endOf (hlength : values.length ≤ names.length)
    (hvalues : ∀ v ∈ values, Solid v) :
    TakeAll ic (optionals names ++ endOf strict) (slashed values) (leftmost names.length values) :=
  (takeAll_append _ _ _ _).mpr ⟨slashed values, [], _, [], takeAll_leftmost hlength hvalues,
    takeAll_endOf.mpr ⟨Or.inl rfl, rfl⟩, (List.append_nil _).symm, (List.append_nil _).symm⟩

/-- **The values go to the first parameters.**  If the first parameter took none of them, another
    reading would give it the first value. -/
theorem values_of_takeFirst {vs : List Value} (hlength : values.length ≤ names.length)
    (hvalues : ∀ v ∈ values, Solid v)
    (h : TakeFirst ic (optionals names ++ endOf strict) (slashed values) vs) :
    vs = leftmost names.length values := by
  induction names generalizing values vs with
  | nil =>
    obtain rfl := List.length_eq_zero_iff.mp (Nat.le_zero.mp hlength)
    exact (takeAll_endOf.mp h.takeAll).2
  | cons name names ih =>
    obtain ⟨s₁, s₂, v₁, v₂, h₁, h₂, hs, rfl, hleft⟩ := h
    rcases takes_optionalToken.mp h₁ with ⟨rfl, rfl⟩ | ⟨w, rfl, hw, rfl⟩
    · obtain rfl : slashed values = s₂ := hs
      cases values with
      | nil =>
        rw [ih (Nat.zero_le _) hvalues h₂]
        rfl
      | cons v values =>
        have hmore : TakeAll ic (optionals names ++ endOf strict) (slashed values)
            (leftmost names.length values) :=
          takeAll_leftmost_endOf (Nat.le_of_succ_le_succ hlength) fun w hw =>
            hvalues w (List.mem_cons_of_mem _ hw)
        have hfirst : (Element.param (optionalToken name)).Takes ic ('/' :: v) [some v] :=
          takes_optionalToken.mpr (Or.inr ⟨v, rfl, hvalues v List.mem_cons_self, rfl⟩)
        exact absurd ⟨'/' :: v, slashed values, [some v], _, hfirst, hmore, rfl, rfl⟩ (hleft rfl v _)
    · obtain ⟨more, tail, -, hmore, rfl, htail⟩ := values_of_takeAll_endOf h₂.takeAll
      have hall : ∀ v ∈ w :: more, '/' ∉ v := by
        intro v hv
        rcases List.mem_cons.mp hv with rfl | hv
        · exact hw.2
        · exact (hmore v hv).2
      have hsame : slashed values = slashed (w :: more) ++ tail := by simpa [slashed] using hs
      obtain ⟨rfl, rfl⟩ := eq_of_slashed hvalues hall htail hsame
      rw [List.append_nil] at h₂
      rw [ih (Nat.le_of_succ_le_succ hlength) hmore h₂]
      exact (leftmost_cons _ _ _).symm

/-- The pieces of the segments and the values after them, told apart. -/
theorem eq_of_slashed_append {more pieces' : List (List Char)} {tail : List Char}
    (hpieces : ∀ s ∈ pieces, Solid s) (hvalues : ∀ v ∈ values, Solid v)
    (hpieces' : ∀ s ∈ pieces', Solid s) (hmore : ∀ v ∈ more, Solid v)
    (hlength : pieces.length = pieces'.length) (htail : Tail strict tail)
    (h : slashed (pieces ++ values) = slashed pieces' ++ (slashed more ++ tail)) :
    pieces = pieces' ∧ values = more ∧ tail = [] := by
  have hboth : ∀ {a b : List (List Char)}, (∀ s ∈ a, Solid s) → (∀ s ∈ b, Solid s) →
      ∀ s ∈ a ++ b, Solid s := fun ha hb s hs => (List.mem_append.mp hs).elim (ha s) (hb s)
  rw [← List.append_assoc, ← slashed_append] at h
  obtain ⟨heq, hnil⟩ := eq_of_slashed (hboth hpieces hvalues)
    (fun s hs => (hboth hpieces' hmore s hs).2) htail h
  obtain ⟨hfront, hback⟩ := List.append_inj heq hlength
  exact ⟨hfront, hback, hnil⟩

/-- The readings of a route: pieces that fit the segments, then at most one value each. -/
theorem values_of_takeAll_optionalElements {s : List Char} {vs : List Value}
    (h : TakeAll ic (optionalElements strict segments names) s vs) :
    ∃ pieces values tail, List.Forall₂ (Segment.Fits ic) segments pieces ∧
      values.length ≤ names.length ∧ (∀ v ∈ values, Solid v) ∧
      s = slashed pieces ++ (slashed values ++ tail) ∧ Tail strict tail := by
  obtain ⟨s₁, s₂, v₁, v₂, h₁, h₂, rfl, -⟩ := (takeAll_append _ _ _ _).mp h
  obtain ⟨pieces, hfits, rfl, -⟩ := takeAll_segments.mp h₁
  obtain ⟨values, tail, hlength, hvalues, rfl, htail⟩ := values_of_takeAll_endOf h₂
  exact ⟨pieces, values, tail, hfits, hlength, hvalues, rfl, htail⟩

/-- A path has a reading if it has not too many values. -/
theorem takeAll_optionalElements (hformed : ∀ s ∈ segments, s.WellFormed)
    (hfits : List.Forall₂ (Segment.Fits ic) segments pieces) (hvalues : ∀ v ∈ values, Solid v) :
    (∃ vs, TakeAll ic (optionalElements strict segments names) (slashed (pieces ++ values)) vs) ↔
      values.length ≤ names.length := by
  constructor
  · rintro ⟨vs, h⟩
    obtain ⟨pieces', more, tail, hfits', hlength, hmore, hpath, htail⟩ :=
      values_of_takeAll_optionalElements h
    obtain ⟨-, rfl, -⟩ := eq_of_slashed_append (solid_of_fits hformed hfits) hvalues
      (solid_of_fits hformed hfits') hmore (hfits.length_eq.symm.trans hfits'.length_eq) htail hpath
    exact hlength
  · intro hlength
    rw [slashed_append]
    exact ⟨_, (takeAll_append _ _ _ _).mpr ⟨_, _, _, _, takeAll_segments.mpr ⟨pieces, hfits, rfl, rfl⟩,
      takeAll_leftmost_endOf hlength hvalues, rfl, rfl⟩⟩

/-- The preferred reading of a path. -/
theorem values_of_takeFirst_optionalElements (hformed : ∀ s ∈ segments, s.WellFormed)
    (hfits : List.Forall₂ (Segment.Fits ic) segments pieces) (hvalues : ∀ v ∈ values, Solid v)
    {vs : List Value}
    (h : TakeFirst ic (optionalElements strict segments names) (slashed (pieces ++ values)) vs) :
    vs = allValues segments pieces ++ leftmost names.length values := by
  obtain ⟨s₁, s₂, v₁, v₂, h₁, h₂, hpath, rfl⟩ := h.append
  obtain ⟨pieces', hfits', rfl, rfl⟩ := takeAll_segments.mp h₁
  obtain ⟨more, tail, hlength, hmore, rfl, htail⟩ := values_of_takeAll_endOf h₂.takeAll
  obtain ⟨rfl, rfl, rfl⟩ := eq_of_slashed_append (solid_of_fits hformed hfits) hvalues
    (solid_of_fits hformed hfits') hmore (hfits.length_eq.symm.trans hfits'.length_eq) htail hpath
  rw [List.append_nil] at h₂
  rw [values_of_takeFirst hlength hvalues h₂]

/-! ### Parameters -/

theorem gather_append (params : Params) {slots slots' : List Slot} {vs vs' : List Value}
    (h : vs.length = slots.length) :
    gather params (slots ++ slots') (vs ++ vs') = gather (gather params slots vs) slots' vs' := by
  rw [gather, List.zip_append h.symm, List.foldl_append]
  rfl

theorem gather_optionals (names values : List (List Char)) (params : Params) :
    gather params ((optionals names).flatMap Element.slots) (leftmost names.length values) =
      ⟨(namedValues names values).foldl (fun named e => Params.addNamed e.1 e.2 named) params.named,
        params.splats⟩ := by
  induction names generalizing values params with
  | nil => rfl
  | cons name names ih =>
    cases values with
    | nil =>
      rw [List.length_cons, leftmost_nil]
      exact (ih [] params).trans (by rw [namedValues, List.map_nil, List.zip_nil_right]; rfl)
    | cons v values =>
      rw [List.length_cons, leftmost_cons]
      exact ih values _

/-- The parameters of a path: each name with its piece or value. -/
def optionalParams (segments : List Segment) (names pieces values : List (List Char)) : Params :=
  ⟨(namedPieces segments pieces ++ namedValues names values).map Params.ofEntry,
    anonymousPieces segments pieces⟩

theorem map_fst_namedPieces (h : List.Forall₂ (Segment.Fits ic) segments pieces) :
    (namedPieces segments pieces).map Prod.fst = namesOf segments := by
  induction h with
  | nil => rfl
  | @cons segment piece segments pieces hfits hmore ih =>
    cases segment with
    | literal cs => exact ih
    | named name => exact congrArg (String.ofList name :: ·) ih
    | digits => exact ih

theorem map_fst_namedValues (hlength : values.length ≤ names.length) :
    (namedValues names values).map Prod.fst = (names.map String.ofList).take values.length := by
  have hshort : ((names.map String.ofList).take values.length).length =
      (values.map String.ofList).length := by simp [hlength]
  have hzip : namedValues names values =
      ((names.map String.ofList).take values.length).zip (values.map String.ofList) := by
    rw [namedValues, List.zip_eq_zip_take_min]
    simp [hlength, List.take_of_length_le]
  rw [hzip, List.map_fst_zip (Nat.le_of_eq hshort)]

/-- The names of the parameters that have a value come before those of the others. -/
theorem allNames_eq (hfits : List.Forall₂ (Segment.Fits ic) segments pieces)
    (hlength : values.length ≤ names.length) :
    allNames segments names =
      (namedPieces segments pieces ++ namedValues names values).map Prod.fst ++
        (names.map String.ofList).drop values.length := by
  rw [List.map_append, map_fst_namedPieces hfits, map_fst_namedValues hlength, List.append_assoc,
    List.take_append_drop]
  rfl

theorem gather_optionalElements (hfits : List.Forall₂ (Segment.Fits ic) segments pieces)
    (hlength : values.length ≤ names.length)
    (hdistinct : (allNames segments names).Pairwise fun a b => sameIgnoringCase a b = false) :
    gather Params.empty ((optionalElements strict segments names).flatMap Element.slots)
        (allValues segments pieces ++ leftmost names.length values) =
      optionalParams segments names pieces values := by
  have hslots : (optionalElements strict segments names).flatMap Element.slots =
      (segments.flatMap Segment.elements).flatMap Element.slots ++
        (optionals names).flatMap Element.slots := by
    cases strict <;> simp [optionalElements, endOf, Element.slots]
  have hvalues := (takeAll_segments.mpr ⟨pieces, hfits, rfl, rfl⟩).length
  rw [allNames_eq hfits hlength, List.pairwise_append] at hdistinct
  rw [hslots, gather_append Params.empty hvalues, gather_segments hfits, gather_optionals,
    ← List.foldl_append, optionalParams, ← Params.grouped_of_distinct hdistinct.1,
    ← Params.foldl_addNamed_nil]
  rfl

/-- The segments' names have their pieces, the first of the others have the values, and the rest has
    nothing. -/
theorem get?_optionalParams (hfits : List.Forall₂ (Segment.Fits ic) segments pieces)
    (hlength : values.length ≤ names.length)
    (hdistinct : (allNames segments names).Pairwise fun a b => sameIgnoringCase a b = false) :
    let params := optionalParams segments names pieces values
    (∀ e ∈ namedPieces segments pieces, params.get? e.1 = some e.2) ∧
    ∀ (i : Nat) (name : List Char), names[i]? = some name →
      params.get? (String.ofList name) = values[i]?.map String.ofList ∧
      (values.length ≤ i →
        ∀ q ∈ params.named, sameIgnoringCase q.name (String.ofList name) = false) := by
  intro params
  rw [allNames_eq hfits hlength, List.pairwise_append] at hdistinct
  obtain ⟨hbound, -, hapart⟩ := hdistinct
  refine ⟨fun e he => Params.get?_ofEntry hbound (List.mem_append_left _ he) _, ?_⟩
  intro i name hname
  have habsent : values.length ≤ i →
      ∀ q ∈ params.named, sameIgnoringCase q.name (String.ofList name) = false := by
    intro hi q hq
    obtain ⟨e, he, rfl⟩ := List.mem_map.mp hq
    refine hapart e.1 (List.mem_map_of_mem he) _ (List.mem_of_getElem? (i := i - values.length) ?_)
    rw [List.getElem?_drop, Nat.add_sub_cancel' hi, List.getElem?_map, hname]
    rfl
  refine ⟨?_, habsent⟩
  rcases Nat.lt_or_ge i values.length with hi | hi
  · have hvalue := List.getElem?_eq_getElem hi
    have hentry : (String.ofList name, String.ofList values[i]) ∈ namedValues names values := by
      apply List.mem_of_getElem? (i := i)
      rw [namedValues, List.getElem?_zip_eq_some, List.getElem?_map, List.getElem?_map, hname, hvalue]
      exact ⟨rfl, rfl⟩
    rw [hvalue]
    exact Params.get?_ofEntry hbound (List.mem_append_right _ hentry) _
  · rw [List.getElem?_eq_none hi]
    exact Params.get?_eq_none (habsent hi) _

/-! ### The route as a spec -/

theorem laid_optionals (hwords : ∀ name ∈ names, IsName name)
    {more : List Element} (hmore : Laid more)
    (hrest : ∀ c, (more.flatMap Element.text).head? = some c → c = '/') :
    Laid (optionals names ++ more) ∧
      ∀ c, ((optionals names ++ more).flatMap Element.text).head? = some c → c = '/' := by
  induction names with
  | nil => exact ⟨hmore, hrest⟩
  | cons name names ih =>
    obtain ⟨hlaid, hhead⟩ := ih fun n hn => hwords n (List.mem_cons_of_mem _ hn)
    obtain ⟨hne, hword⟩ := hwords name List.mem_cons_self
    refine ⟨⟨⟨rfl, readToken?_text rfl hne hword ?_⟩, hlaid⟩, fun c hc => (Option.some.inj hc).symm⟩
    intro c hc
    obtain rfl := hhead c hc
    exact ⟨isWord_slash, by decide⟩

theorem laid_optionalElements (hformed : ∀ s ∈ segments, s.WellFormed)
    (hwords : ∀ name ∈ names, IsName name) (strict : Bool) :
    Laid (optionalElements strict segments names) := by
  obtain ⟨hlaid, hhead⟩ := laid_optionals hwords (laid_endOf strict) fun _ => head?_endOf
  exact (laid_segments hformed hlaid hhead).1

theorem flatMap_text_optionals (names : List (List Char)) :
    (optionals names).flatMap Element.text = slashed (names.map optionalText) := by
  induction names with
  | nil => rfl
  | cons name names ih =>
    have hname : (Element.param (optionalToken name)).text = '/' :: optionalText name := by
      simp [Element.text, Token.text, Token.lead, optionalToken, optionalText]
    change (Element.param (optionalToken name)).text ++ (optionals names).flatMap Element.text = _
    rw [hname, ih]
    rfl

/-- A slash may follow a spec that ends in a parameter that may be left out. -/
theorem withOptionalSlash_mark {front : List Char} {c : Char} (hc : c ≠ '/') :
    withOptionalSlash (front ++ [c, '?']) = front ++ [c, '?'] ++ ['/', '?'] := by
  have hsuffix : ¬ ['/', '?'].isSuffixOf (front ++ [c, '?']) = true := by
    intro hsuffix
    obtain ⟨before, hbefore⟩ := List.isSuffixOf_iff_suffix.mp hsuffix
    exact hc (List.cons.inj (List.append_inj' hbefore rfl).2).1.symm
  rw [withOptionalSlash, if_neg hsuffix, if_neg (by simp)]

theorem textFor_optionalSpec (hnames : names ≠ [])
    (hwords : ∀ name ∈ names, IsName name) (options : CompileOptions) :
    textFor options (optionalSpec segments names).toList =
      (optionalElements options.strict segments names).flatMap Element.text := by
  have htext : (optionalElements options.strict segments names).flatMap Element.text =
      slashed (segments.map Segment.text ++ names.map optionalText) ++
        (endOf options.strict).flatMap Element.text := by
    rw [optionalElements, List.flatMap_append, List.flatMap_append, flatMap_text_segments,
      flatMap_text_optionals, slashed_append, List.append_assoc]
  rw [htext, optionalSpec, String.toList_ofList, textFor]
  cases options.strict with
  | true => simp [endOf]
  | false =>
    obtain ⟨others, name, rfl⟩ := (List.eq_nil_or_concat names).resolve_left hnames
    obtain ⟨hne, hword⟩ := hwords name (by simp)
    obtain ⟨chars, c, rfl⟩ := (List.eq_nil_or_concat name).resolve_left hne
    have hc : c ≠ '/' := by
      rintro rfl
      have hslash := hword '/' (by simp)
      rw [isWord_slash] at hslash
      cases hslash
    have hends : ∃ front, slashed (segments.map Segment.text ++
        (others.concat (chars.concat c)).map optionalText) = front ++ [c, '?'] :=
      ⟨slashed (segments.map Segment.text ++ others.map optionalText) ++ '/' :: ':' :: chars,
        by simp [slashed, optionalText]⟩
    obtain ⟨front, hfront⟩ := hends
    rw [hfront, if_neg Bool.false_ne_true, withOptionalSlash_mark hc]
    rfl

theorem spread_optionals (names : List (List Char)) : Spread (optionals names) := by
  have hwide : (optionals names).countP Element.isWide = 0 := by
    rw [optionals, List.countP_map]
    exact List.countP_eq_zero.mpr fun _ _ => Bool.false_ne_true
  rw [Spread, hwide]
  exact Nat.zero_le _

theorem spread_optionalElements (strict : Bool) (segments : List Segment)
    (names : List (List Char)) : Spread (optionalElements strict segments names) :=
  (spread_segments segments).append ((spread_optionals names).append (spread_endOf strict))

/-! ### The route -/

/-- **Parameters that may be left out take values from the left.**  Let a route consist of segments
    and, after them, of parameters `/:name?`, with all names distinct in any ASCII case.  It is refused
    only if its expression passes the size limit, which with the usual costs a spec of at most 10000
    characters never does.  Otherwise a path of pieces that fit the segments and of further values,
    none of which is empty or holds a slash, matches exactly if there are not more values than
    parameters; the segments then have their pieces, the first parameters have the values, and the
    others are absent. -/
theorem captures_optional (hformed : ∀ s ∈ segments, s.WellFormed) (hnames : names ≠ [])
    (hwords : ∀ name ∈ names, IsName name)
    (hdistinct : (allNames segments names).Pairwise fun a b => sameIgnoringCase a b = false)
    (options : CompileOptions) :
    (∀ e, compile options (optionalSpec segments names) = .error e →
      e = .invalidPattern (optionalSpec segments names) .tooLarge) ∧
    (options.budget.Usual → (optionalSpec segments names).length ≤ 10000 →
      ∃ p, compile options (optionalSpec segments names) = .ok p) ∧
    ∀ p, compile options (optionalSpec segments names) = .ok p → ∀ pieces values,
      List.Forall₂ (Segment.Fits (!options.caseSensitive)) segments pieces →
      (∀ v ∈ values, Solid v) →
      let found := p.captures (String.ofList (slashed (pieces ++ values)))
      (found.isSome = true ↔ values.length ≤ names.length) ∧
      ∀ params, found = some params →
        params = optionalParams segments names pieces values ∧
        (∀ e ∈ namedPieces segments pieces, params.get? e.1 = some e.2) ∧
        ∀ (i : Nat) (name : List Char), names[i]? = some name →
          params.get? (String.ofList name) = values[i]?.map String.ofList ∧
          (values.length ≤ i →
            ∀ q ∈ params.named, sameIgnoringCase q.name (String.ofList name) = false) := by
  obtain ⟨hrefused, haccepted, hpattern⟩ := compile_laid_cases
    (laid_optionalElements hformed hwords options.strict)
    (spread_optionalElements options.strict segments names) (textFor_optionalSpec hnames hwords options)
  refine ⟨hrefused, haccepted, ?_⟩
  intro p hp pieces values hfits hvalues found
  have hsolid : ∀ s ∈ pieces ++ values, Solid s := fun s hs =>
    (List.mem_append.mp hs).elim (solid_of_fits hformed hfits s) (hvalues s)
  have hpath : Path.collapseChars (String.ofList (slashed (pieces ++ values))).toList =
      slashed (pieces ++ values) := by
    rw [String.toList_ofList, collapseChars_slashed hsolid]
  have hfound : found = (ofElements options (optionalSpec segments names)
      (optionalElements options.strict segments names)).captures
        (String.ofList (slashed (pieces ++ values))) := by rw [← hpattern p hp]
  have hsome : found.isSome = true ↔ values.length ≤ names.length := by
    rw [hfound, (captures_laid options _ _ _).2, hpath]
    exact takeAll_optionalElements hformed hfits hvalues
  refine ⟨hsome, ?_⟩
  intro params hparams
  have hlength : values.length ≤ names.length := hsome.mp (by rw [hparams]; rfl)
  obtain ⟨vs, hfirst, hgather⟩ := captures_laid_first options _ _ _ (hfound.symm.trans hparams)
  rw [hpath] at hfirst
  have hcaptured : params = optionalParams segments names pieces values := by
    rw [hgather, values_of_takeFirst_optionalElements hformed hfits hvalues hfirst,
      gather_optionalElements hfits hlength hdistinct]
  rw [hcaptured]
  exact ⟨rfl, get?_optionalParams hfits hlength hdistinct⟩

/-- An archive by year and month: with the year alone the month is absent, with a day as well the
    path does not match. -/
theorem captures_optional_archive :
    ∃ p, compile {} (optionalSpec [.literal "posts".toList, .named "blog".toList]
        ["year".toList, "month".toList]) = .ok p ∧
      p.captures "/posts/news/2024" = some ⟨[⟨"blog", ["news"]⟩, ⟨"year", ["2024"]⟩], []⟩ ∧
      p.captures "/posts/news/2024/05/17" = none := by
  have hliteral : ("posts".toList.all fun c => decide (c ≠ '/' ∧ Element.Literal c)) = true := by decide
  have hformed : ∀ s ∈ [Segment.literal "posts".toList, .named "blog".toList], s.WellFormed := by
    intro s hs
    simp only [List.mem_cons, List.not_mem_nil, or_false] at hs
    rcases hs with rfl | rfl
    · exact ⟨by decide, fun c hc => of_decide_eq_true (List.all_eq_true.mp hliteral c hc)⟩
    · exact ⟨by decide, List.all_eq_true.mp (by decide)⟩
  have hwords : ∀ name ∈ ["year".toList, "month".toList], IsName name := by
    intro name hname
    simp only [List.mem_cons, List.not_mem_nil, or_false] at hname
    rcases hname with rfl | rfl
    · exact ⟨by decide, List.all_eq_true.mp (by decide)⟩
    · exact ⟨by decide, List.all_eq_true.mp (by decide)⟩
  obtain ⟨-, haccepted, hmatches⟩ := captures_optional hformed (List.cons_ne_nil _ _) hwords
    (by decide) {}
  obtain ⟨p, hp⟩ := haccepted Budget.usual_standard (by decide)
  have hfits : List.Forall₂ (Segment.Fits true)
      [Segment.literal "posts".toList, .named "blog".toList] ["posts".toList, "news".toList] := by
    refine .cons (List.forall₂_same.mpr fun c _ => sameFold_refl c) (.cons ?_ .nil)
    exact ⟨by decide, by decide⟩
  have hyear : ∀ v ∈ ["2024".toList], Solid v := by
    unfold Solid
    decide
  have hday : ∀ v ∈ ["2024".toList, "05".toList, "17".toList], Solid v := by
    unfold Solid
    decide
  obtain ⟨hfew, hparams⟩ := hmatches p hp _ _ hfits hyear
  obtain ⟨hmany, -⟩ := hmatches p hp _ _ hfits hday
  obtain ⟨params, hcaptured⟩ := Option.isSome_iff_exists.mp (hfew.mpr (by decide))
  refine ⟨p, hp, ?_, ?_⟩
  · exact hcaptured.trans (congrArg some (hparams params hcaptured).1)
  · rw [← Option.not_isSome_iff_eq_none]
    exact fun hsome => absurd (hmany.mp hsome) (by decide)

/-! ### The size limit -/

/-- Each letter of a literal has its share in the size if case is ignored. -/
theorem le_costs_literal (cs : List Char) (g : Nat) (more : List Element) :
    204 * cs.length ≤ Budget.standard.costs (exprsFrom true g (cs.map .char ++ more)) := by
  induction cs generalizing g with
  | nil => exact Nat.zero_le _
  | cons c cs ih =>
    have hexprs : exprsFrom true g ((c :: cs).map .char ++ more) =
        .one (charSet true c) :: exprsFrom true g (cs.map .char ++ more) := rfl
    have hmore := ih g
    have hletter : Budget.standard.cost (.one (charSet true c)) = 204 := size_letter c
    rw [hexprs, Budget.costs_cons, hletter, List.length_cons]
    omega

theorem wellFormed_literal_replicate {n : Nat} (hn : n ≠ 0) :
    (Segment.literal (List.replicate n 'ι')).WellFormed := by
  refine ⟨mt (List.replicate_eq_nil_iff _).mp hn, ?_⟩
  intro c hc
  rw [List.eq_of_mem_replicate hc]
  decide

theorem isName_x : ∀ name ∈ [['x']], IsName name := by
  intro name hname
  rw [List.mem_singleton.mp hname]
  exact ⟨List.cons_ne_nil _ _, List.all_eq_true.mp (by decide)⟩

/-- A long literal before a parameter that may be left out is refused. -/
theorem compile_literal_replicate {n : Nat} (hn : 10485760 < 204 * n) :
    compile {} (optionalSpec [.literal (List.replicate n 'ι')] [['x']]) =
      .error (.invalidPattern (optionalSpec [.literal (List.replicate n 'ι')] [['x']]) .tooLarge) := by
  have hformed : ∀ s ∈ [Segment.literal (List.replicate n 'ι')], s.WellFormed := by
    intro s hs
    rw [List.mem_singleton.mp hs]
    exact wellFormed_literal_replicate (by omega)
  have helements : optionalElements false [.literal (List.replicate n 'ι')] [['x']] =
      ('/' :: List.replicate n 'ι').map .char ++ (optionals [['x']] ++ endOf false) := by
    simp [optionalElements, Segment.elements]
  have hcosts := le_costs_literal ('/' :: List.replicate n 'ι') 0 (optionals [['x']] ++ endOf false)
  rw [List.length_cons, List.length_replicate] at hcosts
  apply compile_laid_tooLarge (laid_optionalElements hformed isName_x false)
    (textFor_optionalSpec (List.cons_ne_nil _ _) isName_x {}) rfl
  rw [helements]
  change 10485760 < Budget.standard.costs (exprsFrom true 0 _)
  omega

/-- **Some of these routes are refused**: a literal of seventy thousand letters and a parameter that may
    be left out pass the size limit, so that no path matches, not even the literal itself. -/
theorem compile_seventyThousandLetters :
    (∀ s ∈ [Segment.literal (List.replicate 70000 'ι')], s.WellFormed) ∧
      (∀ name ∈ [['x']], IsName name) ∧
      ((allNames [Segment.literal (List.replicate 70000 'ι')] [['x']]).Pairwise fun a b =>
        sameIgnoringCase a b = false) ∧
      compile {} (optionalSpec [.literal (List.replicate 70000 'ι')] [['x']]) =
        .error (.invalidPattern (optionalSpec [.literal (List.replicate 70000 'ι')] [['x']])
          .tooLarge) := by
  refine ⟨?_, isName_x, List.pairwise_singleton _ _, compile_literal_replicate (by decide)⟩
  intro s hs
  rw [List.mem_singleton.mp hs]
  exact wellFormed_literal_replicate (by decide)

end RequestRouter.Pattern
