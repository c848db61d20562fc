/-
  RequestRouter/Proofs/Pattern/Segments.lean
  ==========================================
  **Segment routes match like a segment matcher.**

  A segment route is a list of texts, parameters and numbers, each behind a slash.  Its pattern
  matches the paths that consist of one fitting piece for each segment, and takes the pieces of its
  parameters and numbers (`captures_segments`).  The only way for such a route to be refused is that
  its expression costs too much.
-/
import RequestRouter.Proofs.Params
import RequestRouter.Proofs.Path.Segments
import RequestRouter.Proofs.Pattern.Cost
import RequestRouter.Proofs.Pattern.Matching

namespace RequestRouter.Pattern

open RequestRouter.Regex RequestRouter.Spec RequestRouter.Unicode

/-- A segment of a route. -/
inductive Segment where
  | literal (text : List Char)
  | named (name : List Char)
  /-- An anonymous run of decimal digits. -/
  | digits

/-- Texts with a slash before each. -/
def slashed (texts : List (List Char)) : List Char := texts.flatMap ('/' :: ·)

namespace Segment

/-- The segment as it is written behind its slash. -/
def text : Segment → List Char
  | .literal cs => cs
  | .named name => ':' :: name
  | .digits => ['(', '\\', 'd', '+', ')']

/-- A literal is a text without a slash and without the characters of path syntax; a name is made of
    word characters. -/
def WellFormed : Segment → Prop
  | .literal cs => cs ≠ [] ∧ ∀ c ∈ cs, c ≠ '/' ∧ Element.Literal c
  | .named name => name ≠ [] ∧ ∀ c ∈ name, isWord c = true
  | .digits => True

/-- The piece of a path fits the segment. -/
def Fits (ic : Bool) : Segment → List Char → Prop
  | .literal cs, piece => List.Forall₂ (fun c d => sameChar ic c d = true) cs piece
  | .named _, piece => piece ≠ [] ∧ '/' ∉ piece
  | .digits, piece => piece ≠ [] ∧ ∀ d ∈ piece, isDigit d = true

/-- The parameter as a token. -/
def token (name : List Char) : Token := ⟨true, false, name, none, false, false⟩

/-- The segment and its slash as elements of a spec. -/
def elements : Segment → List Element
  | .literal cs => ('/' :: cs).map .char
  | .named name => [.param (token name)]
  | .digits => [.char '/', .digits]

/-- The values that the captures of the segment have. -/
def values : Segment → List Char → List Value
  | .literal _, _ => []
  | .named _, piece => [some piece]
  | .digits, piece => [some piece]

end Segment

/-- The spec of a segment route. -/
def specOf (segments : List Segment) : String :=
  String.ofList (slashed (segments.map Segment.text))

/-- The names and pieces of the parameters, in order. -/
def namedPieces : List Segment → List (List Char) → List Params.Entry
  | .named name :: segments, piece :: pieces =>
    (String.ofList name, String.ofList piece) :: namedPieces segments pieces
  | _ :: segments, _ :: pieces => namedPieces segments pieces
  | _, _ => []

def Segment.name? : Segment → Option String
  | .named name => some (String.ofList name)
  | _ => none

/-- The names of the parameters, in order. -/
def namesOf (segments : List Segment) : List String := segments.filterMap Segment.name?

/-- The pieces of the anonymous numbers, in order. -/
def anonymousPieces : List Segment → List (List Char) → List String
  | .digits :: segments, piece :: pieces => String.ofList piece :: anonymousPieces segments pieces
  | _ :: segments, _ :: pieces => anonymousPieces segments pieces
  | _, _ => []

/-- What a segment matcher takes from the pieces of a path. -/
def segmentParams (segments : List Segment) (pieces : List (List Char)) : Params :=
  ⟨Params.grouped (namedPieces segments pieces), anonymousPieces segments pieces⟩

/-- What may follow the last segment of a path. -/
def Tail (strict : Bool) (tail : List Char) : Prop := tail = [] ∨ strict = false ∧ tail = ['/']

variable {ic : Bool}

/-! ### Pieces of a path -/

/-- The pieces of a path are the texts between its slashes. -/
theorem split_slashed {pieces : List (List Char)} (h : ∀ s ∈ pieces, '/' ∉ s) :
    Path.split (slashed pieces) = [] :: pieces := by
  induction pieces with
  | nil => rfl
  | cons s pieces ih =>
    have hs := h s List.mem_cons_self
    have hmore := ih fun t ht => h t (List.mem_cons_of_mem _ ht)
    cases pieces with
    | nil =>
      change Path.split ('/' :: (s ++ [])) = _
      rw [List.append_nil, Path.split, if_pos rfl, Path.split_of_not_mem hs]
    | cons t pieces =>
      change Path.split ('/' :: (s ++ slashed (t :: pieces))) = _
      rw [Path.split, if_pos rfl]
      have htail : slashed (t :: pieces) = '/' :: (t ++ slashed pieces) := rfl
      rw [htail, Path.split_append hs]
      rw [htail, Path.split, if_pos rfl] at hmore
      rw [(List.cons.inj hmore).2]

/-- A slash at the end is an empty piece. -/
theorem split_slashed_slash {pieces : List (List Char)} (h : ∀ s ∈ pieces, '/' ∉ s) :
    Path.split (slashed pieces ++ ['/']) = [] :: (pieces ++ [[]]) := by
  have hslashed : slashed pieces ++ ['/'] = slashed (pieces ++ [[]]) := by simp [slashed]
  rw [hslashed]
  apply split_slashed
  intro s hs
  rcases List.mem_append.mp hs with hs | hs
  · exact h s hs
  · obtain rfl := List.mem_singleton.mp hs
    exact List.not_mem_nil

theorem split_slashed_tail {pieces : List (List Char)} (h : ∀ s ∈ pieces, '/' ∉ s) {strict : Bool}
    {tail : List Char} (htail : Tail strict tail) :
    ∃ last, Path.split (slashed pieces ++ tail) = [] :: (pieces ++ last) := by
  rcases htail with rfl | ⟨-, rfl⟩
  · refine ⟨[], ?_⟩
    rw [List.append_nil, List.append_nil, split_slashed h]
  · exact ⟨[[]], split_slashed_slash h⟩

/-- A path has one list of pieces of a given length. -/
theorem pieces_unique {pieces pieces' : List (List Char)} (h : ∀ s ∈ pieces, '/' ∉ s)
    (h' : ∀ s ∈ pieces', '/' ∉ s) (hlength : pieces.length = pieces'.length) {strict : Bool}
    {tail tail' : List Char} (htail : Tail strict tail) (htail' : Tail strict tail')
    (heq : slashed pieces ++ tail = slashed pieces' ++ tail') : pieces = pieces' := by
  obtain ⟨last, hlast⟩ := split_slashed_tail h htail
  obtain ⟨last', hlast'⟩ := split_slashed_tail h' htail'
  rw [heq, hlast'] at hlast
  exact (List.append_inj_left (List.cons.inj hlast).2 hlength.symm).symm

/-- A path of pieces that are neither empty nor hold a slash has no repeated slashes. -/
theorem collapseChars_slashed {pieces : List (List Char)} (h : ∀ s ∈ pieces, s ≠ [] ∧ '/' ∉ s) :
    Path.collapseChars (slashed pieces) = slashed pieces := by
  unfold Path.collapseChars
  induction pieces with
  | nil => rfl
  | cons s pieces ih =>
    obtain ⟨hne, hslash⟩ := h s List.mem_cons_self
    change Path.collapseFrom false ('/' :: (s ++ slashed pieces)) = '/' :: (s ++ slashed pieces)
    rw [Path.collapseFrom, if_pos rfl, if_neg Bool.false_ne_true,
      Path.collapseFrom_append_piece hne hslash, ih fun t ht => h t (List.mem_cons_of_mem _ ht)]

theorem exists_of_forall₂ {α β : Type} {R : α → β → Prop} {as : List α} {bs : List β}
    (h : List.Forall₂ R as bs) {b : β} (hb : b ∈ bs) : ∃ a ∈ as, R a b := by
  induction h with
  | nil => cases hb
  | cons hab hmore ih =>
    rcases List.mem_cons.mp hb with rfl | hb
    · exact ⟨_, List.mem_cons_self, hab⟩
    · obtain ⟨a, ha, hR⟩ := ih hb
      exact ⟨a, List.mem_cons_of_mem _ ha, hR⟩

theorem sameChar_comm (c d : Char) : sameChar ic c d = sameChar ic d c := by
  cases ic with
  | false => exact Bool.beq_comm
  | true => exact sameFold_comm c d

/-- A piece that fits holds no slash. -/
theorem Segment.Fits.not_mem {segment : Segment} (hformed : segment.WellFormed) {piece : List Char}
    (h : segment.Fits ic piece) : '/' ∉ piece := by
  intro hslash
  cases segment with
  | named name => exact h.2 hslash
  | digits =>
    have hdigit := h.2 '/' hslash
    rw [isDigit_slash] at hdigit
    cases hdigit
  | literal cs =>
    obtain ⟨c, hc, hsame⟩ := exists_of_forall₂ h hslash
    rw [sameChar_comm, sameChar_slash] at hsame
    exact (hformed.2 c hc).1 hsame

theorem Segment.Fits.ne_nil {segment : Segment} (hformed : segment.WellFormed) {piece : List Char}
    (h : segment.Fits ic piece) : piece ≠ [] := by
  rintro rfl
  cases segment with
  | literal cs => exact hformed.1 (List.forall₂_nil_right_iff.mp h)
  | named name => exact h.1 rfl
  | digits => exact h.1 rfl

theorem not_mem_of_fits {segments : List Segment} (hformed : ∀ s ∈ segments, s.WellFormed)
    {pieces : List (List Char)} (h : List.Forall₂ (Segment.Fits ic) segments pieces) :
    ∀ piece ∈ pieces, '/' ∉ piece := by
  intro piece hpiece
  obtain ⟨segment, hsegment, hfits⟩ := exists_of_forall₂ h hpiece
  exact hfits.not_mem (hformed segment hsegment)

/-! ### Segments as elements -/

theorem takeAll_chars {cs s : List Char} {vs : List Value} :
    TakeAll ic (cs.map .char) s vs ↔
      List.Forall₂ (fun c d => sameChar ic c d = true) cs s ∧ vs = [] := by
  induction cs generalizing s vs with
  | nil =>
    rw [List.forall₂_nil_left_iff]
    exact Iff.rfl
  | cons c cs ih =>
    constructor
    · rintro ⟨s₁, s₂, v₁, v₂, ⟨d, rfl, hd, rfl⟩, hmore, rfl, rfl⟩
      obtain ⟨hsame, rfl⟩ := ih.mp hmore
      exact ⟨.cons hd hsame, rfl⟩
    · rintro ⟨h, rfl⟩
      obtain ⟨d, s', hd, hsame, rfl⟩ := List.forall₂_cons_left_iff.mp h
      exact ⟨[d], s', [], [], ⟨d, rfl, hd, rfl⟩, ih.mpr ⟨hsame, rfl⟩, rfl, rfl⟩

theorem takes_slash {s : List Char} {vs : List Value} :
    (Element.char '/').Takes ic s vs ↔ s = ['/'] ∧ vs = [] := by
  constructor
  · rintro ⟨d, rfl, hd, rfl⟩
    rw [sameChar_slash.mp hd]
    exact ⟨rfl, rfl⟩
  · rintro ⟨rfl, rfl⟩
    exact ⟨'/', rfl, sameChar_slash.mpr rfl, rfl⟩

theorem takeAll_singleton {e : Element} {s : List Char} {vs : List Value} :
    TakeAll ic [e] s vs ↔ e.Takes ic s vs := by
  constructor
  · rintro ⟨s₁, s₂, v₁, v₂, h, ⟨rfl, rfl⟩, rfl, rfl⟩
    rwa [List.append_nil, List.append_nil]
  · intro h
    exact ⟨s, [], vs, [], h, ⟨rfl, rfl⟩, (List.append_nil _).symm, (List.append_nil _).symm⟩

/-- The elements of a segment take a slash and a piece that fits. -/
theorem Segment.takeAll_elements (segment : Segment) {s : List Char} {vs : List Value} :
    TakeAll ic segment.elements s vs ↔
      ∃ piece, s = '/' :: piece ∧ segment.Fits ic piece ∧ vs = segment.values piece := by
  cases segment with
  | literal cs =>
    constructor
    · rintro ⟨s₁, piece, v₁, v₂, hslash, hmore, rfl, rfl⟩
      obtain ⟨rfl, rfl⟩ := takes_slash.mp hslash
      obtain ⟨hsame, rfl⟩ := takeAll_chars.mp hmore
      exact ⟨piece, rfl, hsame, rfl⟩
    · rintro ⟨piece, rfl, hfits, rfl⟩
      exact ⟨['/'], piece, [], [], takes_slash.mpr ⟨rfl, rfl⟩, takeAll_chars.mpr ⟨hfits, rfl⟩, rfl, rfl⟩
  | named name =>
    rw [Segment.elements, takeAll_singleton]
    constructor
    · rintro (⟨hoptional, -, -⟩ | ⟨v, rfl, hv, rfl⟩)
      · cases hoptional
      · exact ⟨v, rfl, ⟨hv.1, hv.2.1⟩, rfl⟩
    · rintro ⟨piece, rfl, hfits, rfl⟩
      refine Or.inr ⟨piece, rfl, ⟨hfits.1, hfits.2, ?_⟩, rfl⟩
      intro hdot
      cases hdot
  | digits =>
    constructor
    · rintro ⟨s₁, piece, v₁, v₂, hslash, hmore, rfl, rfl⟩
      obtain ⟨rfl, rfl⟩ := takes_slash.mp hslash
      obtain ⟨hne, hdigits, rfl⟩ := takeAll_singleton.mp hmore
      exact ⟨piece, rfl, ⟨hne, hdigits⟩, rfl⟩
    · rintro ⟨piece, rfl, ⟨hne, hdigits⟩, rfl⟩
      exact ⟨['/'], piece, [], [some piece], takes_slash.mpr ⟨rfl, rfl⟩,
        takeAll_singleton.mpr ⟨hne, hdigits, rfl⟩, rfl, rfl⟩

/-- The values of all captures, in order. -/
def allValues : List Segment → List (List Char) → List Value
  | segment :: segments, piece :: pieces => segment.values piece ++ allValues segments pieces
  | _, _ => []

theorem takeAll_segments {segments : List Segment} {s : List Char} {vs : List Value} :
    TakeAll ic (segments.flatMap Segment.elements) s vs ↔
      ∃ pieces, List.Forall₂ (Segment.Fits ic) segments pieces ∧ s = slashed pieces ∧
        vs = allValues segments pieces := by
  induction segments generalizing s vs with
  | nil =>
    constructor
    · rintro ⟨rfl, rfl⟩
      exact ⟨[], .nil, rfl, rfl⟩
    · rintro ⟨pieces, hfits, rfl, rfl⟩
      obtain rfl := List.forall₂_nil_left_iff.mp hfits
      exact ⟨rfl, rfl⟩
  | cons segment segments ih =>
    rw [List.flatMap_cons, takeAll_append]
    constructor
    · rintro ⟨s₁, s₂, v₁, v₂, h₁, h₂, rfl, rfl⟩
      obtain ⟨piece, rfl, hfits, rfl⟩ := segment.takeAll_elements.mp h₁
      obtain ⟨pieces, hmore, rfl, rfl⟩ := ih.mp h₂
      exact ⟨piece :: pieces, .cons hfits hmore, rfl, rfl⟩
    · rintro ⟨all, hall, rfl, rfl⟩
      obtain ⟨piece, pieces, hfits, hmore, rfl⟩ := List.forall₂_cons_left_iff.mp hall
      exact ⟨'/' :: piece, slashed pieces, _, _, segment.takeAll_elements.mpr ⟨piece, rfl, hfits, rfl⟩,
        ih.mpr ⟨pieces, hmore, rfl, rfl⟩, rfl, rfl⟩

/-- The slash that may follow a path, unless strict. -/
def endOf (strict : Bool) : List Element := if strict then [] else [.optionalSlash]

theorem spread_endOf (strict : Bool) : Spread (endOf strict) := by
  cases strict <;> decide

theorem takeAll_endOf {strict : Bool} {s : List Char} {vs : List Value} :
    TakeAll ic (endOf strict) s vs ↔ Tail strict s ∧ vs = [] := by
  cases strict with
  | true =>
    refine and_congr_left' ?_
    constructor
    · exact Or.inl
    · rintro (hnone | ⟨hstrict, -⟩)
      · exact hnone
      · cases hstrict
  | false =>
    rw [endOf, if_neg Bool.false_ne_true, takeAll_singleton]
    refine and_congr_left' ?_
    exact ⟨fun h => h.imp id fun hslash => ⟨rfl, hslash⟩, fun h => h.imp id And.right⟩

/-- The elements of a segment route. -/
def elementsOf (strict : Bool) (segments : List Segment) : List Element :=
  segments.flatMap Segment.elements ++ if strict then [] else [.optionalSlash]

theorem takeAll_elementsOf {strict : Bool} {segments : List Segment} {s : List Char}
    {vs : List Value} :
    TakeAll ic (elementsOf strict segments) s vs ↔
      ∃ pieces tail, List.Forall₂ (Segment.Fits ic) segments pieces ∧
        s = slashed pieces ++ tail ∧ Tail strict tail ∧ vs = allValues segments pieces := by
  rw [elementsOf, takeAll_append]
  constructor
  · rintro ⟨s₁, s₂, v₁, v₂, h₁, h₂, rfl, rfl⟩
    obtain ⟨pieces, hfits, rfl, rfl⟩ := takeAll_segments.mp h₁
    obtain ⟨htail, rfl⟩ := takeAll_endOf.mp h₂
    exact ⟨pieces, s₂, hfits, rfl, htail, List.append_nil _⟩
  · rintro ⟨pieces, tail, hfits, rfl, htail, rfl⟩
    exact ⟨slashed pieces, tail, _, [], takeAll_segments.mpr ⟨pieces, hfits, rfl, rfl⟩,
      takeAll_endOf.mpr ⟨htail, rfl⟩, rfl, (List.append_nil _).symm⟩

/-! ### Parameters -/

theorem gather_segments {segments : List Segment} {pieces : List (List Char)}
    (h : List.Forall₂ (Segment.Fits ic) segments pieces) (params : Params) :
    gather params ((segments.flatMap Segment.elements).flatMap Element.slots)
        (allValues segments pieces) =
      ⟨(namedPieces segments pieces).foldl (fun named e => Params.addNamed e.1 e.2 named) params.named,
        params.splats ++ anonymousPieces segments pieces⟩ := by
  induction h generalizing params with
  | nil =>
    change params = _
    simp [namedPieces, anonymousPieces]
  | @cons segment piece segments pieces hfits hmore ih =>
    cases segment with
    | literal cs =>
      have hslots : (Segment.literal cs).elements.flatMap Element.slots = [] := by
        rw [List.flatMap_eq_nil_iff]
        intro e he
        obtain ⟨c, -, rfl⟩ := List.mem_map.mp he
        rfl
      rw [List.flatMap_cons, List.flatMap_append, hslots, List.nil_append]
      exact ih params
    | named name =>
      refine (ih _).trans ?_
      rfl
    | digits =>
      refine (ih _).trans ?_
      simp [addGroup, namedPieces, anonymousPieces, Params.pushSplat]

/-- The parameters of a segment route are those of a segment matcher. -/
theorem gather_elementsOf {strict : Bool} {segments : List Segment} {pieces : List (List Char)}
    (h : List.Forall₂ (Segment.Fits ic) segments pieces) :
    gather Params.empty ((elementsOf strict segments).flatMap Element.slots)
        (allValues segments pieces) = segmentParams segments pieces := by
  have hslots : (elementsOf strict segments).flatMap Element.slots =
      (segments.flatMap Segment.elements).flatMap Element.slots := by
    cases strict <;> simp [elementsOf, Element.slots]
  rw [hslots, gather_segments h, segmentParams, ← Params.foldl_addNamed_nil]
  rfl

/-! ### Segment routes as specs -/

theorem flatMap_text_chars (cs : List Char) (more : List Element) :
    (cs.map Element.char ++ more).flatMap Element.text = cs ++ more.flatMap Element.text := by
  induction cs with
  | nil => rfl
  | cons c cs ih =>
    rw [List.map_cons, List.cons_append, List.flatMap_cons, ih]
    rfl

/-- Literal characters up to the end or the next slash. -/
theorem head?_literal {cs rest : List Char} (hcs : ∀ c ∈ cs, c ≠ '/' ∧ Element.Literal c)
    (hrest : ∀ c, rest.head? = some c → c = '/') : (cs ++ rest).head? ≠ some ':' := by
  intro h
  cases cs with
  | nil => exact absurd (hrest ':' h) (by decide)
  | cons c cs =>
    obtain rfl : c = ':' := by simpa using h
    exact absurd (hcs ':' List.mem_cons_self).2 (by decide)

theorem laid_chars {cs : List Char} {more : List Element}
    (hcs : ∀ c ∈ cs, c ≠ '/' ∧ Element.Literal c) (hmore : Laid more)
    (hrest : ∀ c, (more.flatMap Element.text).head? = some c → c = '/') :
    Laid (cs.map .char ++ more) := by
  induction cs with
  | nil => exact hmore
  | cons c cs ih =>
    have hlater : ∀ d ∈ cs, d ≠ '/' ∧ Element.Literal d :=
      fun d hd => hcs d (List.mem_cons_of_mem _ hd)
    obtain ⟨hslash, hliteral⟩ := hcs c List.mem_cons_self
    refine ⟨⟨hliteral, ?_⟩, ih hlater⟩
    change readToken? (c :: (cs.map Element.char ++ more).flatMap Element.text) = none
    rw [flatMap_text_chars]
    by_cases hdot : c = '.'
    · subst hdot
      exact readToken?_dot (head?_literal hlater hrest)
    · have hcolon : c ≠ ':' := by
        rintro rfl
        exact absurd hliteral (by decide)
      exact readToken?_of_head (by simp [hslash, hdot, hcolon]) _

/-- A well-formed segment is read as its elements before the end or another slash. -/
theorem Segment.WellFormed.laid {segment : Segment} (h : segment.WellFormed) {more : List Element}
    (hmore : Laid more) (hrest : ∀ c, (more.flatMap Element.text).head? = some c → c = '/') :
    Laid (segment.elements ++ more) := by
  cases segment with
  | literal cs =>
    refine ⟨⟨by decide, ?_⟩, laid_chars h.2 hmore hrest⟩
    change readToken? ('/' :: (cs.map Element.char ++ more).flatMap Element.text) = none
    rw [flatMap_text_chars]
    apply readToken?_slash (head?_literal h.2 hrest)
    intro after hafter
    cases cs with
    | nil => exact absurd rfl h.1
    | cons c cs =>
      obtain ⟨-, rfl⟩ := List.cons.inj hafter
      exact head?_literal (fun d hd => h.2 d (List.mem_cons_of_mem _ hd)) hrest
  | named name =>
    refine ⟨⟨rfl, readToken?_text rfl h.1 h.2 ?_⟩, hmore⟩
    intro c hc
    obtain rfl := hrest c hc
    exact ⟨isWord_slash, by decide⟩
  | digits =>
    refine ⟨⟨by decide, readToken?_slash (by simp [Element.text]) ?_⟩, trivial, hmore⟩
    intro after hafter
    cases hafter

theorem head?_elements (segment : Segment) (more : List Element) :
    ((segment.elements ++ more).flatMap Element.text).head? = some '/' := by
  cases segment <;> rfl

theorem laid_segments {segments : List Segment} (h : ∀ s ∈ segments, s.WellFormed)
    {more : List Element} (hmore : Laid more)
    (hrest : ∀ c, (more.flatMap Element.text).head? = some c → c = '/') :
    Laid (segments.flatMap Segment.elements ++ more) ∧
      ∀ c, ((segments.flatMap Segment.elements ++ more).flatMap Element.text).head? = some c →
        c = '/' := by
  induction segments with
  | nil => exact ⟨hmore, hrest⟩
  | cons segment segments ih =>
    obtain ⟨hlaid, hhead⟩ := ih fun s hs => h s (List.mem_cons_of_mem _ hs)
    rw [List.flatMap_cons, List.append_assoc]
    refine ⟨(h segment List.mem_cons_self).laid hlaid hhead, ?_⟩
    intro c hc
    rw [head?_elements, Option.some.injEq] at hc
    exact hc.symm

theorem laid_endOf (strict : Bool) : Laid (endOf strict) := by
  cases strict with
  | true => trivial
  | false => exact ⟨trivial, trivial⟩

theorem head?_endOf {strict : Bool} {c : Char}
    (h : ((endOf strict).flatMap Element.text).head? = some c) : c = '/' := by
  cases strict with
  | true => cases h
  | false => exact (Option.some.inj h).symm

theorem laid_elementsOf {segments : List Segment} (h : ∀ s ∈ segments, s.WellFormed)
    (strict : Bool) : Laid (elementsOf strict segments) :=
  (laid_segments h (laid_endOf strict) fun _ => head?_endOf).1

theorem flatMap_text_segments (segments : List Segment) :
    (segments.flatMap Segment.elements).flatMap Element.text =
      slashed (segments.map Segment.text) := by
  induction segments with
  | nil => rfl
  | cons segment segments ih =>
    have hsegment : segment.elements.flatMap Element.text = '/' :: segment.text := by
      cases segment with
      | literal cs =>
        have := flatMap_text_chars ('/' :: cs) []
        rwa [List.append_nil, List.flatMap_nil, List.append_nil] at this
      | named name => simp [Segment.elements, Segment.token, Segment.text, Element.text, Token.text,
          Token.lead]
      | digits => rfl
    rw [List.flatMap_cons, List.flatMap_append, ih, hsegment]
    rfl

theorem Segment.WellFormed.ne_of_mem {segment : Segment} (h : segment.WellFormed) {c : Char}
    (hc : c ∈ segment.text) : c ≠ '/' ∧ c ≠ '?' := by
  cases segment with
  | literal cs =>
    refine ⟨(h.2 c hc).1, ?_⟩
    rintro rfl
    exact absurd (h.2 '?' hc).2 (by decide)
  | named name =>
    rcases List.mem_cons.mp hc with rfl | hc
    · decide
    · constructor
      · rintro rfl
        have := h.2 '/' hc
        rw [isWord_slash] at this
        cases this
      · rintro rfl
        exact absurd (h.2 '?' hc) (by decide)
  | digits =>
    simp only [Segment.text, List.mem_cons, List.not_mem_nil, or_false] at hc
    rcases hc with rfl | rfl | rfl | rfl | rfl <;> decide

theorem Segment.WellFormed.text_ne_nil {segment : Segment} (h : segment.WellFormed) :
    segment.text ≠ [] := by
  cases segment with
  | literal cs => exact h.1
  | named name => exact List.cons_ne_nil _ _
  | digits => exact List.cons_ne_nil _ _

/-- A segment route ends with a character of its last segment. -/
theorem getLast?_slashed {segments : List Segment} (h : ∀ s ∈ segments, s.WellFormed) {c : Char}
    (hc : (slashed (segments.map Segment.text)).getLast? = some c) : c ≠ '/' ∧ c ≠ '?' := by
  rcases List.eq_nil_or_concat segments with rfl | ⟨front, segment, rfl⟩
  · cases hc
  · have hformed := h segment (by simp)
    have hslashed : slashed ((front.concat segment).map Segment.text) =
        slashed (front.map Segment.text) ++ '/' :: segment.text := by
      simp [slashed]
    have hlast : (slashed ((front.concat segment).map Segment.text)).getLast? =
        segment.text.getLast? := by
      rw [hslashed, List.getLast?_append_of_ne_nil _ (List.cons_ne_nil _ _),
        List.getLast?_cons_of_ne_nil hformed.text_ne_nil]
    rw [hlast] at hc
    exact hformed.ne_of_mem (List.mem_of_getLast? hc)

theorem withOptionalSlash_eq {spec : List Char}
    (h : ∀ c, spec.getLast? = some c → c ≠ '/' ∧ c ≠ '?') :
    withOptionalSlash spec = spec ++ ['/', '?'] := by
  have hsuffix : ¬ ['/', '?'].isSuffixOf spec = true := by
    intro hsuffix
    obtain ⟨front, rfl⟩ := List.isSuffixOf_iff_suffix.mp hsuffix
    exact (h '?' (by simp)).2 rfl
  have hlast : spec.getLast? ≠ some '/' := fun hlast => (h '/' hlast).1 rfl
  rw [withOptionalSlash, if_neg hsuffix, if_neg hlast]

theorem textFor_specOf {segments : List Segment} (h : ∀ s ∈ segments, s.WellFormed)
    (options : CompileOptions) :
    textFor options (specOf segments).toList =
      (elementsOf options.strict segments).flatMap Element.text := by
  rw [specOf, String.toList_ofList, textFor, elementsOf, List.flatMap_append,
    flatMap_text_segments]
  cases options.strict with
  | true => simp
  | false =>
    rw [if_neg Bool.false_ne_true, withOptionalSlash_eq fun c hc => getLast?_slashed h hc]
    rfl

/-- A number stands behind the slash of its segment. -/
theorem spread_segments (segments : List Segment) : Spread (segments.flatMap Segment.elements) := by
  apply Spread.flatMap
  intro segment
  cases segment with
  | literal cs => exact spread_chars ('/' :: cs)
  | named name => exact Nat.le_refl 0
  | digits => exact Nat.le_refl 1

theorem spread_elementsOf (strict : Bool) (segments : List Segment) :
    Spread (elementsOf strict segments) :=
  (spread_segments segments).append (spread_endOf strict)

/-! ### The matcher -/

/-- The pattern of a segment route matches the paths of fitting pieces, and takes the pieces. -/
theorem captures_specOf {segments : List Segment} (h : ∀ s ∈ segments, s.WellFormed)
    {options : CompileOptions} {p : Pattern} (hp : compile options (specOf segments) = .ok p)
    (path : String) (params : Params) :
    p.captures path = some params ↔
      ∃ pieces tail, List.Forall₂ (Segment.Fits (!options.caseSensitive)) segments pieces ∧
        (Path.collapse path).toList = slashed pieces ++ tail ∧ Tail options.strict tail ∧
        params = segmentParams segments pieces := by
  obtain ⟨-, -, hpattern⟩ :=
    compile_laid_cases (laid_elementsOf h options.strict) (spread_elementsOf options.strict segments)
      (textFor_specOf h options)
  obtain rfl := hpattern p hp
  obtain ⟨hfound, hsome⟩ := captures_laid options (specOf segments) path
    (elementsOf options.strict segments)
  rw [Path.collapse, String.toList_ofList]
  constructor
  · intro hparams
    obtain ⟨values, hvalues, rfl⟩ := hfound params hparams
    obtain ⟨pieces, tail, hfits, htext, htail, rfl⟩ := takeAll_elementsOf.mp hvalues
    exact ⟨pieces, tail, hfits, htext, htail, gather_elementsOf hfits⟩
  · rintro ⟨pieces, tail, hfits, htext, htail, rfl⟩
    have hmatch := hsome.mpr
      ⟨_, takeAll_elementsOf.mpr ⟨pieces, tail, hfits, htext, htail, rfl⟩⟩
    obtain ⟨params, hparams⟩ := Option.isSome_iff_exists.mp hmatch
    obtain ⟨values, hvalues, hgather⟩ := hfound params hparams
    obtain ⟨pieces', tail', hfits', htext', htail', rfl⟩ := takeAll_elementsOf.mp hvalues
    -- The path has one decomposition into pieces, so the match that was found is the given one.
    have hpieces : pieces = pieces' := by
      apply pieces_unique (not_mem_of_fits h hfits) (not_mem_of_fits h hfits') _ htail htail'
        (htext.symm.trans htext')
      rw [← hfits.length_eq, ← hfits'.length_eq]
    subst hpieces
    rw [hparams, hgather, gather_elementsOf hfits]

/-- **A segment route matches like a segment matcher.**  It is refused only if its expression passes
    the size limit, which with the usual costs a spec of at most 10000 characters never does.
    Otherwise a path matches if it is, with repeated slashes made one, a slash and a fitting piece for
    each segment, and unless strict one more slash; and the parameters are the pieces. -/
theorem captures_segments {segments : List Segment} (h : ∀ s ∈ segments, s.WellFormed)
    (options : CompileOptions) :
    (∀ e, compile options (specOf segments) = .error e →
      e = .invalidPattern (specOf segments) .tooLarge) ∧
    (options.budget.Usual → (specOf segments).length ≤ 10000 →
      ∃ p, compile options (specOf segments) = .ok p) ∧
    ∀ p, compile options (specOf segments) = .ok p → ∀ path params,
      p.captures path = some params ↔
        ∃ pieces tail, List.Forall₂ (Segment.Fits (!options.caseSensitive)) segments pieces ∧
          (Path.collapse path).toList = slashed pieces ++ tail ∧ Tail options.strict tail ∧
          params = segmentParams segments pieces := by
  obtain ⟨hrefused, haccepted, -⟩ :=
    compile_laid_cases (laid_elementsOf h options.strict) (spread_elementsOf options.strict segments)
      (textFor_specOf h options)
  exact ⟨hrefused, haccepted, fun p hp => captures_specOf h hp⟩

/-- A literal with a dot, a parameter and a number; the path has its own case and slashes. -/
theorem captures_segments_versioned :
    ∃ p, compile {} (specOf [.literal "v1.0".toList, .named "id".toList, .digits]) = .ok p ∧
      p.captures "//V1.0/a-b/007/" = some ⟨[⟨"id", ["a-b"]⟩], ["007"]⟩ := by
  have hliteralChars : ∀ c ∈ "v1.0".toList, c ≠ '/' ∧ Element.Literal c := by
    intro c hc
    simp only [String.reduceToList, List.mem_cons, List.not_mem_nil, or_false] at hc
    rcases hc with rfl | rfl | rfl | rfl <;> decide
  have hformed : ∀ s ∈ [Segment.literal "v1.0".toList, .named "id".toList, .digits],
      s.WellFormed := by
    intro s hs
    simp only [List.mem_cons, List.not_mem_nil, or_false] at hs
    rcases hs with rfl | rfl | rfl
    · exact ⟨List.cons_ne_nil _ _, hliteralChars⟩
    · exact ⟨List.cons_ne_nil _ _, List.all_eq_true.mp (by decide)⟩
    · trivial
  obtain ⟨-, haccepted, hcaptures⟩ := captures_segments hformed {}
  obtain ⟨p, hp⟩ := haccepted Budget.usual_standard (by decide)
  refine ⟨p, hp, (hcaptures p hp _ _).mpr ⟨["V1.0".toList, "a-b".toList, "007".toList], ['/'], ?_,
    by decide, Or.inr ⟨rfl, rfl⟩, by decide⟩⟩
  have hliteral : (Segment.literal "v1.0".toList).Fits true "V1.0".toList := by
    refine .cons ?_ (.cons ?_ (.cons ?_ (.cons ?_ .nil))) <;> decide +kernel
  have hnamed : (Segment.named "id".toList).Fits true "a-b".toList := ⟨by decide, by decide⟩
  have hdigits : Segment.digits.Fits true "007".toList :=
    ⟨List.cons_ne_nil _ _, List.all_eq_true.mp (by decide)⟩
  exact .cons hliteral (.cons hnamed (.cons hdigits .nil))

/-! ### The size limit -/

theorem le_costs_digits (n g : Nat) :
    4000 * n ≤ Budget.standard.costs (exprsFrom true g ((List.replicate n Segment.digits).flatMap
      Segment.elements)) := by
  induction n generalizing g with
  | zero => exact Nat.zero_le _
  | succ n ih =>
    have hgroup : 4000 ≤ Budget.standard.cost (.group (g + 1) (.rounds (.one .digit) 1 none true)) :=
      (by decide +kernel : 4000 ≤ 64 + (Expr.rounds (.one .digit) 1 none true).size)
    have hexprs : exprsFrom true g ((List.replicate (n + 1) Segment.digits).flatMap
        Segment.elements) = .one (charSet true '/') ::
          .group (g + 1) (.rounds (.one .digit) 1 none true) ::
            exprsFrom true (g + 1) ((List.replicate n Segment.digits).flatMap Segment.elements) :=
      rfl
    have hmore := ih (g + 1)
    rw [hexprs, Budget.costs_cons, Budget.costs_cons]
    omega

theorem wellFormed_replicate_digits (n : Nat) :
    ∀ s ∈ List.replicate n Segment.digits, s.WellFormed := by
  intro s hs
  rw [List.eq_of_mem_replicate hs]
  trivial

/-- Many numbers in a row are refused. -/
theorem compile_digits {n : Nat} (hn : 10485760 < 4000 * n) :
    compile { strict := true } (specOf (List.replicate n .digits)) =
      .error (.invalidPattern (specOf (List.replicate n .digits)) .tooLarge) := by
  have hformed := wellFormed_replicate_digits n
  have hcosts := le_costs_digits n 0
  have helements : elementsOf true (List.replicate n Segment.digits) =
      (List.replicate n Segment.digits).flatMap Segment.elements := List.append_nil _
  apply compile_laid_tooLarge (laid_elementsOf hformed true)
    (textFor_specOf hformed { strict := true }) rfl
  rw [helements]
  exact hn.trans_le hcosts

/-- **Some segment routes are refused**: four thousand numbers in a row are well-formed segments, but
    their expression passes the size limit. -/
theorem compile_fourThousandDigits :
    List.replicate 4000 Segment.digits ≠ [] ∧
      (∀ s ∈ List.replicate 4000 Segment.digits, s.WellFormed) ∧
      compile { strict := true } (specOf (List.replicate 4000 .digits)) =
        .error (.invalidPattern (specOf (List.replicate 4000 .digits)) .tooLarge) := by
  refine ⟨List.ne_nil_of_length_pos ?_, wellFormed_replicate_digits 4000, compile_digits (by decide)⟩
  rw [List.length_replicate]
  decide

end RequestRouter.Pattern
