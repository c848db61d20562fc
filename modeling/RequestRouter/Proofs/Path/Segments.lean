/-
  RequestRouter/Proofs/Path/Segments.lean
  =======================================
  **A path without repeated slashes is its segments and its ends.**

  The segments of a path are the texts between its slashes that are not empty.  A path in which no
  two slashes stand side by side is written from its segments, a slash between each two, and from
  what it has in front and behind (`exists_written`); and whatever segments are written so are
  read back (`segments_written`).  Paths can therefore be compared by their segments and their ends.
-/
import RequestRouter.Path
import Mathlib.Data.List.Chain

namespace RequestRouter.Path

open RequestRouter.Text

/-! ### Parting at slashes -/

theorem split_eq_splitOn (path : List Char) : split path = path.splitOn '/' := by
  induction path with
  | nil => rfl
  | cons c path ih =>
    obtain ⟨s, more, hsplit⟩ := List.exists_cons_of_ne_nil (split_ne_nil path)
    rw [split, List.splitOn_cons_eq_if_modifyHead, ← ih, hsplit]
    by_cases hc : c = '/'
    · simp [hc]
    · simp [hc]

theorem unsplit_cons_cons (s t : Segment) (more : List Segment) :
    unsplit (s :: t :: more) = s ++ '/' :: unsplit (t :: more) := rfl

theorem unsplit_eq_intercalate (segs : List Segment) : unsplit segs = ['/'].intercalate segs := by
  induction segs with
  | nil => rfl
  | cons s more ih =>
    cases more with
    | nil => exact List.intercalate_singleton.symm
    | cons t more =>
      rw [unsplit_cons_cons, ih, List.intercalate_cons_cons, List.append_assoc]
      rfl

theorem split_of_not_mem {s : List Char} (h : '/' ∉ s) : split s = [s] := by
  rw [split_eq_splitOn, List.splitOn_eq_singleton h]

/-- A slash parts what stands before it from what stands behind it. -/
theorem split_append_slash (front rest : List Char) :
    split (front ++ '/' :: rest) = split front ++ split rest := by
  simp only [split_eq_splitOn, List.splitOn_append_cons_self]

theorem split_append {s : List Char} (h : '/' ∉ s) (rest : List Char) :
    split (s ++ '/' :: rest) = s :: split rest := by
  rw [split_append_slash, split_of_not_mem h, List.singleton_append]

theorem not_mem_of_mem_split {path s : List Char} (h : s ∈ split path) : '/' ∉ s := by
  induction path generalizing s with
  | nil => simp_all [split]
  | cons c path ih =>
    rw [split] at h
    by_cases hc : c = '/'
    · rw [if_pos hc] at h
      rcases List.mem_cons.mp h with rfl | h
      · exact List.not_mem_nil
      · exact ih h
    · rw [if_neg hc] at h
      obtain ⟨t, more, hsplit⟩ := List.exists_cons_of_ne_nil (split_ne_nil path)
      rw [hsplit] at h
      rcases List.mem_cons.mp h with rfl | h
      · rw [List.mem_cons, not_or]
        refine ⟨Ne.symm hc, ih ?_⟩
        rw [hsplit]
        exact List.mem_cons_self
      · apply ih
        rw [hsplit]
        exact List.mem_cons_of_mem _ h

theorem mem_unsplit_of_mem {segs : List Segment} {s : Segment} {c : Char} (hs : s ∈ segs)
    (hc : c ∈ s) : c ∈ unsplit segs := by
  induction segs with
  | nil => cases hs
  | cons t more ih =>
    cases more with
    | nil => rwa [List.mem_singleton.mp hs] at hc
    | cons u more =>
      rw [unsplit_cons_cons, List.mem_append]
      rcases List.mem_cons.mp hs with rfl | hs
      · exact .inl hc
      · exact .inr (List.mem_cons_of_mem _ (ih hs))

/-- The texts between slashes hold nothing but characters of the path. -/
theorem mem_of_mem_split {path s : List Char} {c : Char} (hs : s ∈ split path) (hc : c ∈ s) :
    c ∈ path := by
  rw [← unsplit_split path]
  exact mem_unsplit_of_mem hs hc

/-! ### Runs of slashes -/

/-- A text without repeated slashes is left as it is. -/
theorem collapseFrom_of_single {s : List Char} (h : ¬ ['/', '/'] <:+: s) {afterSlash : Bool}
    (hhead : afterSlash = true → s.head? ≠ some '/') : collapseFrom afterSlash s = s := by
  induction s generalizing afterSlash with
  | nil => rfl
  | cons c s ih =>
    have hmore : ¬ ['/', '/'] <:+: s := fun hpair => h (hpair.trans (List.suffix_cons c s).isInfix)
    rw [collapseFrom]
    by_cases hc : c = '/'
    · subst hc
      have hfirst : ¬ afterSlash = true := fun hafter => hhead hafter rfl
      rw [if_pos rfl, if_neg hfirst, ih hmore]
      rintro - hnext
      obtain ⟨more, rfl⟩ := List.head?_eq_some_iff.mp hnext
      exact h (List.prefix_append ['/', '/'] more).isInfix
    · rw [if_neg hc, ih hmore]
      exact fun hafter => absurd hafter Bool.false_ne_true

theorem collapseChars_of_single {path : List Char} (h : ¬ ['/', '/'] <:+: path) :
    collapseChars path = path :=
  collapseFrom_of_single h fun hafter => absurd hafter Bool.false_ne_true

theorem collapseFrom_of_not_mem {v : List Char} (h : '/' ∉ v) (afterSlash : Bool) :
    collapseFrom afterSlash v = v := by
  induction v generalizing afterSlash with
  | nil => rfl
  | cons c v ih =>
    simp only [List.mem_cons, not_or] at h
    rw [collapseFrom, if_neg (Ne.symm h.1), ih h.2]

theorem collapseFrom_append_piece {s : List Char} (hne : s ≠ []) (h : '/' ∉ s) (afterSlash : Bool)
    (rest : List Char) :
    collapseFrom afterSlash (s ++ rest) = s ++ collapseFrom false rest := by
  induction s generalizing afterSlash with
  | nil => exact absurd rfl hne
  | cons c s ih =>
    rw [List.mem_cons, not_or] at h
    rw [List.cons_append, collapseFrom, if_neg (Ne.symm h.1), List.cons_append]
    cases s with
    | nil => rfl
    | cons d s => rw [ih (List.cons_ne_nil _ _) h.2]

theorem collapseFrom_append_slash (front v : List Char) (afterSlash : Bool) :
    collapseFrom afterSlash (front ++ '/' :: v) =
      collapseFrom afterSlash (front ++ ['/']) ++ collapseFrom true v := by
  induction front generalizing afterSlash with
  | nil => cases afterSlash <;> rfl
  | cons c front ih =>
    rw [List.cons_append, List.cons_append, collapseFrom, collapseFrom]
    split
    · split
      · exact ih true
      · rw [ih true]
        rfl
    · rw [ih false]
      rfl

/-- A last segment leaves a path collapsed. -/
theorem collapseChars_append {front v : List Char} (h : collapseChars (front ++ ['/']) = front ++ ['/'])
    (hslash : '/' ∉ v) : collapseChars (front ++ '/' :: v) = front ++ '/' :: v := by
  unfold collapseChars at h ⊢
  rw [collapseFrom_append_slash, h, collapseFrom_of_not_mem hslash, List.append_assoc]
  rfl

theorem single_iff_isChain {path : List Char} :
    ¬ ['/', '/'] <:+: path ↔ path.IsChain fun c d => ¬ (c = '/' ∧ d = '/') := by
  rw [List.isChain_iff_forall_rel_of_append_cons_cons]
  constructor
  · rintro h c d front rest rfl ⟨rfl, rfl⟩
    exact h ⟨front, rest, by simp⟩
  · rintro h ⟨front, rest, hpath⟩
    have hpair : path = front ++ '/' :: '/' :: rest := by simp [← hpath]
    exact h hpair ⟨rfl, rfl⟩

/-- Slashes that stand side by side in two texts put together do so in one of them or where they
    meet. -/
theorem single_append {front rest : List Char} :
    ¬ ['/', '/'] <:+: front ++ rest ↔
      ¬ ['/', '/'] <:+: front ∧ ¬ ['/', '/'] <:+: rest ∧
        ¬ (front.getLast? = some '/' ∧ rest.head? = some '/') := by
  simp only [single_iff_isChain, List.isChain_append]
  refine and_congr_right fun _ => and_congr_right fun _ => ?_
  constructor
  · rintro h ⟨hlast, hhead⟩
    exact h '/' hlast '/' hhead ⟨rfl, rfl⟩
  · rintro h c hlast d hhead ⟨rfl, rfl⟩
    exact h ⟨hlast, hhead⟩

theorem single_of_not_mem {s : List Char} (h : '/' ∉ s) : ¬ ['/', '/'] <:+: s :=
  fun hpair => h (hpair.subset List.mem_cons_self)

theorem single_collapseFrom (cs : List Char) (afterSlash : Bool) :
    ¬ ['/', '/'] <:+: collapseFrom afterSlash cs ∧
      (afterSlash = true → (collapseFrom afterSlash cs).head? ≠ some '/') := by
  induction cs generalizing afterSlash with
  | nil => exact ⟨single_of_not_mem List.not_mem_nil, fun _ => Option.some_ne_none _ ∘ Eq.symm⟩
  | cons c cs ih =>
    rw [collapseFrom]
    by_cases hc : c = '/'
    · rw [if_pos hc]
      obtain ⟨hsingle, hhead⟩ := ih true
      cases afterSlash with
      | true => exact ⟨hsingle, hhead⟩
      | false =>
        refine ⟨?_, fun hafter => absurd hafter Bool.false_ne_true⟩
        have hpair : ¬ ['/', '/'] <:+: ['/'] ++ collapseFrom true cs :=
          single_append.mpr ⟨by decide, hsingle, fun hmeet => hhead rfl hmeet.2⟩
        exact hpair
    · rw [if_neg hc]
      have hfirst : [c].getLast? ≠ some '/' := fun hlast => hc (Option.some.inj hlast)
      have hslash : '/' ∉ [c] := fun hmem => hc (List.mem_singleton.mp hmem).symm
      have hpair : ¬ ['/', '/'] <:+: [c] ++ collapseFrom false cs :=
        single_append.mpr ⟨single_of_not_mem hslash, (ih false).1, fun hmeet => hfirst hmeet.1⟩
      exact ⟨hpair, fun _ hhead => hc (Option.some.inj hhead)⟩

/-- Where each run of slashes is made one, no two slashes stand side by side. -/
theorem single_collapseChars (path : List Char) : ¬ ['/', '/'] <:+: collapseChars path :=
  (single_collapseFrom path false).1

/-! ### Segments -/

/-- The segments of a path: the texts between its slashes that are not empty. -/
def segments (path : List Char) : List Segment := (split path).filter (· ≠ [])

variable {path front rest s : List Char} {segs : List Segment}

@[simp] theorem segments_nil : segments [] = [] := rfl

theorem segments_append_slash (front rest : List Char) :
    segments (front ++ '/' :: rest) = segments front ++ segments rest := by
  rw [segments, split_append_slash, List.filter_append]
  rfl

@[simp] theorem segments_slash_cons (rest : List Char) : segments ('/' :: rest) = segments rest :=
  segments_append_slash [] rest

/-- A slash at the end adds no segment. -/
theorem segments_concat_slash (front : List Char) : segments (front ++ ['/']) = segments front := by
  rw [segments_append_slash, segments_nil, List.append_nil]

theorem segments_of_not_mem (hne : s ≠ []) (h : '/' ∉ s) : segments s = [s] := by
  rw [segments, split_of_not_mem h]
  simpa using hne

theorem mem_segments (h : s ∈ segments path) : s ≠ [] ∧ '/' ∉ s := by
  rw [segments, List.mem_filter] at h
  exact ⟨of_decide_eq_true h.2, not_mem_of_mem_split h.1⟩

/-- Making runs of slashes one leaves the first text before a slash, and all segments behind it. -/
theorem split_collapseFrom (cs : List Char) :
    (∃ s more more', split (collapseFrom false cs) = s :: more ∧ split cs = s :: more' ∧
      more.filter (· ≠ []) = more'.filter (· ≠ [])) ∧
    segments (collapseFrom true cs) = segments cs := by
  induction cs with
  | nil => exact ⟨⟨[], [], [], rfl, rfl, rfl⟩, rfl⟩
  | cons c cs ih =>
    obtain ⟨⟨s, more, more', hleft, hright, hmore⟩, hsegments⟩ := ih
    by_cases hc : c = '/'
    · subst hc
      exact ⟨⟨[], _, _, rfl, rfl, hsegments⟩, hsegments.trans (segments_slash_cons cs).symm⟩
    · have hleft' : split (c :: collapseFrom false cs) = (c :: s) :: more := by
        rw [split, if_neg hc, hleft]
      have hright' : split (c :: cs) = (c :: s) :: more' := by
        rw [split, if_neg hc, hright]
      rw [collapseFrom, if_neg hc, collapseFrom, if_neg hc, segments, segments, hleft', hright']
      refine ⟨⟨c :: s, more, more', rfl, rfl, hmore⟩, ?_⟩
      rw [List.filter_cons, List.filter_cons, hmore]

/-- Making runs of slashes one leaves the segments. -/
theorem segments_collapseChars (path : List Char) :
    segments (collapseChars path) = segments path := by
  obtain ⟨s, more, more', hleft, hright, hmore⟩ := (split_collapseFrom path).1
  rw [collapseChars, segments, segments, hleft, hright, List.filter_cons, List.filter_cons, hmore]

/-- A blank text between slashes is a segment, unless it is empty, but not a solid one. -/
theorem solidSegments_eq (path : List Char) :
    solidSegments path = (segments path).filter (!isBlank ·) := by
  rw [solidSegments, segments, List.filter_filter]
  refine List.filter_congr fun s _ => ?_
  cases s with
  | nil => rfl
  | cons c s => simp

theorem mem_solidSegments (h : s ∈ solidSegments path) :
    (s ≠ [] ∧ '/' ∉ s) ∧ isBlank s = false := by
  rw [solidSegments_eq, List.mem_filter] at h
  exact ⟨mem_segments h.1, by simpa using h.2⟩

theorem solidSegments_append_slash (front rest : List Char) :
    solidSegments (front ++ '/' :: rest) = solidSegments front ++ solidSegments rest := by
  simp only [solidSegments_eq, segments_append_slash, List.filter_append]

@[simp] theorem solidSegments_slash_cons (rest : List Char) :
    solidSegments ('/' :: rest) = solidSegments rest :=
  solidSegments_append_slash [] rest

/-! ### Segments with a slash between each two -/

theorem mem_unsplit {c : Char} (h : c ∈ unsplit segs) : c = '/' ∨ ∃ s ∈ segs, c ∈ s := by
  induction segs with
  | nil => cases h
  | cons s more ih =>
    cases more with
    | nil => exact .inr ⟨s, List.mem_cons_self, h⟩
    | cons t more =>
      rw [unsplit_cons_cons, List.mem_append, List.mem_cons] at h
      rcases h with hs | hslash | hmore
      · exact .inr ⟨s, List.mem_cons_self, hs⟩
      · exact .inl hslash
      · obtain hslash | ⟨u, hu, hc⟩ := ih hmore
        · exact .inl hslash
        · exact .inr ⟨u, List.mem_cons_of_mem _ hu, hc⟩

theorem segments_unsplit (h : ∀ s ∈ segs, s ≠ [] ∧ '/' ∉ s) : segments (unsplit segs) = segs := by
  by_cases hsegs : segs = []
  · subst hsegs
    rfl
  · rw [segments, split_eq_splitOn, unsplit_eq_intercalate,
      List.splitOn_intercalate '/' (fun s hs => (h s hs).2) hsegs, List.filter_eq_self]
    exact fun s hs => decide_eq_true (h s hs).1

theorem head?_unsplit (h : ∀ s ∈ segs, s ≠ [] ∧ '/' ∉ s) : (unsplit segs).head? ≠ some '/' := by
  intro hhead
  cases segs with
  | nil => cases hhead
  | cons s more =>
    obtain ⟨hne, hslash⟩ := h s List.mem_cons_self
    obtain ⟨c, rest, rfl⟩ := List.exists_cons_of_ne_nil hne
    have hfirst : (unsplit ((c :: rest) :: more)).head? = some c := by
      cases more <;> rfl
    rw [hfirst] at hhead
    rw [Option.some.inj hhead] at hslash
    exact hslash List.mem_cons_self

theorem unsplit_ne_nil (h : ∀ s ∈ segs, s ≠ [] ∧ '/' ∉ s) (hsegs : segs ≠ []) :
    unsplit segs ≠ [] := by
  intro hnil
  have hread := segments_unsplit h
  rw [hnil, segments_nil] at hread
  exact hsegs hread.symm

theorem getLast?_unsplit (h : ∀ s ∈ segs, s ≠ [] ∧ '/' ∉ s) :
    (unsplit segs).getLast? ≠ some '/' := by
  induction segs with
  | nil => exact Option.some_ne_none _ ∘ Eq.symm
  | cons s more ih =>
    have hsolid : ∀ t ∈ more, t ≠ [] ∧ '/' ∉ t := fun t ht => h t (List.mem_cons_of_mem _ ht)
    intro hlast
    cases more with
    | nil => exact (h s List.mem_cons_self).2 (List.mem_of_getLast? hlast)
    | cons t more =>
      apply ih hsolid
      have hne := unsplit_ne_nil hsolid (List.cons_ne_nil t more)
      rwa [unsplit_cons_cons, List.getLast?_append_of_ne_nil _ (List.cons_ne_nil _ _),
        List.getLast?_cons_of_ne_nil hne] at hlast

theorem single_unsplit (h : ∀ s ∈ segs, s ≠ [] ∧ '/' ∉ s) : ¬ ['/', '/'] <:+: unsplit segs := by
  induction segs with
  | nil => exact single_of_not_mem List.not_mem_nil
  | cons s more ih =>
    have hslash := (h s List.mem_cons_self).2
    have hsolid : ∀ t ∈ more, t ≠ [] ∧ '/' ∉ t := fun t ht => h t (List.mem_cons_of_mem _ ht)
    cases more with
    | nil => exact single_of_not_mem hslash
    | cons t more =>
      have hbehind : ¬ ['/', '/'] <:+: ['/'] ++ unsplit (t :: more) :=
        single_append.mpr ⟨by decide, ih hsolid, fun hmeet => head?_unsplit hsolid hmeet.2⟩
      exact single_append.mpr
        ⟨single_of_not_mem hslash, hbehind, fun hmeet => hslash (List.mem_of_getLast? hmeet.1)⟩

/-! ### Segments and ends -/

/-- A slash, or nothing. -/
def slashIf (present : Bool) : List Char := if present then ['/'] else []

@[simp] theorem slashIf_true : slashIf true = ['/'] := rfl

@[simp] theorem slashIf_false : slashIf false = [] := rfl

/-- The path of the segments, with a slash in front if it is rooted and one behind if it is
    closed. -/
def written (isRooted : Bool) (segs : List Segment) (isClosed : Bool) : List Char :=
  slashIf isRooted ++ unsplit segs ++ slashIf isClosed

variable {isRooted isClosed : Bool}

theorem written_false (isRooted : Bool) (segs : List Segment) :
    written isRooted segs false = slashIf isRooted ++ unsplit segs :=
  List.append_nil _

theorem written_true (isRooted : Bool) (segs : List Segment) :
    written isRooted segs true = written isRooted segs false ++ ['/'] := by
  rw [written_false]
  rfl

theorem mem_written {c : Char} (h : c ∈ written isRooted segs isClosed) :
    c = '/' ∨ ∃ s ∈ segs, c ∈ s := by
  have hslash : ∀ present, c ∈ slashIf present → c = '/' := by
    rintro (_ | _) hmem
    · cases hmem
    · exact List.mem_singleton.mp hmem
  rw [written, List.mem_append, List.mem_append] at h
  rcases h with (hfront | hsegs) | hend
  · exact .inl (hslash _ hfront)
  · exact mem_unsplit hsegs
  · exact .inl (hslash _ hend)

theorem segments_written (h : ∀ s ∈ segs, s ≠ [] ∧ '/' ∉ s) :
    segments (written isRooted segs isClosed) = segs := by
  have hopen : segments (written isRooted segs false) = segs := by
    rw [written_false]
    cases isRooted with
    | false => exact segments_unsplit h
    | true => exact (segments_slash_cons _).trans (segments_unsplit h)
  cases isClosed with
  | false => exact hopen
  | true => rw [written_true, segments_concat_slash, hopen]

/-- A path starts with a slash if it is rooted, and if it is nothing but a closing slash. -/
theorem head?_written (h : ∀ s ∈ segs, s ≠ [] ∧ '/' ∉ s) :
    (written isRooted segs isClosed).head? = some '/' ↔
      isRooted = true ∨ segs = [] ∧ isClosed = true := by
  cases isRooted with
  | true => simp [written]
  | false =>
    by_cases hsegs : segs = []
    · subst hsegs
      cases isClosed <;> simp [written, unsplit]
    · have hhead := head?_unsplit h
      obtain ⟨c, rest, hunsplit⟩ := List.exists_cons_of_ne_nil (unsplit_ne_nil h hsegs)
      rw [hunsplit] at hhead
      simpa [written, hunsplit, hsegs] using hhead

/-- What stands before the end of a path ends with a slash only if it is the slash in front. -/
theorem getLast?_front (h : ∀ s ∈ segs, s ≠ [] ∧ '/' ∉ s) :
    (slashIf isRooted ++ unsplit segs).getLast? = some '/' ↔ segs = [] ∧ isRooted = true := by
  by_cases hsegs : segs = []
  · subst hsegs
    cases isRooted <;> simp [unsplit]
  · have hlast := getLast?_unsplit h
    have hne := unsplit_ne_nil h hsegs
    simpa [hsegs, List.getLast?_append_of_ne_nil _ hne] using hlast

/-- A path ends with a slash if it is closed, and if it is nothing but the slash in front. -/
theorem getLast?_written (h : ∀ s ∈ segs, s ≠ [] ∧ '/' ∉ s) :
    (written isRooted segs isClosed).getLast? = some '/' ↔
      isClosed = true ∨ segs = [] ∧ isRooted = true := by
  cases isClosed with
  | true => simp [written_true]
  | false =>
    rw [written_false, getLast?_front h]
    simp

theorem single_written (h : ∀ s ∈ segs, s ≠ [] ∧ '/' ∉ s)
    (hends : segs = [] → isRooted = true → isClosed = false) :
    ¬ ['/', '/'] <:+: written isRooted segs isClosed := by
  have hopen : ¬ ['/', '/'] <:+: written isRooted segs false := by
    have hfront : ¬ ['/', '/'] <:+: slashIf isRooted := by
      cases isRooted <;> decide
    rw [written_false]
    exact single_append.mpr ⟨hfront, single_unsplit h, fun hmeet => head?_unsplit h hmeet.2⟩
  cases isClosed with
  | false => exact hopen
  | true =>
    rw [written_true]
    refine single_append.mpr ⟨hopen, by decide, ?_⟩
    rintro ⟨hlast, -⟩
    rw [written_false] at hlast
    obtain ⟨hsegs, hrooted⟩ := (getLast?_front h).mp hlast
    exact Bool.false_ne_true (hends hsegs hrooted).symm

/-- A path without repeated slashes is written from segments; one without segments can be taken to
    have no slash behind them. -/
theorem exists_written (h : ¬ ['/', '/'] <:+: path) :
    ∃ isRooted segs isClosed, (∀ s ∈ segs, s ≠ [] ∧ '/' ∉ s) ∧
      (segs = [] → isClosed = false) ∧ written isRooted segs isClosed = path := by
  induction path with
  | nil => exact ⟨false, [], false, List.forall_mem_nil _, fun _ => rfl, rfl⟩
  | cons c path ih =>
    have hparted : ¬ ['/', '/'] <:+: [c] ++ path := h
    obtain ⟨-, hsingle, hmeet⟩ := single_append.mp hparted
    obtain ⟨isRooted, segs, isClosed, hsolid, hclosed, rfl⟩ := ih hsingle
    by_cases hc : c = '/'
    · -- the slash stands before a path that is not rooted
      subst hc
      cases isRooted with
      | false => exact ⟨true, segs, isClosed, hsolid, hclosed, rfl⟩
      | true => exact absurd ⟨rfl, (head?_written hsolid).mpr (.inl rfl)⟩ hmeet
    · have hpiece : ∀ {s : List Char}, '/' ∉ s → c :: s ≠ [] ∧ '/' ∉ c :: s := by
        intro s hs
        rw [List.mem_cons, not_or]
        exact ⟨List.cons_ne_nil c s, Ne.symm hc, hs⟩
      cases isRooted with
      | true =>
        -- a slash follows, so the character is a segment of its own
        have hsolid' : ∀ s ∈ [c] :: segs, s ≠ [] ∧ '/' ∉ s :=
          List.forall_mem_cons.mpr ⟨hpiece List.not_mem_nil, hsolid⟩
        cases segs with
        | nil =>
          refine ⟨false, [[c]], true, hsolid', fun hnil => absurd hnil (List.cons_ne_nil _ _), ?_⟩
          rw [hclosed rfl]
          rfl
        | cons t more =>
          exact ⟨false, [c] :: t :: more, isClosed, hsolid',
            fun hnil => absurd hnil (List.cons_ne_nil _ _), rfl⟩
      | false =>
        cases segs with
        | nil =>
          rw [hclosed rfl]
          exact ⟨false, [[c]], false, List.forall_mem_singleton.mpr (hpiece List.not_mem_nil),
            fun _ => rfl, rfl⟩
        | cons t more =>
          obtain ⟨ht, hmore⟩ := List.forall_mem_cons.mp hsolid
          refine ⟨false, (c :: t) :: more, isClosed, List.forall_mem_cons.mpr ⟨hpiece ht.2, hmore⟩,
            fun hnil => absurd hnil (List.cons_ne_nil _ _), ?_⟩
          cases more <;> rfl

end RequestRouter.Path
