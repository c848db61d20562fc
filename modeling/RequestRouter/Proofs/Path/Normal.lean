/-
  RequestRouter/Proofs/Path/Normal.lean
  =====================================
  **The normal form of a path, and which paths are in it.**

  Normalization leaves the resolved segments between the ends of the path (`exists_written_normal`).
  The result is in normal form, which is said here without reference to how it is come by, and the
  paths in normal form are the ones that are left as they are (`normalize_isNormal`).  A slash at
  the end is kept also where nothing is left to stand before it; it is the only slash of the result
  then, so a relative path that cancels comes out as the root (`rooted_normalize_iff`).
-/
import RequestRouter.Proofs.Path.Segments
import RequestRouter.Proofs.Path.Resolution

namespace RequestRouter.Path

open RequestRouter.Text

/-- A path in normal form: no two slashes side by side, no segment that is blank or stands for the
    directory it is in, and parents only in front of all names. -/
structure IsNormal (path : List Char) : Prop where
  single : ¬ ['/', '/'] <:+: path
  solid : ∀ s ∈ segments path, s ≠ dot ∧ isBlank s = false
  leading : ∃ n rest, segments path = List.replicate n dotDot ++ rest ∧ dotDot ∉ rest

variable {path : List Char} {s : Segment}

/-! ### Blank paths -/

theorem slash_not_mem_of_isBlank (h : isBlank path = true) : '/' ∉ path := by
  intro hslash
  have hspace := List.all_eq_true.mp h '/' hslash
  rw [Unicode.isSpace_slash] at hspace
  exact Bool.false_ne_true hspace

theorem head?_of_isBlank (h : isBlank path = true) : path.head? ≠ some '/' :=
  fun hhead => slash_not_mem_of_isBlank h (List.mem_of_head? hhead)

theorem getLast?_of_isBlank (h : isBlank path = true) : path.getLast? ≠ some '/' :=
  fun hlast => slash_not_mem_of_isBlank h (List.mem_of_getLast? hlast)

theorem solidSegments_of_isBlank (h : isBlank path = true) : solidSegments path = [] := by
  rw [solidSegments, split_of_not_mem (slash_not_mem_of_isBlank h)]
  simp [h]

/-! ### The text of the normal form -/

/-- What is left of a path consists of its own segments. -/
theorem mem_resolve_solidSegments (h : s ∈ resolve (solidSegments path)) :
    (s ≠ [] ∧ '/' ∉ s) ∧ isBlank s = false :=
  mem_solidSegments (mem_of_mem_resolve h)

/-- The normal form of a path that is not blank is written from the resolved segments, with the ends
    of the path; a root without segments has no slash behind it. -/
theorem exists_written_normal (h : isBlank path = false) :
    ∃ isRooted isClosed,
      normalizeChars path = written isRooted (resolve (solidSegments path)) isClosed ∧
      (isRooted = true ↔ path.head? = some '/') ∧
      (isClosed = true ↔ path.getLast? = some '/' ∧
        ¬ (resolve (solidSegments path) = [] ∧ isRooted = true)) := by
  have hsolid : ∀ s ∈ resolve (solidSegments path), s ≠ [] ∧ '/' ∉ s :=
    fun s hs => (mem_resolve_solidSegments hs).1
  let isRooted : Bool := path.head? = some '/'
  let front := slashIf isRooted ++ unsplit (resolve (solidSegments path))
  let isClosed : Bool := path.getLast? = some '/' && front.getLast? != some '/'
  have hclosed : isClosed = true ↔ path.getLast? = some '/' ∧
      ¬ (resolve (solidSegments path) = [] ∧ isRooted = true) := by
    rw [← getLast?_front hsolid]
    simp [isClosed, front]
  refine ⟨isRooted, isClosed, ?_, decide_eq_true_iff, hclosed⟩
  have hlead : (if path.head? = some '/' then ['/'] else []) = slashIf isRooted := by
    simp [slashIf, isRooted]
  have htext : normalizeChars path =
      collapseChars (written isRooted (resolve (solidSegments path)) isClosed) := by
    rw [normalizeChars, if_neg (Bool.not_eq_true _ ▸ h), hlead]
    rfl
  rw [htext]
  apply collapseChars_of_single
  apply single_written hsolid
  intro hnil hrooted
  rw [← Bool.not_eq_true]
  exact fun htrue => (hclosed.mp htrue).2 ⟨hnil, hrooted⟩

/-! ### Segments and ends of the normal form -/

theorem normalizeChars_of_isBlank (h : isBlank path = true) : normalizeChars path = [] := if_pos h

/-- The segments of the normal form are the resolved segments. -/
theorem segments_normalizeChars (path : List Char) :
    segments (normalizeChars path) = resolve (solidSegments path) := by
  cases h : isBlank path with
  | true =>
    rw [normalizeChars_of_isBlank h, solidSegments_of_isBlank h]
    rfl
  | false =>
    obtain ⟨isRooted, isClosed, htext, -⟩ := exists_written_normal h
    rw [htext, segments_written fun s hs => (mem_resolve_solidSegments hs).1]

/-- The normal form starts with a slash if the path does, or if the slash at the end of the path is
    all that is left. -/
theorem head?_normalizeChars (path : List Char) :
    (normalizeChars path).head? = some '/' ↔ path.head? = some '/' ∨
      (path.getLast? = some '/' ∧ resolve (solidSegments path) = []) := by
  cases h : isBlank path with
  | true => simp [normalizeChars_of_isBlank h, head?_of_isBlank h, getLast?_of_isBlank h]
  | false =>
    obtain ⟨isRooted, isClosed, htext, hrooted, hclosed⟩ := exists_written_normal h
    rw [htext, head?_written fun s hs => (mem_resolve_solidSegments hs).1, hclosed, ← hrooted]
    tauto

/-- The normal form ends with a slash if the path does, or if the slash in front is all that is
    left. -/
theorem getLast?_normalizeChars (path : List Char) :
    (normalizeChars path).getLast? = some '/' ↔ path.getLast? = some '/' ∨
      (path.head? = some '/' ∧ resolve (solidSegments path) = []) := by
  cases h : isBlank path with
  | true => simp [normalizeChars_of_isBlank h, head?_of_isBlank h, getLast?_of_isBlank h]
  | false =>
    obtain ⟨isRooted, isClosed, htext, hrooted, hclosed⟩ := exists_written_normal h
    rw [htext, getLast?_written fun s hs => (mem_resolve_solidSegments hs).1, hclosed, ← hrooted]
    tauto

theorem single_normalizeChars (path : List Char) : ¬ ['/', '/'] <:+: normalizeChars path := by
  unfold normalizeChars
  split
  · decide
  · exact single_collapseChars _

/-- Normalization brings in no characters but slashes. -/
theorem mem_of_mem_normalizeChars {c : Char} (h : c ∈ normalizeChars path) : c = '/' ∨ c ∈ path := by
  cases hblank : isBlank path with
  | true =>
    rw [normalizeChars_of_isBlank hblank] at h
    cases h
  | false =>
    obtain ⟨isRooted, isClosed, htext, -⟩ := exists_written_normal hblank
    rw [htext] at h
    obtain hslash | ⟨s, hs, hc⟩ := mem_written h
    · exact .inl hslash
    · have hsplit : s ∈ split path := (List.mem_filter.mp (mem_of_mem_resolve hs)).1
      exact .inr (mem_of_mem_split hsplit hc)

/-! ### The normal form -/

theorem isNormal_normalizeChars (path : List Char) : IsNormal (normalizeChars path) := by
  obtain ⟨n, -, hresolve⟩ := exists_resolve_eq (solidSegments path)
  refine ⟨single_normalizeChars path, ?_, n, canonical (solidSegments path), ?_, ?_⟩
  · intro s hs
    rw [segments_normalizeChars] at hs
    refine ⟨?_, (mem_resolve_solidSegments hs).2⟩
    rw [hresolve, List.mem_append, List.mem_replicate] at hs
    rcases hs with ⟨-, rfl⟩ | hs
    · decide
    · exact (isName_of_mem_canonical hs).1
  · rw [segments_normalizeChars, hresolve]
  · exact fun hmem => (isName_of_mem_canonical hmem).2 rfl

/-- No segment of a path in normal form is dropped. -/
theorem IsNormal.solidSegments_eq (h : IsNormal path) : solidSegments path = segments path := by
  rw [Path.solidSegments_eq, List.filter_eq_self]
  intro s hs
  rw [(h.solid s hs).2]
  rfl

/-- The segments of a path in normal form are resolved. -/
theorem IsNormal.resolve_eq (h : IsNormal path) :
    resolve (solidSegments path) = segments path := by
  obtain ⟨n, rest, hsegments, hrest⟩ := h.leading
  rw [h.solidSegments_eq, hsegments]
  apply resolve_of_leading
  intro s hs
  have hmem : s ∈ segments path := by
    rw [hsegments]
    exact List.mem_append_right _ hs
  exact ⟨(h.solid s hmem).1, fun hparent => hrest (hparent ▸ hs)⟩

theorem IsNormal.not_isBlank (h : IsNormal path) (hne : path ≠ []) : isBlank path = false := by
  rw [← Bool.not_eq_true]
  intro hblank
  have hsegments := segments_of_not_mem hne (slash_not_mem_of_isBlank hblank)
  have hmem : path ∈ segments path := by
    rw [hsegments]
    exact List.mem_singleton_self path
  rw [(h.solid path hmem).2] at hblank
  exact Bool.false_ne_true hblank

/-- A path in normal form is left as it is. -/
theorem IsNormal.normalizeChars_eq (h : IsNormal path) : normalizeChars path = path := by
  by_cases hne : path = []
  · subst hne
    rfl
  · obtain ⟨isRooted, isClosed, htext, hrooted, hclosed⟩ := exists_written_normal (h.not_isBlank hne)
    obtain ⟨isRooted', segs, isClosed', hsolid, hends, rfl⟩ := exists_written h.single
    -- both texts have the same segments, so it is left to compare their ends
    rw [h.resolve_eq, segments_written hsolid] at htext hclosed
    have hrooted' : isRooted = isRooted' := by
      rw [Bool.eq_iff_iff, hrooted, head?_written hsolid]
      constructor
      · rintro (htrue | ⟨hnil, htrue⟩)
        · exact htrue
        · rw [hends hnil] at htrue
          exact absurd htrue Bool.false_ne_true
      · exact .inl
    have hclosed' : isClosed = isClosed' := by
      rw [Bool.eq_iff_iff, hclosed, getLast?_written hsolid, hrooted']
      constructor
      · rintro ⟨htrue | hroot, hnot⟩
        · exact htrue
        · exact absurd hroot hnot
      · intro htrue
        refine ⟨.inl htrue, fun hroot => ?_⟩
        rw [hends hroot.1] at htrue
        exact Bool.false_ne_true htrue
    rw [htext, hrooted', hclosed']

/-- **Normalization reaches a normal form in one step.**  What it makes of a path has no two slashes
    side by side, no segment that is blank or `.`, and `..` only in front of all other segments; it
    is left as it is by a second step.  The paths that are left as they are, are those in normal
    form. -/
theorem normalize_isNormal (p : String) :
    IsNormal (normalize p).toList ∧ normalize (normalize p) = normalize p ∧
      (normalize p = p ↔ IsNormal p.toList) := by
  have hnormal : IsNormal (normalize p).toList := by
    rw [normalize, String.toList_ofList]
    exact isNormal_normalizeChars p.toList
  have hkept : ∀ q : String, IsNormal q.toList → normalize q = q := by
    intro q hq
    rw [normalize, hq.normalizeChars_eq, String.ofList_toList]
  refine ⟨hnormal, hkept _ hnormal, ?_, hkept p⟩
  intro hp
  rwa [hp] at hnormal

/-! ### Relative paths -/

/-- **A path comes out rooted if it is rooted, or if nothing is left of it but the slash at its
    end.**  The latter is so if the path ends with a slash, no parent in it climbs, and each of its
    names is taken back by a parent. -/
theorem rooted_normalize_iff (p : String) :
    (normalize p).toList.head? = some '/' ↔ p.toList.head? = some '/' ∨
      (p.toList.getLast? = some '/' ∧ Cancels (solidSegments p.toList)) := by
  rw [normalize, String.toList_ofList, head?_normalizeChars, resolve_eq_nil_iff]

/-- A relative path that cancels comes out as the root. -/
theorem rooted_normalize_cancelled :
    isBlank "a/../".toList = false ∧ "a/../".toList.head? ≠ some '/' ∧ normalize "a/../" = "/" := by
  decide

end RequestRouter.Path
