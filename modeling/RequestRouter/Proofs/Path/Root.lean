/-
  RequestRouter/Proofs/Path/Root.lean
  ===================================
  **Which paths climb above the root, and what becomes of the routes composed from them.**

  For a file system the parent of the root is the root.  The stack that resolves a path does not
  know where the path starts, so a rooted path keeps the parents that climb above the root, and has
  none exactly if it never climbs (`climbs_above_root`).  Clients resolve dot segments before they
  send a request, so a route composed from parts that climb is not reached by the paths they send,
  whatever the case rules and the slash at its end.
-/
import RequestRouter.Proofs.Path.Join
import RequestRouter.Proofs.Pattern.Literal

namespace RequestRouter

open RequestRouter.Path RequestRouter.Spec

/-! ### Requests and specs -/

namespace Path

/-- A spec that a request can be spelled like: it is rooted, it has no repeated slashes, which are
    made one before it is compared, and no dot segments, which clients resolve. -/
structure Reachable (spec : List Char) : Prop where
  rooted : spec.head? = some '/'
  single : ¬ ['/', '/'] <:+: spec
  named : ∀ s ∈ segments spec, IsName s

variable {base path : String}

theorem dotDot_mem_join_iff :
    dotDot ∈ segments (join base path).toList ↔
      ¬ Stays (solidSegments base.toList ++ solidSegments path.toList) := by
  rw [toList_join, segments_joinChars, dotDot_mem_resolve_iff]

theorem reachable_join_iff :
    Reachable (join base path).toList ↔
      Stays (solidSegments base.toList ++ solidSegments path.toList) := by
  constructor
  · intro h
    by_contra hclimbs
    exact (h.named dotDot (dotDot_mem_join_iff.mpr hclimbs)).2 rfl
  · intro hstays
    rw [toList_join]
    refine ⟨head?_joinChars _ _, (isNormal_joinChars _ _).single, ?_⟩
    intro s hs
    rw [segments_joinChars, hstays.resolve_eq] at hs
    exact isName_of_mem_canonical hs

end Path

namespace Pattern

/-- Some path without dot segments is matched. -/
def IsReached (p : Pattern) : Prop :=
  ∃ path : String, (∀ s ∈ segments path.toList, IsName s) ∧ (p.captures path).isSome

variable {ic strict : Bool} {cs s tail : List Char}

/-! ### Segments of a text spelled like another -/

theorem forall₂_split {R : Char → Char → Prop} (hR : ∀ {c d}, R c d → (c = '/' ↔ d = '/'))
    (h : List.Forall₂ R cs s) : List.Forall₂ (List.Forall₂ R) (split cs) (split s) := by
  induction h with
  | nil => exact .cons .nil .nil
  | @cons c d cs s hcd hmore ih =>
    by_cases hc : c = '/'
    · rw [split, if_pos hc, split, if_pos ((hR hcd).mp hc)]
      exact .cons .nil ih
    · obtain ⟨first, rest, hcs⟩ := List.exists_cons_of_ne_nil (split_ne_nil cs)
      obtain ⟨first', rest', hs⟩ := List.exists_cons_of_ne_nil (split_ne_nil s)
      rw [hcs, hs] at ih
      obtain ⟨hfirst, hrest⟩ := List.forall₂_cons.mp ih
      rw [split, if_neg hc, hcs, split, if_neg fun hd => hc ((hR hcd).mpr hd), hs]
      exact .cons (.cons hcd hfirst) hrest

/-- A slash has no case. -/
theorem slash_iff_of_sameChar {c d : Char} (h : sameChar ic c d = true) : c = '/' ↔ d = '/' := by
  constructor
  · rintro rfl
    exact sameChar_slash.mp h
  · rintro rfl
    rw [sameChar_comm] at h
    exact sameChar_slash.mp h

theorem eq_dotDot_of_spells (h : Spells ic dotDot s) : s = dotDot := by
  cases h with
  | cons hfirst hmore =>
    cases hmore with
    | cons hsecond hrest =>
      cases hrest with
      | nil => rw [sameChar_dot.mp hfirst, sameChar_dot.mp hsecond]; rfl

theorem dotDot_mem_segments_of_spells (h : Spells ic cs s) (hparent : dotDot ∈ segments cs) :
    dotDot ∈ segments s := by
  have hpieces := (forall₂_split slash_iff_of_sameChar h).flip
  obtain ⟨t, ht, hspells⟩ := exists_of_forall₂ hpieces (List.mem_filter.mp hparent).1
  rw [eq_dotDot_of_spells hspells] at ht
  exact List.mem_filter.mpr ⟨ht, by decide⟩

theorem segments_append_tail (h : Tail strict tail) (front : List Char) :
    segments (front ++ tail) = segments front := by
  rcases h with rfl | ⟨-, rfl⟩
  · rw [List.append_nil]
  · exact segments_concat_slash front

/-! ### Reaching a literal route -/

theorem spells_self (cs : List Char) : Spells ic cs cs :=
  List.forall₂_same.mpr fun c _ => sameChar_self c

/-- A literal spec matches itself, if it has no repeated slashes. -/
theorem isSome_captures_self {options : CompileOptions} {spec : String} {p : Pattern}
    (h : ∀ c ∈ spec.toList, Element.Literal c) (hp : compile options spec = .ok p)
    (hsingle : ¬ ['/', '/'] <:+: spec.toList) : (p.captures spec).isSome := by
  obtain ⟨rest, hrest, htail⟩ := literalBody_append options.strict spec.toList
  rw [isSome_captures_literal h hp]
  refine ⟨literalBody options.strict spec.toList, rest, spells_self _, ?_, htail⟩
  rw [collapse, String.toList_ofList, collapseChars_of_single hsingle, hrest]

/-- Every path that a literal spec with a parent in it matches, has a parent in it. -/
theorem dotDot_mem_segments_of_captures {options : CompileOptions} {spec path : String} {p : Pattern}
    (h : ∀ c ∈ spec.toList, Element.Literal c) (hp : compile options spec = .ok p)
    (hparent : dotDot ∈ segments spec.toList) (hpath : (p.captures path).isSome) :
    dotDot ∈ segments path.toList := by
  obtain ⟨rest, hrest, htail⟩ := literalBody_append options.strict spec.toList
  obtain ⟨body, tail, hspells, hcollapse, htail'⟩ := (isSome_captures_literal h hp path).mp hpath
  rw [← hrest, segments_append_tail htail] at hparent
  rw [collapse, String.toList_ofList] at hcollapse
  rw [← segments_collapseChars, hcollapse, segments_append_tail htail']
  exact dotDot_mem_segments_of_spells hspells hparent

theorem literal_join {base path : String} (h : ∀ c ∈ base.toList ++ path.toList, Element.Literal c) :
    ∀ c ∈ (join base path).toList, Element.Literal c := by
  intro c hc
  rw [toList_join] at hc
  rcases mem_of_mem_joinChars hc with rfl | hbase | hpath
  · decide
  · exact h c (List.mem_append_left _ hbase)
  · exact h c (List.mem_append_right _ hpath)

/-- A route composed from literal parts is reached exactly if they do not climb above the root. -/
theorem isReached_join_iff {options : CompileOptions} {base path : String} {p : Pattern}
    (h : ∀ c ∈ base.toList ++ path.toList, Element.Literal c)
    (hp : compile options (join base path) = .ok p) :
    p.IsReached ↔ Stays (solidSegments base.toList ++ solidSegments path.toList) := by
  have hliteral := literal_join h
  constructor
  · rintro ⟨request, hnamed, hmatch⟩
    by_contra hclimbs
    have hparent : dotDot ∈ segments (join base path).toList := dotDot_mem_join_iff.mpr hclimbs
    exact (hnamed dotDot (dotDot_mem_segments_of_captures hliteral hp hparent hmatch)).2 rfl
  · intro hstays
    have hreachable := reachable_join_iff.mpr hstays
    exact ⟨join base path, hreachable.named, isSome_captures_self hliteral hp hreachable.single⟩

end Pattern

namespace Path

/-- **A path keeps the parents that climb above the root.**  Where a file system would stay at the
    root, they are left in front of the segments that it would leave; so a path, rooted or not,
    comes out without a parent exactly if in no front part of it the parents outnumber the names.
    Likewise a composed spec, which is always rooted, can be reached by requests exactly if its two
    parts together do not climb; and if it is literal, its route is accepted, up to the size limit,
    and is reached under the same condition. -/
theorem climbs_above_root (p base path : String) :
    (dotDot ∈ segments (normalize p).toList ↔ ¬ Stays (solidSegments p.toList)) ∧
      (∃ n, Climbs (solidSegments p.toList) n ∧ segments (normalize p).toList =
        List.replicate n dotDot ++ canonical (solidSegments p.toList)) ∧
      (dotDot ∈ segments (join base path).toList ↔
        ¬ Stays (solidSegments base.toList ++ solidSegments path.toList)) ∧
      (Reachable (join base path).toList ↔
        Stays (solidSegments base.toList ++ solidSegments path.toList)) ∧
      ((∀ c ∈ base.toList ++ path.toList, Element.Literal c) → ∀ options : CompileOptions,
        (options.budget.Usual → (join base path).length ≤ 10000 →
          ∃ route, Pattern.compile options (join base path) = .ok route) ∧
        ∀ route, Pattern.compile options (join base path) = .ok route →
          (route.IsReached ↔ Stays (solidSegments base.toList ++ solidSegments path.toList))) := by
  have hsegments : segments (normalize p).toList = resolve (solidSegments p.toList) := by
    rw [normalize, String.toList_ofList, segments_normalizeChars]
  rw [hsegments]
  refine ⟨dotDot_mem_resolve_iff, exists_resolve_eq _, dotDot_mem_join_iff, reachable_join_iff, ?_⟩
  intro hparts options
  have hliteral := Pattern.literal_join hparts
  obtain ⟨-, haccepted, -⟩ := Pattern.compile_laid_cases
    (Pattern.laid_literalElements hliteral options.strict)
    (Pattern.spread_literalElements options.strict _) (Pattern.textFor_literal hliteral)
  exact ⟨haccepted, fun route hroute => Pattern.isReached_join_iff hparts hroute⟩

/-- Two steps above the root, and a part that goes back from its prefix without climbing. -/
theorem climbs_above_root_versions :
    dotDot ∈ segments (normalize "/../a/../..").toList ∧
      (∀ c ∈ "/api/v1/".toList ++ "./../v2".toList, Element.Literal c) ∧
      ∃ route, Pattern.compile {} (join "/api/v1/" "./../v2") = .ok route ∧ route.IsReached := by
  have hchars : ("/api/v1/".toList ++ "./../v2".toList).all (Element.Literal ·) = true := by decide
  have hparts : ∀ c ∈ "/api/v1/".toList ++ "./../v2".toList, Element.Literal c :=
    fun c hc => of_decide_eq_true (List.all_eq_true.mp hchars c hc)
  obtain ⟨hparent, -, -, -, hliteral⟩ := climbs_above_root "/../a/../.." "/api/v1/" "./../v2"
  obtain ⟨haccepted, hreached⟩ := hliteral hparts {}
  obtain ⟨route, hroute⟩ := haccepted Regex.Budget.usual_standard (by decide)
  exact ⟨hparent.mpr (by decide), hparts, route, hroute, (hreached route hroute).mpr (by decide)⟩

/-- The parent of the root is kept, and so is one that takes a route above its prefix. -/
theorem normalize_above_root :
    "/..".toList.head? = some '/' ∧ normalize "/.." = "/.." ∧
      dotDot ∈ segments (normalize "/..").toList ∧ join "/" "../b" = "/../b" ∧
      dotDot ∈ segments (join "/" "../b").toList := by
  decide

end Path

end RequestRouter
