/-
  RequestRouter/Proofs/Config/Assets.lean
  =======================================
  **Which globs of static assets lead to a path.**

  Settings are accepted if each glob starts with a slash or a star, blanks around it aside.  Such a
  glob, without the blanks, accepts some path: put a slash for its first character, leave out the other
  stars, and put a letter for each question mark (`serves_of_starts`).  But the application compiles
  the glob as it stands, blanks included.  One that begins with a blank accepts only texts that begin
  with that blank, hence no path; all others lead to one (`assets_serve_iff`).
-/
import Mathlib.Data.List.Basic
import RequestRouter.Application.Basic
import RequestRouter.Config.Reader
import RequestRouter.Proofs.Glob
import RequestRouter.Proofs.Text.Blank

namespace RequestRouter.Glob

open RequestRouter.Text RequestRouter.Unicode

/-! ### Paths that a glob accepts -/

/-- The glob accepts some path. -/
def Serves (g : Glob) : Prop :=
  ∃ path : String, path.toList.head? = some '/' ∧ g.matchesText path = true

/-- What a character of a pattern may stand for. -/
def sampleChar : Char → List Char
  | '*' => []
  | '?' => ['x']
  | c => [c]

/-- Every pattern can be expanded without stars. -/
theorem expands_sample (pattern : List Char) :
    Expands (small pattern) (small (pattern.flatMap sampleChar)) := by
  induction pattern with
  | nil => rfl
  | cons p pattern ih =>
    rw [small_cons, List.flatMap_cons, small_append]
    unfold sampleChar
    split
    · exact ⟨[], _, rfl, ih⟩
    · exact ⟨'x', _, rfl, .inl rfl, ih⟩
    · next hstar _ =>
      have hlower : p.toLower ≠ '*' := fun h => hstar ((toLower_eq_iff (by decide)).mp h)
      rw [Expands, if_neg hlower]
      exact ⟨p.toLower, _, rfl, .inr rfl, ih⟩

theorem star_not_mem_sample (pattern : List Char) : '*' ∉ pattern.flatMap sampleChar := by
  intro hmem
  obtain ⟨p, -, hp⟩ := List.mem_flatMap.mp hmem
  unfold sampleChar at hp
  split at hp
  · cases hp
  · exact absurd hp (by decide)
  · next hstar _ => exact hstar (List.mem_singleton.mp hp).symm

theorem serves_iff {source : String} :
    (ignoringCase source).Serves ↔
      ∃ path : List Char, path.head? = some '/' ∧ Reads (small source.toList) (small path) := by
  constructor
  · rintro ⟨path, hhead, hmatch⟩
    exact ⟨path.toList, hhead, matchesText_iff.mp hmatch⟩
  · rintro ⟨path, hhead, hreads⟩
    have hmatch : (ignoringCase source).matchesText (String.ofList path) = true := by
      rw [matchesText_iff, folded, folded, String.toList_ofList]
      exact hreads
    exact ⟨String.ofList path, by rwa [String.toList_ofList], hmatch⟩

/-- A glob that starts with a slash or a star accepts a path. -/
theorem serves_of_starts {source : String} {p : Char} {rest : List Char}
    (hsource : source.toList = p :: rest) (hp : p = '/' ∨ p = '*') :
    (ignoringCase source).Serves := by
  have hsmall : small ('/' :: rest.flatMap sampleChar) = '/' :: small (rest.flatMap sampleChar) :=
    rfl
  have hstar : '*' ∉ small ('/' :: rest.flatMap sampleChar) := by
    intro hmem
    obtain ⟨c, hc, hlower⟩ := List.mem_map.mp hmem
    rw [(toLower_eq_iff (by decide)).mp hlower] at hc
    rcases List.mem_cons.mp hc with hslash | hc
    · exact absurd hslash (by decide)
    · exact star_not_mem_sample rest hc
  refine serves_iff.mpr ⟨'/' :: rest.flatMap sampleChar, rfl, reads_of_expands hstar ?_⟩
  rw [hsource, hsmall]
  rcases hp with rfl | rfl
  · exact ⟨'/', _, rfl, .inr rfl, expands_sample rest⟩
  · exact ⟨['/'], _, rfl, expands_sample rest⟩

/-- A glob that begins with a blank accepts no path. -/
theorem not_serves_of_blank {source : String} {b : Char} {rest : List Char}
    (hsource : source.toList = b :: rest) (hb : isSpace b = true) :
    ¬ (ignoringCase source).Serves := by
  rw [serves_iff]
  rintro ⟨path, hhead, hreads⟩
  obtain ⟨path, rfl⟩ := List.head?_eq_some_iff.mp hhead
  have hne : ∀ d : Char, d.isAlpha = false → isSpace d = false → b.toLower ≠ d := by
    intro d halpha hd hlower
    rw [(toLower_eq_iff halpha).mp hlower, hd] at hb
    exact Bool.false_ne_true hb
  rw [hsource, small_cons, reads_cons (hne '*' (by decide) (by decide))] at hreads
  obtain ⟨c, tail, hpath, hsame, -⟩ := hreads
  obtain rfl : '/' = c := (List.cons.inj hpath).1
  rcases hsame with hmark | hslash
  · exact hne '?' (by decide) (by decide) hmark
  · exact hne '/' (by decide) (by decide) hslash

end RequestRouter.Glob

namespace RequestRouter

open RequestRouter.Text RequestRouter.Unicode

/-! ### Accepted settings -/

theorem starts_of_assetProblems {index : Nat} {pattern : String}
    (h : assetProblems index pattern = []) :
    ∃ p rest, (trim pattern).toList = p :: rest ∧ (p = '/' ∨ p = '*') := by
  unfold assetProblems at h
  simp only at h
  split at h
  · cases h
  · next p rest htrim =>
    split at h
    · next hp => exact ⟨p, rest, htrim, hp⟩
    · cases h

theorem assetProblems_of_assetsProblems {index : Nat} {patterns : List String}
    (h : assetsProblems index patterns = []) {pattern : String} (hpattern : pattern ∈ patterns) :
    ∃ i, assetProblems i pattern = [] := by
  induction patterns generalizing index with
  | nil => cases hpattern
  | cons first more ih =>
    obtain ⟨hfirst, hmore⟩ := List.append_eq_nil_iff.mp h
    rcases List.mem_cons.mp hpattern with rfl | hpattern
    · exact ⟨index, hfirst⟩
    · exact ih hmore hpattern

/-- A glob in accepted settings starts with a slash or a star, blanks around it aside. -/
theorem AppConfig.starts_of_problems {c : AppConfig} (h : c.problems = []) {pattern : String}
    (hpattern : pattern ∈ c.routing.staticAssets) :
    ∃ p rest, (trim pattern).toList = p :: rest ∧ (p = '/' ∨ p = '*') := by
  have hrouting : c.routing.problems = [] :=
    (List.append_eq_nil_iff.mp (List.append_eq_nil_iff.mp h).1).2
  have hassets := (List.append_eq_nil_iff.mp hrouting).1
  obtain ⟨i, hi⟩ := assetProblems_of_assetsProblems hassets hpattern
  exact starts_of_assetProblems hi

theorem Application.isStaticAsset_ofControllers {S : Type} {routing : RoutingConfig}
    {controllers : List (Controller S)} {hooks : Hooks S} {path : String} :
    (ofControllers routing controllers hooks).isStaticAsset path = true ↔
      ∃ pattern ∈ routing.staticAssets, (Glob.ignoringCase pattern).matchesText path = true := by
  simp [ofControllers, isStaticAsset, GlobSet.ofSources, GlobSet.matchesText]

/-- **Which globs of accepted settings lead to a path.**  The application takes a path for a static
    asset if one of the globs, as it stands in the settings, accepts the path.  Every glob would lead to
    a path without the blanks around it; as it stands, it does so exactly if it begins with no
    blank. -/
theorem assets_serve_iff {S : Type} {c : AppConfig} (h : c.problems = [])
    (controllers : List (Controller S)) (hooks : Hooks S) :
    (∀ path, (Application.ofControllers c.routing controllers hooks).isStaticAsset path = true ↔
        ∃ pattern ∈ c.routing.staticAssets,
          (Glob.ignoringCase pattern).matchesText path = true) ∧
      ∀ pattern ∈ c.routing.staticAssets,
        (Glob.ignoringCase (trim pattern)).Serves ∧
          ((Glob.ignoringCase pattern).Serves ↔
            ∀ b ∈ pattern.toList.head?, isSpace b = false) := by
  refine ⟨fun path => Application.isStaticAsset_ofControllers, fun pattern hpattern => ?_⟩
  obtain ⟨p, rest, htrim, hp⟩ := AppConfig.starts_of_problems h hpattern
  refine ⟨Glob.serves_of_starts htrim hp, ?_, ?_⟩
  · intro hserves b hb
    obtain ⟨tail, htail⟩ := List.head?_eq_some_iff.mp hb
    rw [Bool.eq_false_iff]
    intro hblank
    exact Glob.not_serves_of_blank htail hblank hserves
  · intro hblank
    have hhead : pattern.toList.head? = some p := by
      rw [← head?_trimChars hblank, ← String.toList_ofList (l := trimChars _)]
      exact congrArg List.head? htrim
    obtain ⟨tail, htail⟩ := List.head?_eq_some_iff.mp hhead
    exact Glob.serves_of_starts htail hp

/-- Settings with a blank on either side of a glob. -/
def blankAssets : AppConfig :=
  { routing := { staticAssets := ["*.css ", " /assets/*"] } }

/-- They are what this text says. -/
theorem blankAssets_ofText : AppConfig.ofText
    "[routing]\nstatic_assets = [\"*.css \", \" /assets/*\"]\n".toList = .ok blankAssets := by
  decide +kernel

theorem blankAssets_problems : blankAssets.problems = [] :=
  AppConfig.problems_of_ofText blankAssets_ofText

/-- A blank behind a glob does no harm, one in front of it does. -/
theorem assets_serve_iff_blanks :
    blankAssets.problems = [] ∧
      (Glob.ignoringCase "*.css ").Serves ∧ ¬ (Glob.ignoringCase " /assets/*").Serves ∧
        (Glob.ignoringCase "/assets/*").Serves := by
  obtain ⟨-, hserve⟩ := assets_serve_iff blankAssets_problems ([] : List (Controller Unit))
    Hooks.standard
  have hbehind := hserve "*.css " (by decide)
  have hfront := hserve " /assets/*" (by decide)
  have htrim : trim " /assets/*" = "/assets/*" := by decide +kernel
  refine ⟨blankAssets_problems, hbehind.2.mpr ?_, ?_, htrim ▸ hfront.1⟩
  · intro b hb
    obtain rfl : '*' = b := Option.some.inj hb
    decide
  · intro hserves
    exact absurd (hfront.2.mp hserves ' ' rfl) (by decide)

/-- A glob of accepted settings that leads nowhere. -/
theorem assets_lead_nowhere :
    ¬ ∀ c : AppConfig, c.problems = [] →
      ∀ pattern ∈ c.routing.staticAssets, (Glob.ignoringCase pattern).Serves := by
  intro hall
  exact Glob.not_serves_of_blank rfl (by decide)
    (hall blankAssets blankAssets_problems " /assets/*" (by decide))

end RequestRouter
