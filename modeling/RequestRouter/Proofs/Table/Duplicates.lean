/-
  RequestRouter/Proofs/Table/Duplicates.lean
  ==========================================
  **What is lost when a route is passed over as a duplicate.**

  A route is passed over when the verb has a route whose path spec is the same, ignoring the case of
  ASCII letters.  That route matches the same paths if the specs are equal, whatever the options are,
  and if case is ignored and the two pattern texts differ only in the case of letters that stand for
  themselves (`run_passes_over`).  Otherwise paths are lost: with case respected `/users` takes the
  place of `/USERS` (`register_passes_over_capitals`), and an escape such as `\d` takes the place of
  its opposite.
-/
import RequestRouter.Proofs.Regex.Letters
import RequestRouter.Proofs.Spec.Casing
import RequestRouter.Proofs.Table.Runs

namespace RequestRouter

/-! ### Patterns of specs that differ in case -/

namespace Pattern

/-- Whether the texts of two patterns differ at most in letters that stand for themselves, where case
    is ignored. -/
def alikeButCase (options : CompileOptions) (p q : Pattern) : Bool :=
  Regex.alikeButCase { ignoreCase := !options.caseSensitive } [] p.source.toList q.source.toList

/-- An accepted spec has gone through its passes, and its text is an expression. -/
theorem compile_eq_ok {options : CompileOptions} {spec : String} {p : Pattern}
    (h : compile options spec = .ok p) :
    ∃ source, Spec.compile options spec.toList = .ok source ∧
      p.source.toList = anchored source.pattern ∧
      Regex.parse (Regex.textFlags (!options.caseSensitive)) p.source.toList = .ok p.expr := by
  unfold compile at h
  split at h
  · cases h
  · next source hsource =>
    simp only at h
    split at h
    · cases h
    · next e hcompile =>
      split at h
      · cases h
        refine ⟨source, hsource, String.toList_ofList, ?_⟩
        rw [String.toList_ofList]
        exact Regex.parse_of_compile hcompile
      · cases h

variable {options : CompileOptions} {spec spec' : String} {p q : Pattern}

theorem small_source (hspec : Text.sameIgnoringCase spec spec' = true)
    (hp : compile options spec = .ok p) (hq : compile options spec' = .ok q) :
    Text.small p.source.toList = Text.small q.source.toList := by
  obtain ⟨source, hsource, hpsource, -⟩ := compile_eq_ok hp
  obtain ⟨source', hsource', hqsource, -⟩ := compile_eq_ok hq
  have hpattern :=
    Spec.small_pattern_of_compile (Text.sameIgnoringCase_iff.mp hspec) hsource hsource'
  rw [hpsource, hqsource, anchored, anchored]
  simp only [Text.small_append, hpattern]

/-- Patterns whose texts differ only in letters that stand for themselves match the same paths. -/
theorem isSome_captures_of_alikeButCase (hspec : Text.sameIgnoringCase spec spec' = true)
    (hp : compile options spec = .ok p) (hq : compile options spec' = .ok q)
    (hletters : p.alikeButCase options q = true) (path : String) :
    (p.captures path).isSome = (q.captures path).isSome := by
  have hlower := small_source hspec hp hq
  obtain ⟨-, -, -, hparse⟩ := compile_eq_ok hp
  obtain ⟨-, -, -, hparse'⟩ := compile_eq_ok hq
  obtain ⟨e, he, halike⟩ := Regex.parse_of_alikeButCase hlower hletters hparse
  obtain rfl : e = q.expr := Except.ok.inj (he.symm.trans hparse')
  rw [captures, captures, Option.isSome_map, Option.isSome_map, halike.find]

end Pattern

namespace Table

variable {S : Type}

/-! ### Routes of a table are compiled with its options -/

/-- The table has the options, and every pattern is that of its spec under them. -/
structure CompiledUnder (options : TableOptions) (t : Table S) : Prop where
  same : t.options = options
  patterns : ∀ e ∈ t.endpoints, Pattern.compile options.compile e.route.spec = .ok e.route.pattern

theorem compile_pattern {options : CompileOptions} {verb : Verb} {spec : String} {target : Target}
    {r : Route} (h : Route.compile options verb spec target = .ok r) :
    Pattern.compile options r.spec = .ok r.pattern := by
  rw [(Route.of_compile h).2.1]
  unfold Route.compile at h
  split at h
  · next pattern hpattern =>
    cases h
    exact hpattern
  · cases h

theorem keeps_compiledUnder (options : TableOptions) : Keeps (CompiledUnder (S := S) options) where
  register := by
    intro t h verb spec target handler
    rcases register_unchanged_or_added t verb spec target handler with
      ⟨-, hunchanged⟩ | ⟨-, -, route, hcompile, hr⟩
    · rw [hunchanged]
      exact h
    · rw [hr]
      refine ⟨h.same, ?_⟩
      intro e he
      rcases List.mem_append.mp he with he | he
      · exact h.patterns e he
      · obtain rfl := List.mem_singleton.mp he
        rw [h.same] at hcompile
        exact compile_pattern hcompile
  attach := by
    intro t h controller i
    unfold Table.attach
    split
    · exact h
    · exact ⟨h.same, h.patterns⟩
  normalize := by
    intro t h
    unfold Table.normalize
    split
    · exact h
    · refine ⟨h.same, ?_⟩
      intro e he
      exact h.patterns e ((perm_staticFirst t.endpoints).mem_iff.mp he)

/-! ### Routes that are passed over -/

/-- Where a registration is passed over, the verb has a route of the same spec, ignoring case. -/
theorem exists_route_of_passed_over {t : Table S} {verb : Verb} {spec : String} {target : Target}
    {handler : Callback S Outcome} (h : (t.register verb spec target handler).1 = .ok false) :
    ∃ e ∈ t.endpoints, e.route.verb = verb ∧ Text.sameIgnoringCase e.route.spec spec = true := by
  have hopen : t.isSealed = false := by
    rw [← Bool.not_eq_true]
    intro hsealed
    rw [register_of_sealed hsealed] at h
    cases h
  rcases register_cases hopen verb spec target handler with
    ⟨hthere, -⟩ | ⟨-, e, -, hr⟩ | ⟨-, route, -, hr⟩
  · obtain ⟨e, he, hkey⟩ := List.any_eq_true.mp hthere
    rw [Route.hasKey, Bool.and_eq_true] at hkey
    exact ⟨e, he, eq_of_beq hkey.1, hkey.2⟩
  · rw [hr] at h
    cases h
  · rw [hr] at h
    cases h

/-- **A route that is passed over.**  Whatever a fresh table was asked to do, if it then passes a
    registration over, it has a route of the verb with the same path spec, ignoring ASCII case.  If
    the spec that is passed over compiles, its pattern text differs from that of the route in the case
    of letters only; and if the specs are equal, or the letters in which the texts differ stand for
    themselves and case is ignored, then the route matches exactly the paths that the spec would. -/
theorem run_passes_over (options : TableOptions) (calls : List (Call S)) {verb : Verb} {spec : String}
    {target : Target} {handler : Callback S Outcome}
    (h : (((empty options).run calls).register verb spec target handler).1 = .ok false) :
    ∃ r ∈ ((empty options).run calls).routesOf verb, Text.sameIgnoringCase r.spec spec = true ∧
      ∀ p, Pattern.compile options.compile spec = .ok p →
        Text.sameIgnoringCase r.pattern.source p.source = true ∧
        (r.spec = spec ∨ r.pattern.alikeButCase options.compile p = true →
          ∀ path, (r.pattern.captures path).isSome = (p.captures path).isSome) := by
  have hcompiled : CompiledUnder options ((empty options).run calls) :=
    (keeps_compiledUnder options).run ⟨rfl, fun _ he => absurd he List.not_mem_nil⟩ calls
  obtain ⟨e, he, hverb, hspec⟩ := exists_route_of_passed_over h
  have hroute := hcompiled.patterns e he
  refine ⟨e.route, mem_routesOf.mpr ⟨e, he, rfl, hverb⟩, hspec, ?_⟩
  intro p hp
  refine ⟨Text.sameIgnoringCase_iff.mpr (Pattern.small_source hspec hroute hp), ?_⟩
  rintro (hsame | hletters) path
  · rw [hsame, hp] at hroute
    rw [Except.ok.inj hroute]
  · exact Pattern.isSome_captures_of_alikeButCase hspec hroute hp hletters path

/-- A route with a constraint. -/
def numberedCalls : List (Call Unit) :=
  [.register ⟨.get, "/users/:id(\\d+)", ⟨"Users", "show"⟩, Left.done .pass⟩]

/-- The same route in capitals is passed over, its escape being the same, and nothing is lost. -/
theorem run_passes_over_numbered :
    (((empty ⟨{}, false⟩).run numberedCalls).register .get "/USERS/:ID(\\d+)" ⟨"Users", "again"⟩
        (Left.done .pass)).1 = .ok false ∧
      ∃ r ∈ ((empty ⟨{}, false⟩).run numberedCalls).routesOf .get,
        ∃ p, Pattern.compile {} "/USERS/:ID(\\d+)" = .ok p ∧
          r.pattern.alikeButCase {} p = true ∧
          ∀ path, (r.pattern.captures path).isSome = (p.captures path).isSome := by
  have hpassed : (((empty ⟨{}, false⟩).run numberedCalls).register .get "/USERS/:ID(\\d+)"
      ⟨"Users", "again"⟩ (Left.done .pass)).1 = .ok false := by
    decide +kernel
  have hletters : ((Pattern.compile {} "/USERS/:ID(\\d+)").toOption.any fun p =>
      (((empty ⟨{}, false⟩).run numberedCalls).routesOf .get).all fun r =>
        r.pattern.alikeButCase {} p) = true := by decide +kernel
  obtain ⟨r, hr, -, hroute⟩ := run_passes_over ⟨{}, false⟩ numberedCalls hpassed
  cases hp : Pattern.compile {} "/USERS/:ID(\\d+)" with
  | error e =>
    rw [hp] at hletters
    cases hletters
  | ok p =>
    rw [hp] at hletters
    have hdiffer : r.pattern.alikeButCase {} p = true := List.all_eq_true.mp hletters r hr
    exact ⟨hpassed, r, hr, p, rfl, hdiffer, (hroute p hp).2 (.inr hdiffer)⟩

/-- A route in small letters. -/
def smallCalls : List (Call Unit) :=
  [.register ⟨.get, "/users", ⟨"Users", "small"⟩, Left.done .pass⟩]

/-- With case respected, the same spec in capitals matches a path of its own, but it is passed over and
    no route of the verb matches that path. -/
theorem register_passes_over_capitals :
    (((empty ⟨{ caseSensitive := true }, false⟩).run smallCalls).register .get "/USERS"
        ⟨"Users", "capital"⟩ (Left.done .pass)).1 = .ok false ∧
      ∃ p, Pattern.compile { caseSensitive := true } "/USERS" = .ok p ∧
        (p.captures "/USERS").isSome = true ∧
        ∀ r ∈ ((empty ⟨{ caseSensitive := true }, false⟩).run smallCalls).routesOf .get,
          (r.pattern.captures "/USERS").isSome = false := by
  have hmatches : ((Pattern.compile { caseSensitive := true } "/USERS").toOption.any fun p =>
      (p.captures "/USERS").isSome) = true := by decide +kernel
  cases hp : Pattern.compile { caseSensitive := true } "/USERS" with
  | error e =>
    rw [hp] at hmatches
    cases hmatches
  | ok p =>
    rw [hp] at hmatches
    exact ⟨by decide +kernel, p, rfl, hmatches, by decide +kernel⟩

end Table

end RequestRouter
