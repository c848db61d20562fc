/-
  RequestRouter/Proofs/Table/Installing.lean
  ==========================================
  **Installing a controller is registering its combinations in order, up to the first error.**

  A controller stands for one route for each declaration, base path, path and verb (`Combination`), in
  that nesting.  The calls before the first error all succeed, so the table that is left is the one
  that they make (`registerAll_stops`).  A key is a verb and a path spec in any ASCII case: what a
  table holds under it (`under`) is changed by the first call of the key only, and only where nothing
  is held there (`under_registerEach`, `under_registerEach_of_new`).  Interceptors come last, so a
  controller whose routes are an error attaches none of them.
-/
import RequestRouter.Proofs.Table.Chains

namespace RequestRouter

variable {S : Type}

/-! ### Combinations -/

/-- One of the routes that a controller stands for. -/
structure Combination (S : Type) where
  declaration : Declaration S
  base : String
  path : String
  verb : Verb

/-- The verbs that lead to an action; if none is declared, all do. -/
def Declaration.verbsOrAll (d : Declaration S) : List Verb :=
  if d.verbs.isEmpty then Verb.all else d.verbs

namespace Controller

/-- Each declaration with each base path, each path and each verb. -/
def combinations (c : Controller S) : List (Combination S) :=
  c.declarations.flatMap fun d =>
    (orRoot c.basePaths).flatMap fun base =>
      (orRoot d.paths).flatMap fun path =>
        d.verbsOrAll.map fun verb => ⟨d, base, path, verb⟩

/-- The call that registers a combination. -/
def registration (c : Controller S) (x : Combination S) : Registration S :=
  ⟨x.verb, Path.join x.base x.path, ⟨c.name, x.declaration.action⟩, x.declaration.handler⟩

/-- The routes that a controller registers are its combinations in order. -/
theorem registrations_eq (c : Controller S) :
    c.registrations = c.combinations.map c.registration := by
  have hexpand : ∀ d, c.expand d = ((orRoot c.basePaths).flatMap fun base =>
      (orRoot d.paths).flatMap fun path => d.verbsOrAll.map fun verb =>
        (⟨d, base, path, verb⟩ : Combination S)).map c.registration := by
    intro d
    simp only [expand, specs, List.flatMap_assoc, List.flatMap_map, List.map_flatMap, List.map_map]
    rfl
  rw [registrations, funext hexpand, combinations, List.map_flatMap]

end Controller

/-! ### Keys -/

/-- Whether a call registers a verb and a path spec, in whatever ASCII case the spec is written. -/
def Registration.hasKey (r : Registration S) (verb : Verb) (spec : String) : Bool :=
  r.verb == verb && Text.sameIgnoringCase r.spec spec

namespace Table

/-- What a table holds under a verb and a path spec. -/
def under (t : Table S) (verb : Verb) (spec : String) : List (Endpoint S) :=
  t.endpoints.filter (·.route.hasKey verb spec)

theorem under_append (t : Table S) (e : Endpoint S) (verb : Verb) (spec : String) :
    ({ t with endpoints := t.endpoints ++ [e] } : Table S).under verb spec =
      t.under verb spec ++ if e.route.hasKey verb spec then [e] else [] := by
  rw [under, List.filter_append, List.filter_cons, List.filter_nil]
  rfl

theorem contains_eq_false_iff {t : Table S} {verb : Verb} {spec : String} :
    t.contains verb spec = false ↔ t.under verb spec = [] := by
  rw [contains, under, List.any_eq_false, List.filter_eq_nil_iff]

theorem contains_of_under {t u : Table S} {verb : Verb} {spec : String}
    (h : t.under verb spec = u.under verb spec) : t.contains verb spec = u.contains verb spec := by
  rw [Bool.eq_iff_iff, ← not_iff_not, Bool.not_eq_true, Bool.not_eq_true, contains_eq_false_iff,
    contains_eq_false_iff, h]

/-- What a table holds under the key of a call. -/
theorem contains_of_hasKey {r : Registration S} {verb : Verb} {spec : String}
    (h : r.hasKey verb spec = true) (t : Table S) :
    t.contains r.verb r.spec = t.contains verb spec := by
  obtain ⟨hverb, hspec⟩ := Bool.and_eq_true_iff.mp h
  have hkey : ∀ route : Route, route.hasKey r.verb r.spec = route.hasKey verb spec := by
    intro route
    have hsame : Text.sameIgnoringCase route.spec r.spec =
        Text.sameIgnoringCase route.spec spec := by
      rw [Bool.eq_iff_iff]
      refine ⟨fun hr => Text.sameIgnoringCase_trans hr hspec, fun hs => ?_⟩
      exact Text.sameIgnoringCase_trans hs ((Text.sameIgnoringCase_comm _ _).trans hspec)
    rw [Route.hasKey, Route.hasKey, hsame, eq_of_beq hverb]
  simp only [contains, hkey]

/-- A call does not change what is held under other keys, nor where something is held already. -/
theorem under_register {t : Table S} {r : Registration S} {verb : Verb} {spec : String}
    (h : t.contains verb spec = true ∨ r.hasKey verb spec = false) :
    (t.register r.verb r.spec r.target r.handler).2.under verb spec = t.under verb spec := by
  rcases register_unchanged_or_added t r.verb r.spec r.target r.handler with
    ⟨-, hsame⟩ | ⟨-, hnew, route, hcompile, hr⟩
  · rw [hsame]
  · obtain ⟨hverb, hspec, -⟩ := Route.of_compile hcompile
    have hother : r.hasKey verb spec = false := by
      refine h.elim (fun hthere => ?_) id
      rw [Bool.eq_false_iff]
      intro hkey
      rw [contains_of_hasKey hkey, hthere] at hnew
      cases hnew
    have hroute : route.hasKey verb spec = false := by
      rw [Route.hasKey, hverb, hspec]
      exact hother
    simp only [hr, under_append, hroute, Bool.false_eq_true, if_false, List.append_nil]

/-- A call that succeeds puts its route where nothing is held. -/
theorem under_register_of_new {t : Table S} (hopen : t.isSealed = false) {r : Registration S}
    {verb : Verb} {spec : String} (hkey : r.hasKey verb spec = true)
    (hnew : t.contains verb spec = false) {added : Bool}
    (hok : (t.register r.verb r.spec r.target r.handler).1 = .ok added) :
    ∃ e, Adds t.options.compile r e ∧
      (t.register r.verb r.spec r.target r.handler).2.under verb spec = [e] := by
  rcases register_cases hopen r.verb r.spec r.target r.handler with
    ⟨hthere, -⟩ | ⟨-, e, -, hr⟩ | ⟨-, route, hcompile, hr⟩
  · rw [contains_of_hasKey hkey, hnew] at hthere
    cases hthere
  · rw [hr] at hok
    cases hok
  · obtain ⟨hverb, hspec, -⟩ := Route.of_compile hcompile
    have hroute : route.hasKey verb spec = true := by
      rw [Route.hasKey, hverb, hspec]
      exact hkey
    refine ⟨⟨route, r.handler⟩, ⟨hcompile, rfl⟩, ?_⟩
    simp only [hr, under_append, hroute, if_true, contains_eq_false_iff.mp hnew, List.nil_append]

/-! ### Calls in order -/

theorem options_register (t : Table S) (verb : Verb) (spec : String) (target : Target)
    (handler : Callback S Outcome) :
    (t.register verb spec target handler).2.options = t.options := by
  rcases register_unchanged_or_added t verb spec target handler with
    ⟨-, hsame⟩ | ⟨-, -, route, -, hr⟩
  · rw [hsame]
  · rw [hr]

/-- No call is answered with an error when its turn comes. -/
def Succeeds (t : Table S) (calls : List (Registration S)) : Prop :=
  ∀ earlier r later, calls = earlier ++ r :: later →
    ∃ added, ((t.registerEach earlier).register r.verb r.spec r.target r.handler).1 = .ok added

theorem succeeds_nil (t : Table S) : t.Succeeds [] :=
  fun _ _ _ h => absurd h.symm (by simp)

theorem succeeds_cons {t : Table S} {r : Registration S} {more : List (Registration S)} :
    t.Succeeds (r :: more) ↔
      (∃ added, (t.register r.verb r.spec r.target r.handler).1 = .ok added) ∧
        (t.register r.verb r.spec r.target r.handler).2.Succeeds more := by
  constructor
  · intro h
    refine ⟨h [] r more rfl, ?_⟩
    rintro earlier x later rfl
    exact h (r :: earlier) x later rfl
  · rintro ⟨hfirst, hmore⟩ earlier x later hsplit
    cases earlier with
    | nil =>
      obtain ⟨rfl, -⟩ := List.cons.inj hsplit
      exact hfirst
    | cons y earlier =>
      obtain ⟨rfl, hrest⟩ := List.cons.inj hsplit
      exact hmore earlier x later hrest

/-- Calls do not change what is held under other keys, nor where something is held already. -/
theorem under_registerEach (calls : List (Registration S)) {t : Table S} {verb : Verb}
    {spec : String}
    (h : t.contains verb spec = true ∨ ∀ r ∈ calls, r.hasKey verb spec = false) :
    (t.registerEach calls).under verb spec = t.under verb spec := by
  induction calls generalizing t with
  | nil => rfl
  | cons r more ih =>
    have hfirst := under_register (h.imp_right fun hall => hall r List.mem_cons_self)
    rw [registerEach, ih, hfirst]
    rw [contains_of_under hfirst]
    exact h.imp_right fun hall r' hr' => hall r' (List.mem_cons_of_mem r hr')

/-- Where nothing is held, calls that succeed leave the route of the first call of the key. -/
theorem under_registerEach_of_new {calls : List (Registration S)} {t : Table S}
    (hopen : t.isSealed = false) (hok : t.Succeeds calls) {verb : Verb} {spec : String}
    (hnew : t.contains verb spec = false) {r : Registration S}
    (hfirst : calls.find? (·.hasKey verb spec) = some r) :
    ∃ e, Adds t.options.compile r e ∧ (t.registerEach calls).under verb spec = [e] := by
  induction calls generalizing t with
  | nil => cases hfirst
  | cons r' more ih =>
    obtain ⟨⟨added, hanswer⟩, hmore⟩ := succeeds_cons.mp hok
    rw [registerEach]
    cases hkey : r'.hasKey verb spec with
    | true =>
      simp only [List.find?_cons, hkey] at hfirst
      obtain rfl := Option.some.inj hfirst
      obtain ⟨e, hadds, hunder⟩ := under_register_of_new hopen hkey hnew hanswer
      refine ⟨e, hadds, ?_⟩
      rw [under_registerEach more (.inl ?_), hunder]
      rw [← Bool.not_eq_false, contains_eq_false_iff, hunder]
      exact List.cons_ne_nil e []
    | false =>
      simp only [List.find?_cons, hkey] at hfirst
      have hsame := under_register (t := t) (.inr hkey)
      rw [← options_register t r'.verb r'.spec r'.target r'.handler]
      exact ih ((isSealed_register t _ _ _ _).trans hopen) hmore
        ((contains_of_under hsame).trans hnew) hfirst

/-- **Registering stops at the first error.**  The calls before it succeed, and the table is the one
    that they make; without an error these are all calls, and the answer is what the table grew by. -/
theorem registerAll_stops (t : Table S) (calls : List (Registration S)) :
    ∃ done rest, calls = done ++ rest ∧ t.Succeeds done ∧
      (t.registerAll calls).2 = t.registerEach done ∧
      ((rest = [] ∧ ∃ n, (t.registerAll calls).1 = .ok n ∧ (t.registerEach done).size = t.size + n) ∨
        ∃ r more e, rest = r :: more ∧ (t.registerAll calls).1 = .error e ∧
          ((t.registerEach done).register r.verb r.spec r.target r.handler).1 = .error e) := by
  induction calls generalizing t with
  | nil => exact ⟨[], [], rfl, succeeds_nil t, rfl, .inl ⟨rfl, 0, rfl, rfl⟩⟩
  | cons r more ih =>
    have hsize := size_register t r.verb r.spec r.target r.handler
    have hkept : (t.register r.verb r.spec r.target r.handler).1 ≠ .ok true →
      (t.register r.verb r.spec r.target r.handler).2 = t := register_snd_of_ne_true
    have hcons := @succeeds_cons S t r
    cases hr : t.register r.verb r.spec r.target r.handler with
    | mk answer after =>
    rw [hr] at hsize hkept hcons
    rw [registerAll, hr]
    cases answer with
    | error e =>
      obtain rfl : after = t := hkept (by simp)
      exact ⟨[], r :: more, rfl, succeeds_nil _, rfl, .inr ⟨r, more, e, rfl, rfl, congrArg Prod.fst hr⟩⟩
    | ok added =>
      obtain ⟨done, rest, rfl, hok, htable, hend⟩ := ih after
      have heach : t.registerEach (r :: done) = after.registerEach done := by rw [registerEach, hr]
      refine ⟨r :: done, rest, rfl, hcons.mpr ⟨⟨added, rfl⟩, hok⟩, htable.trans heach.symm, ?_⟩
      rw [heach]
      refine hend.imp ?_ ?_
      · rintro ⟨hrest, n, hn, hgrown⟩
        refine ⟨hrest, n + (if added then 1 else 0), by simp only [hn]; rfl, ?_⟩
        rw [hgrown, hsize]
        cases added with
        | true => simp only [isAdded, List.countP_cons, List.countP_nil, if_true]; omega
        | false => rfl
      · rintro ⟨r', more', e, hrest, he, hanswer⟩
        exact ⟨r', more', e, hrest, by simp only [he]; rfl, hanswer⟩

/-! ### Controllers -/

/-- What an open table is after the calls for some combinations of a controller, none of which is an
    error. -/
structure Takes (t : Table S) (c : Controller S) (done : List (Combination S)) (after : Table S) :
    Prop where
  succeeds : t.Succeeds (done.map c.registration)
  /-- Apart from interceptors it is what the calls leave. -/
  table : after = { t.registerEach (done.map c.registration) with attachments := after.attachments }
  /-- The routes that were there stay, and the accepted ones follow in order. -/
  routes : after.endpoints.map (·.route) =
    t.endpoints.map (·.route) ++ t.accepted (done.map c.registration)
  /-- A key that was there, or that no combination has, keeps what it had. -/
  kept : ∀ verb spec,
    t.contains verb spec = true ∨ (∀ x ∈ done, (c.registration x).hasKey verb spec = false) →
    after.under verb spec = t.under verb spec
  /-- Any other key belongs to the first combination that has it. -/
  first : ∀ verb spec x, t.contains verb spec = false →
    done.find? (fun x => (c.registration x).hasKey verb spec) = some x →
    ∃ route, Route.compile t.options.compile x.verb (Path.join x.base x.path)
        ⟨c.name, x.declaration.action⟩ = .ok route ∧
      after.under verb spec = [⟨route, x.declaration.handler⟩]

theorem takes_registerEach {t : Table S} (hopen : t.isSealed = false) {c : Controller S}
    {done : List (Combination S)} (hok : t.Succeeds (done.map c.registration))
    (attachments : List (Attachment S)) :
    t.Takes c done
      { t.registerEach (done.map c.registration) with attachments := attachments } where
  succeeds := hok
  table := rfl
  routes := (routes_registerEach (done.map c.registration) hopen).2
  kept := by
    intro verb spec h
    refine under_registerEach (done.map c.registration) (h.imp_right fun hall r hr => ?_)
    obtain ⟨x, hx, rfl⟩ := List.mem_map.mp hr
    exact hall x hx
  first := by
    intro verb spec x hnew hfirst
    have hcall : (done.map c.registration).find? (·.hasKey verb spec) = some (c.registration x) := by
      rw [List.find?_map]
      exact congrArg (Option.map c.registration) hfirst
    obtain ⟨e, hadds, hunder⟩ := under_registerEach_of_new hopen hok hnew hcall
    refine ⟨e.route, hadds.compiles, ?_⟩
    have hhandler : e.handler = x.declaration.handler := hadds.handler
    rw [← hhandler]
    exact hunder

/-- **Installing a controller registers its combinations in order and stops at the first error.**

    The table takes the combinations before that error.  Without one it takes all of them, the answer
    is what its size grew by, and the interceptors of the controller follow those that were attached.
    With one the answer is that error, and no interceptor is attached. -/
theorem install_combinations {t : Table S} (hopen : t.isSealed = false) (c : Controller S) :
    ∃ done rest, c.combinations = done ++ rest ∧ t.Takes c done (t.install c).2 ∧
      ((rest = [] ∧ ∃ n, (t.install c).1 = .ok n ∧ (t.install c).2.size = t.size + n ∧
          (t.install c).2.attachments = t.attachments ++ c.interceptors.map (⟨c.name, ·⟩)) ∨
        ∃ x more e, rest = x :: more ∧ (t.install c).1 = .error e ∧
          ((t.registerEach (done.map c.registration)).register x.verb (Path.join x.base x.path)
            ⟨c.name, x.declaration.action⟩ x.declaration.handler).1 = .error e ∧
          (t.install c).2.attachments = t.attachments) := by
  obtain ⟨called, left, hcalls, hok, htable, hend⟩ := registerAll_stops t c.registrations
  have hparts := c.registrations_eq.symm.trans hcalls
  obtain ⟨done, rest, hsplit, rfl, rfl⟩ := List.map_eq_append_iff.mp hparts
  rw [install_of_open hopen, htable]
  refine ⟨done, rest, hsplit, takes_registerEach hopen hok _, hend.imp ?_ ?_⟩
  · rintro ⟨hrest, n, hanswer, hsize⟩
    refine ⟨List.map_eq_nil_iff.mp hrest, n, hanswer, hsize, ?_⟩
    rw [hanswer]
    rfl
  · rintro ⟨r, more, e, hrest, hanswer, herror⟩
    obtain ⟨x, more', rfl, rfl, -⟩ := List.map_eq_cons_iff.mp hrest
    refine ⟨x, more', e, rfl, hanswer, herror, ?_⟩
    rw [hanswer]
    exact List.append_nil _

/-- A table with one route. -/
def rooted : Table Unit :=
  (empty ⟨{}, false⟩).registerEach [⟨.get, "/API/Users", ⟨"Root", "all"⟩, Left.done .pass⟩]

/-- Two base paths, and an action with paths of the action before it. -/
def versioned : Controller Unit :=
  ⟨"Users", ["/api", "v2"],
    [⟨[.get], ["users", "users/:id"], "index", Left.done .pass⟩,
      ⟨[.get, .head], ["/USERS/:ID"], "show", Left.done .pass⟩],
    [Interceptor.before "session" (Left.done .pass)]⟩

/-- Three of eight combinations add nothing: the route that was there stays, and the first action has
    its paths. -/
theorem install_combinations_versioned :
    rooted.isSealed = false ∧ versioned.combinations.length = 8 ∧
      (rooted.install versioned).1 = .ok 5 ∧ (rooted.install versioned).2.size = rooted.size + 5 ∧
      (rooted.install versioned).2.under .get "/api/users" = rooted.under .get "/api/users" ∧
      ∃ route, Route.compile {} .get (Path.join "v2" "users/:id") ⟨"Users", "index"⟩ = .ok route ∧
        (rooted.install versioned).2.under .get "/V2/Users/:Id" = [⟨route, Left.done .pass⟩] := by
  have hopen : rooted.isSealed = false := by decide +kernel
  have hanswer : (rooted.install versioned).1 = .ok 5 := by decide +kernel
  obtain ⟨done, rest, hsplit, htakes, ⟨rfl, n, hn, hsize, -⟩ | ⟨x, more, e, -, herror, -⟩⟩ :=
    install_combinations hopen versioned
  · rw [List.append_nil] at hsplit
    subst hsplit
    obtain rfl : n = 5 := Except.ok.inj (hn.symm.trans hanswer)
    have hfirst : versioned.combinations.find?
        (fun x => (versioned.registration x).hasKey .get "/V2/Users/:Id") =
          some ⟨⟨[.get], ["users", "users/:id"], "index", Left.done .pass⟩, "v2", "users/:id", .get⟩ :=
      List.find?_eq_some_iff_append.mpr ⟨by decide +kernel, versioned.combinations.take 3,
        versioned.combinations.drop 4, rfl, List.all_eq_true.mp (by decide +kernel)⟩
    have hoptions : rooted.options.compile = {} :=
      congrArg TableOptions.compile (options_register _ _ _ _ _)
    obtain ⟨route, hroute, hunder⟩ := htakes.first _ _ _ (by decide +kernel) hfirst
    rw [hoptions] at hroute
    exact ⟨hopen, rfl, hanswer, hsize, htakes.kept _ _ (.inl (by decide +kernel)), route, hroute,
      hunder⟩
  · rw [hanswer] at herror
    cases herror

end Table

end RequestRouter
