/-
  RequestRouter/Proofs/Table/History.lean
  =======================================
  **What a table finds after any history of registrations.**

  A call may be refused, passed over as a duplicate or answered with `true`; the routes of the calls
  of the last kind are the accepted ones.  Whatever the calls were, the open table holds exactly the
  accepted routes in the order of their calls (`routes_registerEach`).  Sealing moves those without
  parameters to the front and keeps both orders, so a lookup comes to the earliest accepted route
  without parameters that matches, and only if there is none to the earliest one with parameters.
-/
import Mathlib.Tactic.ByContra
import RequestRouter.Controller

namespace RequestRouter.Table

variable {S : Type}

/-! ### One call -/

/-- What a call does to an open table: nothing for a route that is already there, nothing for a path
    spec that does not compile, and otherwise its route comes last. -/
theorem register_cases {t : Table S} (h : t.isSealed = false) (verb : Verb) (spec : String)
    (target : Target) (handler : Callback S Outcome) :
    (t.contains verb spec = true ∧ t.register verb spec target handler =
      (if t.options.rejectDuplicates then .error (.duplicate verb spec) else .ok false, t)) ∨
    (t.contains verb spec = false ∧ ∃ e, Route.compile t.options.compile verb spec target = .error e ∧
      t.register verb spec target handler = (.error e, t)) ∨
    (t.contains verb spec = false ∧
      ∃ route, Route.compile t.options.compile verb spec target = .ok route ∧
        t.register verb spec target handler =
          (.ok true, { t with endpoints := t.endpoints ++ [⟨route, handler⟩] })) := by
  unfold register
  rw [h, if_neg (by simp)]
  by_cases hc : t.contains verb spec = true
  · refine Or.inl ⟨hc, ?_⟩
    rw [if_pos hc]
    split <;> rfl
  · have hc' : t.contains verb spec = false := by simpa using hc
    rw [if_neg hc]
    cases hcompile : Route.compile t.options.compile verb spec target with
    | error e => exact Or.inr (Or.inl ⟨hc', e, rfl, rfl⟩)
    | ok route => exact Or.inr (Or.inr ⟨hc', route, rfl, rfl⟩)

/-! ### A history of calls -/

/-- The table after calls, whatever each of them answered. -/
def registerEach (t : Table S) : List (Registration S) → Table S
  | [] => t
  | r :: more => registerEach (t.register r.verb r.spec r.target r.handler).2 more

/-- The routes of the calls that are answered with `true`. -/
def accepted (t : Table S) : List (Registration S) → List Route
  | [] => []
  | r :: more =>
    let (answer, after) := t.register r.verb r.spec r.target r.handler
    match answer, Route.compile t.options.compile r.verb r.spec r.target with
    | .ok true, .ok route => route :: accepted after more
    | _, _ => accepted after more

/-- A call leaves the table open, and with its route if it is answered with `true`. -/
theorem accepted_cons {t : Table S} (h : t.isSealed = false) (r : Registration S)
    (more : List (Registration S)) :
    ∃ added after, (t.register r.verb r.spec r.target r.handler).2 = after ∧
      after.isSealed = false ∧ t.accepted (r :: more) = added ++ after.accepted more ∧
      after.endpoints.map (·.route) = t.endpoints.map (·.route) ++ added := by
  rcases register_cases h r.verb r.spec r.target r.handler with
    ⟨-, hr⟩ | ⟨-, e, -, hr⟩ | ⟨-, route, hcompile, hr⟩
  · refine ⟨[], t, ?_, h, ?_, by simp⟩
    · rw [hr]
    · rw [accepted, hr]
      by_cases hreject : t.options.rejectDuplicates = true
      · simp [hreject]
      · simp [hreject]
  · refine ⟨[], t, ?_, h, ?_, by simp⟩
    · rw [hr]
    · rw [accepted, hr]
      rfl
  · refine ⟨[route], _, rfl, ?_, ?_, ?_⟩
    · rw [hr]
      exact h
    · rw [accepted, hr, hcompile]
      rfl
    · rw [hr]
      simp

/-- **An open table holds the accepted routes in the order of their calls.** -/
theorem routes_registerEach (calls : List (Registration S)) {t : Table S}
    (h : t.isSealed = false) :
    (t.registerEach calls).isSealed = false ∧
      (t.registerEach calls).endpoints.map (·.route) =
        t.endpoints.map (·.route) ++ t.accepted calls := by
  induction calls generalizing t with
  | nil => exact ⟨h, by simp [registerEach, accepted]⟩
  | cons r more ih =>
    obtain ⟨added, after, rfl, hopen, haccepted, hroutes⟩ := accepted_cons h r more
    obtain ⟨h1, h2⟩ := ih hopen
    refine ⟨h1, ?_⟩
    rw [registerEach, h2, hroutes, haccepted, List.append_assoc]

/-! ### Looking up -/

/-- The first of the routes that has a property. -/
def Earliest (routes : List Route) (p : Route → Prop) (r : Route) : Prop :=
  ∃ before after, routes = before ++ r :: after ∧ p r ∧ ∀ r' ∈ before, ¬ p r'

/-- A route that takes a path under a verb, with or without parameters. -/
structure Serves (verb : Verb) (path : String) (dynamic : Bool) (r : Route) : Prop where
  verb : r.verb = verb
  matched : (r.pattern.captures path).isSome
  dynamic : r.isDynamic = dynamic

theorem earliest_nil (p : Route → Prop) (r : Route) : ¬ Earliest [] p r := by
  rintro ⟨before, after, h, -⟩
  simp at h

theorem earliest_cons_of_pos {p : Route → Prop} {x : Route} (h : p x) (routes : List Route)
    (r : Route) : Earliest (x :: routes) p r ↔ r = x := by
  constructor
  · rintro ⟨before, after, hsplit, -, hbefore⟩
    cases before with
    | nil =>
      rw [List.nil_append, List.cons.injEq] at hsplit
      exact hsplit.1.symm
    | cons y before =>
      rw [List.cons_append, List.cons.injEq] at hsplit
      obtain ⟨rfl, -⟩ := hsplit
      exact absurd h (hbefore x List.mem_cons_self)
  · rintro rfl
    exact ⟨[], routes, rfl, h, fun r' hr' => absurd hr' List.not_mem_nil⟩

theorem earliest_cons_of_neg {p : Route → Prop} {x : Route} (h : ¬ p x) (routes : List Route)
    (r : Route) : Earliest (x :: routes) p r ↔ Earliest routes p r := by
  constructor
  · rintro ⟨before, after, hsplit, hr, hbefore⟩
    cases before with
    | nil =>
      rw [List.nil_append, List.cons.injEq] at hsplit
      obtain ⟨rfl, -⟩ := hsplit
      exact absurd hr h
    | cons y before =>
      rw [List.cons_append, List.cons.injEq] at hsplit
      exact ⟨before, after, hsplit.2, hr, fun r' hr' => hbefore r' (List.mem_cons_of_mem _ hr')⟩
  · rintro ⟨before, after, rfl, hr, hbefore⟩
    refine ⟨x :: before, after, rfl, hr, ?_⟩
    intro r' hr'
    rcases List.mem_cons.mp hr' with rfl | hr'
    · exact h
    · exact hbefore r' hr'

theorem earliest_append {a b : List Route} {p : Route → Prop} {r : Route} :
    Earliest (a ++ b) p r ↔ Earliest a p r ∨ (∀ r' ∈ a, ¬ p r') ∧ Earliest b p r := by
  induction a with
  | nil => simp [earliest_nil]
  | cons x a ih =>
    rw [List.cons_append]
    by_cases hx : p x
    · rw [earliest_cons_of_pos hx, earliest_cons_of_pos hx]
      constructor
      · exact Or.inl
      · rintro (h | ⟨h, -⟩)
        · exact h
        · exact absurd hx (h x List.mem_cons_self)
    · rw [earliest_cons_of_neg hx, earliest_cons_of_neg hx, ih]
      simp [hx]

theorem earliest_filter {routes : List Route} {f : Route → Bool} {p : Route → Prop} {r : Route} :
    Earliest (routes.filter f) p r ↔ Earliest routes (fun r' => f r' = true ∧ p r') r := by
  induction routes with
  | nil => simp [earliest_nil]
  | cons x routes ih =>
    by_cases hf : f x = true
    · rw [List.filter_cons_of_pos hf]
      by_cases hx : p x
      · rw [earliest_cons_of_pos hx, earliest_cons_of_pos ⟨hf, hx⟩]
      · rw [earliest_cons_of_neg hx, earliest_cons_of_neg (fun h => hx h.2), ih]
    · rw [List.filter_cons_of_neg hf, earliest_cons_of_neg (fun h => hf h.1), ih]

theorem Earliest.mem {routes : List Route} {p : Route → Prop} {r : Route}
    (h : Earliest routes p r) : r ∈ routes := by
  obtain ⟨before, after, rfl, -⟩ := h
  simp

/-- The first match is at the first endpoint whose route matches. -/
theorem firstMatch_eq_some_iff {path : String} {endpoints : List (Endpoint S)} {r : Route}
    {params : Params} :
    (firstMatch path endpoints).map (fun m => RouteMatch.mk m.1.route m.2) = some ⟨r, params⟩ ↔
      Earliest (endpoints.map (·.route)) (fun r' => (r'.pattern.captures path).isSome) r ∧
        r.pattern.captures path = some params := by
  induction endpoints with
  | nil => simp [firstMatch, earliest_nil]
  | cons e more ih =>
    rw [firstMatch, List.map_cons]
    cases hcaptures : e.route.pattern.captures path with
    | some found =>
      rw [earliest_cons_of_pos (by simp [hcaptures])]
      simp only [Option.map_some, Option.some.injEq, RouteMatch.mk.injEq]
      constructor
      · rintro ⟨rfl, rfl⟩
        exact ⟨rfl, hcaptures⟩
      · rintro ⟨rfl, hparams⟩
        rw [hcaptures, Option.some.injEq] at hparams
        exact ⟨rfl, hparams⟩
    | none =>
      rw [earliest_cons_of_neg (by simp [hcaptures])]
      exact ih

/-- The routes that a sealed table tries for a verb. -/
theorem routesOf_normalize {t : Table S} (h : t.isSealed = false) (verb : Verb) :
    t.normalize.routesOf verb =
      (t.endpoints.map (·.route)).filter (fun r => !r.isDynamic && r.verb == verb) ++
        (t.endpoints.map (·.route)).filter (fun r => r.isDynamic && r.verb == verb) := by
  have hnormalize : t.normalize.endpoints = staticFirst t.endpoints := by
    simp [normalize, h]
  rw [routesOf, endpointsOf, hnormalize, staticFirst, List.filter_append, List.map_append,
    List.filter_filter, List.filter_filter, List.filter_map, List.filter_map]
  congr 2
  · apply List.filter_congr
    intro e _
    exact Bool.and_comm _ _
  · apply List.filter_congr
    intro e _
    exact Bool.and_comm _ _

/-- What a sealed table finds, by the routes that it held when it was open. -/
theorem findRoute?_normalize {t : Table S} (h : t.isSealed = false) (verb : Verb) (path : String)
    (r : Route) (params : Params) :
    t.normalize.findRoute? verb path = some ⟨r, params⟩ ↔
      (Earliest (t.endpoints.map (·.route)) (Serves verb path false) r ∨
        (∀ r' ∈ t.endpoints.map (·.route), ¬ Serves verb path false r') ∧
          Earliest (t.endpoints.map (·.route)) (Serves verb path true) r) ∧
        r.pattern.captures path = some params := by
  have hserves : ∀ dynamic, Serves verb path dynamic = fun r' : Route =>
      ((r'.isDynamic == dynamic) && r'.verb == verb) = true ∧
        (r'.pattern.captures path).isSome := by
    intro dynamic
    funext r'
    apply propext
    constructor
    · rintro ⟨h1, h2, h3⟩
      exact ⟨by simp [h1, h3], h2⟩
    · rintro ⟨h1, h2⟩
      simp only [Bool.and_eq_true, beq_iff_eq] at h1
      exact ⟨h1.2, h2, h1.1⟩
  have hfound : t.normalize.findRoute? verb path = some ⟨r, params⟩ ↔
      Earliest (t.normalize.routesOf verb) (fun r' => (r'.pattern.captures path).isSome) r ∧
        r.pattern.captures path = some params := firstMatch_eq_some_iff
  rw [hfound, routesOf_normalize h, earliest_append, earliest_filter, earliest_filter,
    hserves, hserves]
  simp

theorem exists_earliest {routes : List Route} {p : Route → Prop} (h : ∃ r ∈ routes, p r) :
    ∃ r, Earliest routes p r := by
  induction routes with
  | nil =>
    obtain ⟨r, hr, -⟩ := h
    exact absurd hr List.not_mem_nil
  | cons x routes ih =>
    by_cases hx : p x
    · exact ⟨x, (earliest_cons_of_pos hx routes x).mpr rfl⟩
    · obtain ⟨r, hr, hpr⟩ := h
      rcases List.mem_cons.mp hr with rfl | hr
      · exact absurd hpr hx
      · obtain ⟨r', hr'⟩ := ih ⟨r, hr, hpr⟩
        exact ⟨r', (earliest_cons_of_neg hx routes r').mpr hr'⟩

theorem Earliest.holds {routes : List Route} {p : Route → Prop} {r : Route}
    (h : Earliest routes p r) : p r := by
  obtain ⟨before, after, -, hp, -⟩ := h
  exact hp

theorem findRoute?_normalize_eq_none {t : Table S} (h : t.isSealed = false) (verb : Verb)
    (path : String) :
    t.normalize.findRoute? verb path = none ↔
      ∀ r ∈ t.endpoints.map (·.route), r.verb = verb → r.pattern.captures path = none := by
  constructor
  · intro hnone r hr hverb
    by_contra hcaptures
    have hmatched : (r.pattern.captures path).isSome := Option.isSome_iff_ne_none.mpr hcaptures
    -- Some route without parameters serves, or else `r` takes some: either way one is found.
    have hfound : ∃ r', Earliest (t.endpoints.map (·.route)) (Serves verb path false) r' ∨
        (∀ r' ∈ t.endpoints.map (·.route), ¬ Serves verb path false r') ∧
          Earliest (t.endpoints.map (·.route)) (Serves verb path true) r' := by
      by_cases hstatic : ∃ r' ∈ t.endpoints.map (·.route), Serves verb path false r'
      · obtain ⟨r', hr'⟩ := exists_earliest hstatic
        exact ⟨r', Or.inl hr'⟩
      · have hdynamic : r.isDynamic = true := by
          by_contra hnot
          exact hstatic ⟨r, hr, hverb, hmatched, by simpa using hnot⟩
        have hserves : Serves verb path true r := ⟨hverb, hmatched, hdynamic⟩
        obtain ⟨r', hr'⟩ := exists_earliest ⟨r, hr, hserves⟩
        exact ⟨r', Or.inr ⟨fun r'' hr'' hs => hstatic ⟨r'', hr'', hs⟩, hr'⟩⟩
    obtain ⟨r', hr'⟩ := hfound
    have hserves : (r'.pattern.captures path).isSome := by
      rcases hr' with hr' | ⟨-, hr'⟩
      · exact hr'.holds.matched
      · exact hr'.holds.matched
    obtain ⟨params, hparams⟩ := Option.isSome_iff_exists.mp hserves
    rw [(findRoute?_normalize h verb path r' params).mpr ⟨hr', hparams⟩] at hnone
    cases hnone
  · intro hall
    cases hfound : t.normalize.findRoute? verb path with
    | none => rfl
    | some m =>
      obtain ⟨r, params⟩ := m
      obtain ⟨hr, hparams⟩ := (findRoute?_normalize h verb path r params).mp hfound
      have hmem : r ∈ t.endpoints.map (·.route) ∧ r.verb = verb := by
        rcases hr with hr | ⟨-, hr⟩
        · exact ⟨hr.mem, hr.holds.verb⟩
        · exact ⟨hr.mem, hr.holds.verb⟩
      rw [hall r hmem.1 hmem.2] at hparams
      cases hparams

/-- **Static routes first, and the earliest of them.**  After any calls on a fresh table, a sealed
    lookup finds the earliest accepted route of the verb without parameters whose pattern matches; if
    there is none, the earliest one with parameters; and nothing only if no accepted route of the verb
    matches.  The parameters are those that the pattern of that route takes from the path. -/
theorem findRoute?_after_history (options : TableOptions) (calls : List (Registration S))
    (verb : Verb) (path : String) :
    (∀ r params,
      ((empty options).registerEach calls).normalize.findRoute? verb path = some ⟨r, params⟩ ↔
        (Earliest ((empty options).accepted calls) (Serves verb path false) r ∨
          (∀ r' ∈ (empty options).accepted calls, ¬ Serves verb path false r') ∧
            Earliest ((empty options).accepted calls) (Serves verb path true) r) ∧
          r.pattern.captures path = some params) ∧
    (((empty options).registerEach calls).normalize.findRoute? verb path = none ↔
      ∀ r ∈ (empty options).accepted calls, r.verb = verb → r.pattern.captures path = none) := by
  have hfresh : (empty options : Table S).isSealed = false := rfl
  obtain ⟨hopen, hroutes⟩ := routes_registerEach calls hfresh
  have haccepted : ((empty options).registerEach calls).endpoints.map (·.route) =
      (empty options).accepted calls := hroutes
  constructor
  · intro r params
    rw [findRoute?_normalize hopen, haccepted]
  · rw [findRoute?_normalize_eq_none hopen, haccepted]

end RequestRouter.Table
