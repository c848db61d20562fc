/-
  RequestRouter/Proofs/Table/Precedence.lean
  ==========================================
  **Which failure a dispatch ends with.**

  Up to three failures can occur in one dispatch: one of the phases, one of the interceptor that was to
  recover from it, and one of a concluding interceptor.  The second stands in for the first, and the
  third counts only if neither is left (`result_serve`).  The concluding interceptors are told a failure
  even when it was recovered from.  All other answers come without a callback: an open table is an
  error, and a request that no route serves is none.
-/
import RequestRouter.Proofs.Table.Trace

namespace RequestRouter

open RequestRouter.Http

variable {S : Type}

/-! ### Requests that no route serves -/

theorem Table.firstMatch_eq_none_iff {path : String} {endpoints : List (Endpoint S)} :
    firstMatch path endpoints = none ↔
      ∀ e ∈ endpoints, e.route.pattern.captures path = none := by
  induction endpoints with
  | nil => simp [firstMatch]
  | cons e more ih =>
    rw [firstMatch]
    cases hcaptures : e.route.pattern.captures path with
    | some params => simp [hcaptures]
    | none => simp [hcaptures, ih]

/-- No endpoint serves a request iff its method is no verb or no route of the verb matches. -/
theorem Table.endpointFor?_eq_none_iff {t : Table S} {request : Request} :
    t.endpointFor? request = none ↔ ∀ verb, Verb.ofText? request.method = some verb →
      ∀ r ∈ t.routesOf verb, r.pattern.captures request.path = none := by
  unfold endpointFor? Request.verb
  cases hverb : Verb.ofText? request.method with
  | none => simp
  | some verb =>
    simp only [find?, firstMatch_eq_none_iff, routesOf, Option.some.injEq, forall_eq',
      List.forall_mem_map]

/-! ### Failures that are left -/

/-- The failure that nobody recovered from: that of the phases if no interceptor was invoked to
    recover from it, or else that of this interceptor. -/
def propagating (ran c : List (Invocation S)) : Option Failure :=
  if c = [] then failureOf ran else failureOf c

/-- The failure that concluding interceptors are told: that of the interceptor that was to recover, or
    else that of the phases. -/
def toldOf (ran c : List (Invocation S)) : Option Failure := (failureOf c).or (failureOf ran)

/-- At most one interceptor recovers, and only from a failure. -/
theorem Recovery.cases {chain : List (Interceptor S)} {failure? : Option Failure}
    {c : List (Invocation S)} (h : Recovery chain failure? c) :
    c = [] ∨ ∃ failure v, failure? = some failure ∧ c = [v] := by
  cases failure? with
  | none => exact Or.inl (h.of_none rfl)
  | some failure =>
    rcases h.of_some failure rfl with ⟨front, i, back, -, -, -, hc⟩ | ⟨-, hc⟩
    · obtain ⟨v, hv, -⟩ := List.map_eq_singleton_iff.mp hc
      exact Or.inr ⟨failure, v, rfl, hv⟩
    · exact Or.inl hc

section Settled

variable {chain : List (Interceptor S)} {b h a c f : List (Invocation S)}

theorem failure?_settledOf (hrecovery : Recovery chain (failureOf (b ++ h ++ a)) c) :
    (settledOf b h a c).failure? = toldOf (b ++ h ++ a) c := by
  unfold settledOf toldOf
  rcases hrecovery.cases with rfl | ⟨failure, v, hfailure, rfl⟩
  · cases failureOf (b ++ h ++ a) with
    | none => rfl
    | some failure => rfl
  · rw [hfailure]
    cases hv : v.result with
    | ok outcome =>
      rw [failureOf_cons_of_ok hv]
      simp only [hv]
      rfl
    | error e =>
      rw [failureOf_cons_of_error hv]
      simp only [hv]
      rfl

theorem unhandled?_settledOf (hrecovery : Recovery chain (failureOf (b ++ h ++ a)) c)
    (concluded : Except Failure Unit) :
    (settledOf b h a c).unhandled? concluded =
      (propagating (b ++ h ++ a) c).or
        (match concluded with
          | .error failure => some failure
          | .ok () => none) := by
  unfold settledOf propagating
  rcases hrecovery.cases with rfl | ⟨failure, v, hfailure, rfl⟩
  · cases failureOf (b ++ h ++ a) with
    | none => cases concluded <;> rfl
    | some failure => rfl
  · rw [hfailure]
    cases hv : v.result with
    | ok outcome =>
      rw [failureOf_cons_of_ok hv]
      simp only [hv]
      cases concluded <;> rfl
    | error e =>
      rw [failureOf_cons_of_error hv]
      simp only [hv]
      rfl

end Settled

/-! ### Dispatches -/

/-- The answer of a dispatch that a route served, by the failure that is left. -/
def ending (action : String) (failure? : Option Failure) : Except DispatchError Bool :=
  match failure? with
  | some failure => .error (.unhandled action failure)
  | none => .ok true

theorem ending_eq_true_iff {action : String} {failure? : Option Failure} :
    ending action failure? = .ok true ↔ failure? = none := by
  cases failure? <;> simp [ending]

theorem ending_eq_error_iff {action : String} {failure? : Option Failure} {e : DispatchError} :
    ending action failure? = .error e ↔
      ∃ failure, e = .unhandled action failure ∧ failure? = some failure := by
  cases failure? <;> simp [ending, eq_comm]

theorem ending_ne_false (action : String) (failure? : Option Failure) :
    ending action failure? ≠ .ok false := by
  cases failure? <;> simp [ending]

theorem ending_ne_notNormalized (action : String) (failure? : Option Failure) :
    ending action failure? ≠ .error .notNormalized := by
  cases failure? <;> simp [ending]

/-- What serving a request ends with: the failure that nobody recovered from, or else that of the
    concluding interceptors `f`, or else none. -/
theorem result_serve (plan : Plan S) (action : String) (x : Exchange) (s : S)
    (log : List (Invocation S)) :
    ∃ b h a c f,
      plan.logged.serve action x (s, log) =
        ⟨(plan.serve action x s).result, (plan.serve action x s).exchange,
          ((plan.serve action x s).state, log ++ (b ++ h ++ a ++ c ++ f))⟩ ∧
      Phases plan.before plan.handler plan.after b h a ∧
      Recovery plan.recover (failureOf (b ++ h ++ a)) c ∧
      UpToFirst (fun v => v.failure? ≠ none)
        (calleesOf (toldOf (b ++ h ++ a) c) plan.conclude) f ∧
      (plan.serve action x s).result =
        ending action ((propagating (b ++ h ++ a) c).or (failureOf f)) := by
  obtain ⟨b, h, a, c, f, hlog, -, hphases, hrecovery, hsettled, -, hconclude, hresult⟩ :=
    serve_ends plan action x s log
  rw [hsettled, failure?_settledOf hrecovery] at hconclude
  rw [hsettled, unhandled?_settledOf hrecovery] at hresult
  refine ⟨b, h, a, c, f, hlog, hphases, hrecovery, hconclude, hresult.trans ?_⟩
  cases failureOf f with
  | none => rfl
  | some failure => rfl

/-- **Which failure a dispatch ends with.**  For any table, exchange and callbacks.  The answer is an
    error of an open table iff the table is open.  It is that no route served the request iff the table
    is sealed and the method is no verb or no route of the verb matches.  In both cases no callback is
    invoked and nothing changes.  Otherwise the log of the dispatch is `b ++ h ++ a ++ c ++ f`, with
    the phases, the recovery and the conclusion.  The request was served without an error iff no
    failure propagates, because the phases succeeded or their failure was recovered from, and no
    concluding interceptor failed.  The error names the action and the failure that propagates, or, if
    none does, the first one of a concluding interceptor. -/
theorem dispatch_precedence (t : Table S) (x : Exchange) (s : S) :
    ((t.dispatch x s).result = .error .notNormalized ↔ t.isSealed = false) ∧
    ((t.dispatch x s).result = .ok false ↔ t.isSealed = true ∧
      ∀ verb, Verb.ofText? x.request.method = some verb →
        ∀ r ∈ t.routesOf verb, r.pattern.captures x.request.path = none) ∧
    ((t.dispatch x s).result = .error .notNormalized ∨ (t.dispatch x s).result = .ok false →
      t.logged.dispatch x (s, []) = ⟨(t.dispatch x s).result, x, (s, [])⟩ ∧
        (t.dispatch x s).exchange = x ∧ (t.dispatch x s).state = s) ∧
    ∀ endpoint params, t.isSealed = true → t.endpointFor? x.request = some (endpoint, params) →
      ∃ b h a c f,
        t.logged.dispatch x (s, []) = ⟨(t.dispatch x s).result, (t.dispatch x s).exchange,
          ((t.dispatch x s).state, b ++ h ++ a ++ c ++ f)⟩ ∧
        Phases (t.applicable endpoint x.request.path .before) endpoint.handler
          (t.applicable endpoint x.request.path .after) b h a ∧
        Recovery (t.chain endpoint.route.target.controller .recover) (failureOf (b ++ h ++ a)) c ∧
        UpToFirst (fun v => v.failure? ≠ none)
          (calleesOf (toldOf (b ++ h ++ a) c) (t.applicable endpoint x.request.path .conclude)) f ∧
        ((t.dispatch x s).result = .ok true ↔
          propagating (b ++ h ++ a) c = none ∧ failureOf f = none) ∧
        ∀ e, (t.dispatch x s).result = .error e ↔
          ∃ failure, e = .unhandled endpoint.route.target.qualified failure ∧
            (propagating (b ++ h ++ a) c = some failure ∨
              propagating (b ++ h ++ a) c = none ∧ failureOf f = some failure) := by
  cases hsealed : t.isSealed with
  | false =>
    have hsealed' : t.logged.isSealed = false := hsealed
    rw [Table.dispatch_of_open hsealed, Table.dispatch_of_open hsealed']
    simp
  | true =>
    have hsealed' : t.logged.isSealed = true := hsealed
    rw [← Table.endpointFor?_eq_none_iff]
    cases hfound : t.endpointFor? x.request with
    | none =>
      have hfound' : t.logged.endpointFor? x.request = none := by
        rw [endpointFor?_logged, hfound]
        rfl
      rw [Table.dispatch_of_endpointFor_none hsealed hfound,
        Table.dispatch_of_endpointFor_none hsealed' hfound']
      simp
    | some m =>
      obtain ⟨endpoint, params⟩ := m
      obtain ⟨b, h, a, c, f, hlog, hphases, hrecovery, hconclude, hresult⟩ :=
        result_serve (t.plan endpoint x.request.path) endpoint.route.target.qualified
          { x with matched := some ⟨endpoint.route, params⟩ } s []
      rw [dispatch_of_found hsealed hfound, dispatch_logged_of_found hsealed hfound]
      have hnotNormalized := hresult ▸ ending_ne_notNormalized _ _
      have hserved := hresult ▸ ending_ne_false _ _
      refine ⟨by simp [hnotNormalized], by simp [hserved], ?_, ?_⟩
      · rintro (hopen | hnone)
        · exact absurd hopen hnotNormalized
        · exact absurd hnone hserved
      · intro endpoint' params' _ hsame
        obtain ⟨rfl, rfl⟩ := Prod.mk.inj (Option.some.inj hsame)
        refine ⟨b, h, a, c, f, hlog, hphases, hrecovery, hconclude, ?_, ?_⟩
        · rw [hresult, ending_eq_true_iff, Option.or_eq_none_iff]
        · intro e
          rw [hresult, ending_eq_error_iff]
          simp only [Option.or_eq_some_iff]

/-! ### Three failures at once -/

/-- A callback that fails with a message. -/
def failing {α : Type} (message : String) : Callback Unit α :=
  fun x s => ⟨.error (.ofText message), x.response, s⟩

/-- The route `/` with a handler that fails. -/
def lostEndpoint : Endpoint Unit := ⟨homeRoute, failing "lost"⟩

/-- The handler fails, so does the interceptor that recovers, and so does the concluding one. -/
def failingTable : Table Unit :=
  homeTable (failing "lost") [.recover "rescue" fun _ => failing "unrescued",
    .conclude "finish" fun _ => failing "unfinished"]

theorem applicable_failingTable (path : String) :
    failingTable.applicable lostEndpoint path .conclude =
      [.conclude "finish" fun _ => failing "unfinished"] := by
  rw [failingTable, homeTable_eq]
  rfl

/-- The failure of the interceptor that was to recover is the one that the dispatch ends with. -/
theorem dispatch_precedence_unrescued :
    failingTable.isSealed = true ∧
      failingTable.endpointFor? gettingHome.request = some (lostEndpoint, Params.empty) ∧
      (failingTable.dispatch gettingHome ()).result =
        .error (.unhandled "Home.show" (.ofText "unrescued")) ∧
      ∃ b h a c f,
        (failingTable.logged.dispatch gettingHome ((), [])).state.2 = b ++ h ++ a ++ c ++ f ∧
        propagating (b ++ h ++ a) c = some (.ofText "unrescued") := by
  have hsealed : failingTable.isSealed = true := isSealed_homeTable _ _
  have hfound : failingTable.endpointFor? gettingHome.request = some (lostEndpoint, Params.empty) :=
    endpointFor?_homeTable _ _
  have hresult : (failingTable.dispatch gettingHome ()).result =
      .error (.unhandled "Home.show" (.ofText "unrescued")) := by
    rw [dispatch_of_found hsealed hfound, failingTable, homeTable_eq]
    rfl
  refine ⟨hsealed, hfound, hresult, ?_⟩
  obtain ⟨-, -, -, hserved⟩ := dispatch_precedence failingTable gettingHome ()
  obtain ⟨b, h, a, c, f, hlog, -, -, hconclude, -, herror⟩ :=
    hserved lostEndpoint Params.empty hsealed hfound
  refine ⟨b, h, a, c, f, by rw [hlog], ?_⟩
  obtain ⟨failure, hsame, hleft⟩ := (herror _).mp hresult
  obtain rfl := (DispatchError.unhandled.inj hsame).2
  rcases hleft with hpropagates | ⟨-, hconcluded⟩
  · exact hpropagates
  · -- The concluding interceptor fails with another message.
    rw [applicable_failingTable] at hconclude
    obtain ⟨v, hv, hfailure⟩ := List.exists_of_findSome?_eq_some hconcluded
    have hcallee := hconclude.started.subset (List.mem_map_of_mem (f := (·.callee)) hv)
    obtain ⟨i, hi, hcall⟩ := List.mem_map.mp hcallee
    obtain rfl := List.mem_singleton.mp hi
    rw [Invocation.failure?, Invocation.result, Invocation.left, ← hcall] at hfailure
    have hmessage : Failure.ofText "unfinished" = .ofText "unrescued" := Option.some.inj hfailure
    exact absurd hmessage (by decide)

end RequestRouter
