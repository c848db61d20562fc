/-
  RequestRouter/Proofs/Table/Conclusion.lean
  ==========================================
  **How far the concluding interceptors of a dispatch get.**

  However a request is settled, the concluding interceptors that apply to it run last, in the order of
  their chain, and each is told the same failure.  The first of them that fails ends the chain: those
  after it are left out.  All of them are invoked, each once, exactly if none but the last one of the
  chain fails (`dispatch_concludes`).
-/
import RequestRouter.Proofs.Table.Trace

namespace RequestRouter

open RequestRouter.Http

variable {S : Type}

/-! ### Chains that are run to the end -/

theorem UpToFirst.map_eq_take {stops : Invocation S → Prop} {callees : List (Callee S)}
    {ran : List (Invocation S)} (h : UpToFirst stops callees ran) :
    ran.map (·.callee) = callees.take ran.length := by
  have htake := List.prefix_iff_eq_take.mp h.started
  rwa [List.length_map] at htake

theorem UpToFirst.callee_mem {stops : Invocation S → Prop} {callees : List (Callee S)}
    {ran : List (Invocation S)} (h : UpToFirst stops callees ran) {v : Invocation S}
    (hv : v ∈ ran) : v.callee ∈ callees :=
  h.started.subset (List.mem_map_of_mem hv)

/-- A chain is run to its end iff no invocation stops it that has a callback after it. -/
theorem UpToFirst.length_eq_iff {stops : Invocation S → Prop} {callees : List (Callee S)}
    {ran : List (Invocation S)} (h : UpToFirst stops callees ran) :
    ran.length = callees.length ↔
      ∀ k v, ran[k]? = some v → k + 1 < callees.length → ¬ stops v := by
  have hle : ran.length ≤ callees.length := by simpa using h.started.length_le
  constructor
  · intro hlength k v hv hk
    apply h.going v
    rw [List.mem_iff_getElem?]
    exact ⟨k, by rw [List.getElem?_dropLast, if_pos (by omega), hv]⟩
  · intro hgoing
    rcases h.complete with hall | ⟨v, hlast, hstops⟩
    · rw [← hall, List.length_map]
    · rw [List.getLast?_eq_getElem?] at hlast
      have hlt := (List.getElem?_eq_some_iff.mp hlast).1
      have hend : ¬ ran.length - 1 + 1 < callees.length := fun hlt => hgoing _ v hlast hlt hstops
      omega

/-! ### What runs before the conclusion -/

/-- The callback is a concluding interceptor. -/
def Callee.Concludes : Callee S → Prop
  | .interceptor i _ => i.kind = .conclude
  | .handler _ => False

theorem kind_of_mem_chain {t : Table S} {controller : String} {kind : InterceptorKind}
    {i : Interceptor S} (h : i ∈ t.chain controller kind) : i.kind = kind := by
  obtain ⟨a, -, ha⟩ := List.mem_filterMap.mp h
  split at ha
  · next hkind =>
    obtain rfl := Option.some.inj ha
    exact hkind
  · cases ha

theorem kind_of_mem_applicable {t : Table S} {endpoint : Endpoint S} {path : String}
    {kind : InterceptorKind} {i : Interceptor S} (h : i ∈ t.applicable endpoint path kind) :
    i.kind = kind :=
  kind_of_mem_chain ((List.mem_filter.mp h).1)

theorem not_concludes_of_mem {is : List (Interceptor S)} {kind : InterceptorKind}
    (hkind : ∀ i ∈ is, i.kind = kind) (hne : kind ≠ .conclude) {failure : Option Failure}
    {callee : Callee S} (h : callee ∈ calleesOf failure is) : ¬ callee.Concludes := by
  obtain ⟨i, hi, rfl⟩ := List.mem_map.mp h
  intro hconcludes
  exact hne ((hkind i hi).symm.trans hconcludes)

theorem not_concludes_of_phases {t : Table S} {endpoint : Endpoint S} {path : String}
    {b h a : List (Invocation S)}
    (hphases : Phases (t.applicable endpoint path .before) endpoint.handler
      (t.applicable endpoint path .after) b h a) :
    ∀ v ∈ b ++ h ++ a, ¬ v.callee.Concludes := by
  intro v hv
  rcases List.mem_append.mp hv with hv | ha
  · rcases List.mem_append.mp hv with hb | hh
    · exact not_concludes_of_mem (fun i => kind_of_mem_applicable) (by decide)
        (hphases.before.callee_mem hb)
    · by_cases hpass : ∀ v ∈ b, v.result = .ok .pass
      · have hcallee := List.mem_map_of_mem (f := (·.callee)) hh
        rw [hphases.handler_runs hpass, List.mem_singleton] at hcallee
        rw [hcallee]
        exact id
      · have hstop : ∃ v ∈ b, v.result ≠ .ok .pass := by simpa using hpass
        rw [hphases.handler_skipped hstop] at hh
        cases hh
  · by_cases hok : ∃ v ∈ h, v.failure? = none
    · exact not_concludes_of_mem (fun i => kind_of_mem_applicable) (by decide)
        ((hphases.after_runs hok).callee_mem ha)
    · rw [hphases.after_skipped fun w hw hnone => hok ⟨w, hw, hnone⟩] at ha
      cases ha

theorem not_concludes_of_recovery {t : Table S} {controller : String} {failure? : Option Failure}
    {c : List (Invocation S)} (h : Recovery (t.chain controller .recover) failure? c) :
    ∀ v ∈ c, ¬ v.callee.Concludes := by
  intro v hv
  cases failure? with
  | none =>
    rw [h.of_none rfl] at hv
    cases hv
  | some failure =>
    rcases h.of_some failure rfl with ⟨front, i, back, hchain, -, -, hmap⟩ | ⟨-, hnone⟩
    · have hcallee := List.mem_map_of_mem (f := (·.callee)) hv
      have hi : i ∈ t.chain controller .recover := by
        rw [hchain]
        exact List.mem_append_right front List.mem_cons_self
      rw [hmap, List.mem_singleton] at hcallee
      rw [hcallee]
      intro hconcludes
      exact absurd ((kind_of_mem_chain hi).symm.trans hconcludes) (by decide)
    · rw [hnone] at hv
      cases hv

/-! ### The conclusion -/

/-- **What a dispatch invokes at the end.**  In a sealed table, for a request that an endpoint serves,
    with any callbacks: the log of the dispatch is `ran ++ f`, and no concluding interceptor is in
    `ran`.  When the request is settled and the terminal reply has been written, the concluding
    interceptors that apply are invoked in the order of their chain, once each, and all are told the
    same failure: the one that was recovered from or that nobody recovered from, or none.  The chain
    is run to its end iff no interceptor of it fails that has another one after it. -/
theorem dispatch_concludes {t : Table S} (hsealed : t.isSealed = true) {x : Exchange}
    {endpoint : Endpoint S} {params : Params}
    (hfound : t.endpointFor? x.request = some (endpoint, params)) (s : S) :
    let settlement := (t.plan endpoint x.request.path).settle
      { x with matched := some ⟨endpoint.route, params⟩ } s
    let chain := t.applicable endpoint x.request.path .conclude
    ∃ ran f,
      t.logged.dispatch x (s, []) = ⟨(t.dispatch x s).result, (t.dispatch x s).exchange,
        ((t.dispatch x s).state, ran ++ f)⟩ ∧
      Threads { x with matched := some ⟨endpoint.route, params⟩ } s ran settlement.response
        settlement.state ∧
      (∀ v ∈ ran, ¬ v.callee.Concludes) ∧
      Threads ({ x with matched := some ⟨endpoint.route, params⟩ }.withResponse
          (Plan.written settlement)) settlement.state f
        (t.dispatch x s).exchange.response (t.dispatch x s).state ∧
      f.map (·.callee) = calleesOf settlement.settled.failure? (chain.take f.length) ∧
      (f.length = chain.length ↔
        ∀ k v, f[k]? = some v → k + 1 < chain.length → v.failure? = none) := by
  intro settlement chain
  obtain ⟨b, h, a, c, f, hlog, hthreads, hphases, hrecovery, -, hwritten, hconclude⟩ :=
    serve_settles (t.plan endpoint x.request.path) endpoint.route.target.qualified
      { x with matched := some ⟨endpoint.route, params⟩ } s []
  rw [dispatch_of_found hsealed hfound, dispatch_logged_of_found hsealed hfound]
  have hrun : UpToFirst (fun v => v.failure? ≠ none)
      (calleesOf settlement.settled.failure? chain) f := hconclude
  have hchain : (calleesOf settlement.settled.failure? chain).length = chain.length :=
    List.length_map _
  -- No concluding interceptor is invoked before the request is settled.
  have hran : ∀ v ∈ b ++ h ++ a ++ c, ¬ v.callee.Concludes := by
    intro v hv
    rcases List.mem_append.mp hv with hv | hv
    · exact not_concludes_of_phases hphases v hv
    · exact not_concludes_of_recovery hrecovery v hv
  refine ⟨b ++ h ++ a ++ c, f, hlog, hthreads, hran, hwritten, ?_, ?_⟩
  · rw [hrun.map_eq_take]
    exact List.map_take.symm
  · rw [← hchain, hrun.length_eq_iff]
    simp only [ne_eq, Classical.not_not]

/-! ### Two concluding interceptors -/

/-- Notes its name in the state and ends with a result. -/
def noting (name : String) (result : Except Failure Unit) : Interceptor (List String) :=
  .conclude name fun _ x names => ⟨result, x.response, names ++ [name]⟩

/-- The route `/` with a handler that does nothing. -/
def homeEndpoint : Endpoint (List String) := ⟨homeRoute, Left.done .pass⟩

/-- The route with two concluding interceptors; the first ends with a result. -/
def concludingTable (result : Except Failure Unit) : Table (List String) :=
  homeTable (Left.done .pass) [noting "first" result, noting "second" (.ok ())]

theorem applicable_concludingTable (result : Except Failure Unit) :
    (concludingTable result).applicable homeEndpoint gettingHome.request.path .conclude =
      [noting "first" result, noting "second" (.ok ())] := by
  rw [concludingTable, homeTable_eq]
  rfl

theorem endpointFor?_concludingTable (result : Except Failure Unit) :
    (concludingTable result).endpointFor? gettingHome.request =
      some (homeEndpoint, Params.empty) :=
  endpointFor?_homeTable _ _

/-- Two concluding interceptors that succeed are both invoked, each once. -/
theorem dispatch_concludes_both :
    (concludingTable (.ok ())).isSealed = true ∧
      (concludingTable (.ok ())).endpointFor? gettingHome.request =
        some (homeEndpoint, Params.empty) ∧
      ∃ ran f, ((concludingTable (.ok ())).logged.dispatch gettingHome ([], [])).state.2 =
          ran ++ f ∧
        (∀ v ∈ ran, ¬ v.callee.Concludes) ∧
        f.map (·.callee) = calleesOf none [noting "first" (.ok ()), noting "second" (.ok ())] := by
  have hfound := endpointFor?_concludingTable (.ok ())
  have hsealed : (concludingTable (.ok ())).isSealed = true := isSealed_homeTable _ _
  refine ⟨hsealed, hfound, ?_⟩
  obtain ⟨ran, f, hlog, -, hran, -, hcallees, hlength⟩ := dispatch_concludes hsealed hfound []
  rw [applicable_concludingTable] at hcallees hlength
  have hall : f.length = 2 := by
    apply hlength.mpr
    intro k v hv _
    have hcallee := List.mem_map_of_mem (f := (·.callee)) (List.mem_of_getElem? hv)
    rw [hcallees] at hcallee
    obtain ⟨i, hi, hcall⟩ := List.mem_map.mp hcallee
    have hmem := List.mem_of_mem_take hi
    have hsucceeds : i = noting "first" (.ok ()) ∨ i = noting "second" (.ok ()) := by
      simpa using hmem
    rw [Invocation.failure?, Invocation.result, Invocation.left, ← hcall]
    rcases hsucceeds with rfl | rfl <;> rfl
  refine ⟨ran, f, by rw [hlog], hran, ?_⟩
  rw [hcallees, hall]
  rfl

/-- A concluding interceptor that fails keeps the one after it from running. -/
theorem dispatch_concludes_first_only :
    ((concludingTable (.error (.ofText "lost"))).applicable homeEndpoint "/" .conclude).map
        (·.name) = ["first", "second"] ∧
      ((concludingTable (.error (.ofText "lost"))).dispatch gettingHome []).state = ["first"] := by
  have happlicable := applicable_concludingTable (.error (.ofText "lost"))
  refine ⟨congrArg (List.map (·.name)) happlicable, ?_⟩
  rw [concludingTable, dispatch_of_found (isSealed_homeTable _ _) (endpointFor?_homeTable _ _),
    homeTable_eq]
  rfl

end RequestRouter
