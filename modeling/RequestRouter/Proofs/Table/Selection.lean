/-
  RequestRouter/Proofs/Table/Selection.lean
  =========================================
  **Requests that differ in repeated slashes only.**

  A pattern reads a path with its repeated slashes made one, so such requests are served by the same
  endpoint with the same parameters.  Scopes read the path as it stands in the request.  The two
  dispatches therefore run the same callbacks when the path rules of the interceptors decide both
  paths alike, and may run different ones when some rule does not: an interceptor for `/admin/*` is
  left out for `//admin/x`.
-/
import RequestRouter.Proofs.Glob
import RequestRouter.Proofs.Table.Trace

namespace RequestRouter

open RequestRouter.Http

variable {S : Type}

/-! ### Routes -/

/-- A pattern does not see repeated slashes. -/
theorem Pattern.captures_congr (p : Pattern) {path path' : String}
    (h : Path.collapse path = Path.collapse path') : p.captures path = p.captures path' := by
  have hchars : Path.collapseChars path.toList = Path.collapseChars path'.toList :=
    String.ofList_injective h
  unfold Pattern.captures
  rw [hchars]

theorem Table.firstMatch_congr {path path' : String}
    (h : Path.collapse path = Path.collapse path') (endpoints : List (Endpoint S)) :
    firstMatch path endpoints = firstMatch path' endpoints := by
  induction endpoints with
  | nil => rfl
  | cons e more ih => rw [firstMatch, firstMatch, e.route.pattern.captures_congr h, ih]

theorem Table.endpointFor?_congr (t : Table S) {r r' : Request} (hmethod : r.method = r'.method)
    (hpath : Path.collapse r.path = Path.collapse r'.path) :
    t.endpointFor? r = t.endpointFor? r' := by
  have hverb : r.verb = r'.verb := by
    unfold Request.verb
    rw [hmethod]
  unfold endpointFor?
  rw [hverb]
  cases r'.verb with
  | error e => rfl
  | ok verb => exact firstMatch_congr hpath _

/-! ### Scopes -/

/-- The path rules of a scope do not tell two paths apart. -/
def Scope.DecidesAlike (scope : Scope) (path path' : String) : Prop :=
  ∀ glob, ScopeRule.path glob ∈ scope.excepted ∨ ScopeRule.path glob ∈ scope.named →
    glob.matchesText path = glob.matchesText path'

/-- Rules of actions do not read the path at all. -/
theorem ScopeRule.any_admits_congr {rules : List ScopeRule} {path path' : String}
    (h : ∀ glob, ScopeRule.path glob ∈ rules → glob.matchesText path = glob.matchesText path')
    (target : Target) :
    rules.any (·.admits target path) = rules.any (·.admits target path') := by
  induction rules with
  | nil => rfl
  | cons rule rules ih =>
    have hrule : rule.admits target path = rule.admits target path' := by
      cases rule with
      | action glob => rfl
      | qualified glob => rfl
      | path glob => exact h glob List.mem_cons_self
    rw [List.any_cons, List.any_cons, hrule, ih fun glob hg => h glob (List.mem_cons_of_mem _ hg)]

theorem Scope.DecidesAlike.admits {scope : Scope} {path path' : String}
    (h : scope.DecidesAlike path path') (target : Target) :
    scope.admits target path = scope.admits target path' := by
  unfold Scope.admits
  rw [ScopeRule.any_admits_congr (fun glob hg => h glob (.inl hg)) target,
    ScopeRule.any_admits_congr (fun glob hg => h glob (.inr hg)) target]

/-! ### Dispatches -/

theorem Table.applicable_congr {t : Table S} {endpoint : Endpoint S} {path path' : String}
    {kind : InterceptorKind}
    (h : ∀ i ∈ t.chain endpoint.route.target.controller kind, i.scope.DecidesAlike path path') :
    t.applicable endpoint path kind = t.applicable endpoint path' kind := by
  apply List.filter_congr
  intro i hi
  exact (h i hi).admits endpoint.route.target

/-- **Repeated slashes.**  Two requests of one method whose paths are the same but for repeated
    slashes are served by the same endpoint with the same parameters.  Both dispatches run one and the
    same plan, if the path rules of the interceptors that scopes bind decide both paths alike. -/
theorem dispatch_slashes {t : Table S} (hsealed : t.isSealed = true) {x x' : Exchange}
    (hmethod : x.request.method = x'.request.method)
    (hpath : Path.collapse x.request.path = Path.collapse x'.request.path) (s s' : S) :
    t.endpointFor? x.request = t.endpointFor? x'.request ∧
      ∀ endpoint params, t.endpointFor? x.request = some (endpoint, params) →
        (∀ kind ≠ .recover, ∀ i ∈ t.chain endpoint.route.target.controller kind,
          i.scope.DecidesAlike x.request.path x'.request.path) →
        t.plan endpoint x'.request.path = t.plan endpoint x.request.path ∧
          t.dispatch x s = (t.plan endpoint x.request.path).serve endpoint.route.target.qualified
            { x with matched := some ⟨endpoint.route, params⟩ } s ∧
          t.dispatch x' s' = (t.plan endpoint x.request.path).serve endpoint.route.target.qualified
            { x' with matched := some ⟨endpoint.route, params⟩ } s' := by
  have hsame := t.endpointFor?_congr hmethod hpath
  refine ⟨hsame, ?_⟩
  intro endpoint params hfound halike
  have hplan : t.plan endpoint x'.request.path = t.plan endpoint x.request.path := by
    rw [plan_eq, plan_eq, Table.applicable_congr (halike .before (by decide)),
      Table.applicable_congr (halike .after (by decide)),
      Table.applicable_congr (halike .conclude (by decide))]
  refine ⟨hplan, dispatch_of_found hsealed hfound s, ?_⟩
  rw [← hplan]
  exact dispatch_of_found hsealed (hsame ▸ hfound) s'

/-! ### A guarded route -/

/-- What `/admin/x` compiles to. -/
def guardedRoute : Route where
  verb := .get
  pattern := ⟨"/admin/x", "^(?:/admin/x/?)$", .seqs [.look .textStart,
    .seq (.seqs ("/admin/x".toList.map fun c => .one (.folded (.single c.toNat))))
      (.rounds (.one (.folded (.single 47))) 0 (some 1) true),
    .look .textEnd], []⟩
  target := ⟨"Admin", "show"⟩

theorem compile_guarded :
    Route.compile {} .get "/admin/x" ⟨"Admin", "show"⟩ = .ok guardedRoute := by
  decide +kernel

/-- The route with a handler that notes in the state that it ran. -/
def guardedEndpoint : Endpoint Bool := ⟨guardedRoute, fun x _ => ⟨.ok .pass, x.response, true⟩⟩

/-- Forbids what the rules name. -/
def guard (rules : List String) : Interceptor Bool :=
  (Interceptor.before "auth" (Left.done (.reply (.forbidden "")))).onlyFor rules

/-- The route with a guard before it. -/
def guardedTable (rules : List String) : Table Bool :=
  (Table.empty ⟨{}, false⟩).run (Table.singleCalls
    ⟨.get, "/admin/x", ⟨"Admin", "show"⟩, guardedEndpoint.handler⟩ [guard rules])

theorem guardedTable_eq (rules : List String) :
    guardedTable rules = ⟨⟨{}, false⟩, [guardedEndpoint], [⟨"Admin", guard rules⟩], true⟩ :=
  Table.run_singleCalls compile_guarded [guard rules]

theorem isSealed_guardedTable (rules : List String) : (guardedTable rules).isSealed = true := by
  rw [guardedTable_eq]

def getting (path : String) : Exchange := Exchange.ofRequest ⟨"GET", path, [], [], []⟩

theorem endpointFor?_guardedTable {path : String} (rules : List String)
    (h : Path.collapse path = "/admin/x") :
    (guardedTable rules).endpointFor? (getting path).request =
      some (guardedEndpoint, Params.empty) := by
  have hcaptures : guardedEndpoint.route.pattern.captures "/admin/x" = some Params.empty := by
    decide +kernel
  have hcollapse : Path.collapse path = Path.collapse "/admin/x" := by rw [h]; decide
  rw [← Pattern.captures_congr _ hcollapse] at hcaptures
  have hverb : Verb.ofText? "GET" = some .get := by decide
  exact endpointFor?_of_captures (by rw [guardedTable_eq]) (verb_of_ofText? hverb) hcaptures

theorem chain_guardedTable (rules : List String) (kind : InterceptorKind) :
    (guardedTable rules).chain "Admin" kind = if kind = .before then [guard rules] else [] := by
  rw [guardedTable_eq]
  cases kind <;> rfl

/-- The handler runs unless the guard applies. -/
theorem state_dispatch_guardedTable {path : String} (rules : List String)
    (h : Path.collapse path = "/admin/x") :
    ((guardedTable rules).dispatch (getting path) false).state =
      !(guard rules).appliesTo guardedEndpoint.route.target path := by
  rw [dispatch_of_found (isSealed_guardedTable rules) (endpointFor?_guardedTable rules h),
    guardedTable_eq, plan_eq]
  have hbefore : Table.applicable ⟨⟨{}, false⟩, [guardedEndpoint], [⟨"Admin", guard rules⟩], true⟩
      guardedEndpoint path .before =
        if (guard rules).appliesTo guardedEndpoint.route.target path then [guard rules] else [] := by
    change [guard rules].filter (·.appliesTo guardedEndpoint.route.target path) = _
    simp only [List.filter_cons, List.filter_nil]
  change (Plan.serve ⟨Table.applicable _ guardedEndpoint path .before, _, [], [], []⟩
    _ _ _).state = _
  rw [hbefore]
  cases (guard rules).appliesTo guardedEndpoint.route.target path <;> rfl

/-- A guard that is named for the action runs however the slashes are written. -/
theorem dispatch_slashes_action :
    (guardedTable ["show"]).isSealed = true ∧
      Path.collapse "/admin/x" = Path.collapse "//admin/x" ∧
      (guardedTable ["show"]).plan guardedEndpoint "//admin/x" =
        (guardedTable ["show"]).plan guardedEndpoint "/admin/x" := by
  have hpath : Path.collapse "/admin/x" = Path.collapse "//admin/x" := by decide
  have hscope : (guard ["show"]).scope = ⟨[.action (.ignoringCase "show")], []⟩ := by decide
  have hsealed := isSealed_guardedTable ["show"]
  refine ⟨hsealed, hpath, ?_⟩
  have hfound := @endpointFor?_guardedTable "/admin/x" ["show"] (by decide)
  refine ((@dispatch_slashes _ (guardedTable ["show"]) hsealed (getting "/admin/x")
    (getting "//admin/x") rfl hpath false false).2 _ _ hfound ?_).1
  intro kind _ i hi glob hglob
  change i ∈ (guardedTable ["show"]).chain "Admin" kind at hi
  rw [chain_guardedTable] at hi
  split at hi
  · rw [List.mem_singleton.mp hi, hscope] at hglob
    simp at hglob
  · cases hi

/-- A guard that is named for paths is passed by where a slash is repeated. -/
theorem dispatch_slashes_passed_by :
    Path.collapse "//admin/x" = Path.collapse "/admin/x" ∧
      (guardedTable ["/admin/*"]).endpointFor? (getting "//admin/x").request =
        (guardedTable ["/admin/*"]).endpointFor? (getting "/admin/x").request ∧
      (guard ["/admin/*"]).appliesTo guardedEndpoint.route.target "/admin/x" = true ∧
      (guard ["/admin/*"]).appliesTo guardedEndpoint.route.target "//admin/x" = false ∧
      ((guardedTable ["/admin/*"]).dispatch (getting "/admin/x") false).state = false ∧
      ((guardedTable ["/admin/*"]).dispatch (getting "//admin/x") false).state = true := by
  have hpath : Path.collapse "//admin/x" = "/admin/x" := by decide
  have hpath' : Path.collapse "/admin/x" = "/admin/x" := by decide
  have hscope : (guard ["/admin/*"]).scope = ⟨[.path (.ignoringCase "/admin/*")], []⟩ := by decide
  have happlies : ∀ path, (guard ["/admin/*"]).appliesTo guardedEndpoint.route.target path =
      (Glob.ignoringCase "/admin/*").matchesText path := by
    intro path
    rw [Interceptor.appliesTo, hscope]
    simp [Scope.admits, ScopeRule.admits]
  have hbelow : ∀ path, (Glob.ignoringCase "/admin/*").matchesText path = true ↔
      ∃ rest, Glob.folded false path = Glob.folded false "/admin/" ++ rest ∧
        (rest.head? = some '*' → rest = ['*']) :=
    fun path => @Glob.matchesText_below "/admin/" path false (by decide)
  have hstem : Glob.folded false "/admin/" = "/admin/".toList := by decide
  have hmatches : (Glob.ignoringCase "/admin/*").matchesText "/admin/x" = true := by
    have htext : Glob.folded false "/admin/x" = "/admin/x".toList := by decide
    rw [hbelow, htext, hstem]
    exact ⟨['x'], rfl, by simp⟩
  have hmisses : (Glob.ignoringCase "/admin/*").matchesText "//admin/x" = false := by
    have htext : Glob.folded false "//admin/x" = "//admin/x".toList := by decide
    rw [Bool.eq_false_iff, ne_eq, hbelow, htext, hstem]
    simp
  rw [endpointFor?_guardedTable _ hpath, endpointFor?_guardedTable _ hpath',
    state_dispatch_guardedTable _ hpath, state_dispatch_guardedTable _ hpath', happlies, happlies,
    hmatches, hmisses]
  exact ⟨hpath.trans hpath'.symm, rfl, rfl, rfl, rfl, rfl⟩

end RequestRouter
