/-
  RequestRouter/Proofs/Application/Failures.lean
  ==============================================
  **What a failed request is answered with.**

  Callbacks write to the response in every phase, and a reply may have been written before a concluding
  interceptor fails.  None of this reaches the client of a request whose dispatch fails: the answer is
  made from an empty response by the hook for errors (`response_of_failed`).  So applications that fail
  with the same error give the same answer, whatever their callbacks are, and callbacks that differ in
  what they write cannot be told apart by a request that fails (`Alike.dispatch`).
-/
import RequestRouter.Application.Basic
import RequestRouter.Proofs.Table.Endings

namespace RequestRouter.Application

open RequestRouter.Http

variable {S : Type}

/-! ### Answers to failed requests -/

theorem lastResort_eq : lastResort = ⟨500, [⟨"content-type", "text/plain; charset=utf-8"⟩],
    Text.encode "Internal Server Error".toList⟩ := by
  decide +kernel

/-- The hook for errors answers a failed request, starting from an empty response. -/
theorem response_of_failed {app : Application S} {request : Request} {s : S} {e : DispatchError}
    (h : (app.dispatch request s).1.result = .error e) :
    (app.handle request s).1 = finish Response.empty
      ((app.dispatch request s).2.hooks.onError request e (app.dispatch request s).1.state).1 := by
  simp only [handle, respond, h]

theorem state_of_failed {app : Application S} {request : Request} {s : S} {e : DispatchError}
    (h : (app.dispatch request s).1.result = .error e) :
    (app.handle request s).2.1 =
      ((app.dispatch request s).2.hooks.onError request e (app.dispatch request s).1.state).2 := by
  simp only [handle, respond, h]

/-- A dispatch changes the table of the application at most. -/
theorem hooks_dispatch (app : Application S) (request : Request) (s : S) :
    (app.dispatch request s).2.hooks = app.hooks := by
  unfold dispatch table
  cases app.loaded with
  | some loaded => rfl
  | none => cases app.build app.routing <;> rfl

/-- A request is recorded as failed if its dispatch fails, unless its path is that of an asset. -/
theorem outcome_eq_failed_iff {app : Application S} {request : Request} {s : S} :
    app.outcome request s = .failed ↔ app.isStaticAsset request.path = false ∧
      ∃ e, (app.dispatch request s).1.result = .error e := by
  unfold outcome
  cases app.isStaticAsset request.path with
  | true => simp
  | false =>
    rcases (app.dispatch request s).1.result with e | ⟨_ | _⟩ <;> simp [RequestOutcome.ofResult]

/-! ### Callbacks that differ in what they write -/

/-- The applications are the same but for callbacks that end alike. -/
structure Alike (app app' : Application S) : Prop where
  controllers : List.Forall₂ Controller.Alike app.controllers app'.controllers
  hooks : app.hooks = app'.hooks
  routing : app.routing = app'.routing
  loaded : Option.Rel (fun l l' => l.table.Alike l'.table) app.loaded app'.loaded

/-- Applications of controllers that end alike, with no table yet. -/
theorem Alike.ofControllers {cs cs' : List (Controller S)}
    (h : List.Forall₂ Controller.Alike cs cs') (routing : RoutingConfig) (hooks : Hooks S) :
    (Application.ofControllers routing cs hooks).Alike
      (Application.ofControllers routing cs' hooks) := ⟨h, rfl, rfl, .none⟩

/-- **Applications of callbacks that end alike dispatch alike**: every request with the same result and
    to the same state. -/
theorem Alike.dispatch {app app' : Application S} (h : app.Alike app') (request : Request) (s : S) :
    (app.dispatch request s).1.result = (app'.dispatch request s).1.result ∧
      (app.dispatch request s).1.state = (app'.dispatch request s).1.state := by
  obtain ⟨hcontrollers, -, hrouting, hloaded⟩ := h
  let x := Exchange.ofRequest request
  unfold Application.dispatch Application.table
  rw [← hrouting]
  rcases hl : app.loaded with _ | loaded <;> rcases hl' : app'.loaded with _ | loaded' <;>
    rw [hl, hl'] at hloaded
  · have hbuilt := ofControllers_alike hcontrollers app.routing.tableOptions
    unfold build
    cases ht : Table.ofControllers app.routing.tableOptions app.controllers with
    | error e =>
      cases hu : Table.ofControllers app.routing.tableOptions app'.controllers with
      | error e' =>
        rw [ht, hu] at hbuilt
        obtain rfl : e = e' := hbuilt
        exact ⟨rfl, rfl⟩
      | ok u => rw [ht, hu] at hbuilt; cases hbuilt
    | ok t =>
      cases hu : Table.ofControllers app.routing.tableOptions app'.controllers with
      | error e' => rw [ht, hu] at hbuilt; cases hbuilt
      | ok u =>
        rw [ht, hu] at hbuilt
        have htables : t.Alike u := hbuilt
        exact htables.dispatch (x := x) (y := x) rfl s
  · cases hloaded
  · cases hloaded
  · cases hloaded with
    | some hloaded => exact hloaded.dispatch (x := x) (y := x) rfl s

/-- Applications that dispatch alike and have the same assets have the same recorded for a request. -/
theorem Alike.outcome {app app' : Application S} (h : app.Alike app')
    (hassets : app.assets = app'.assets) (request : Request) (s : S) :
    app.outcome request s = app'.outcome request s := by
  unfold Application.outcome isStaticAsset
  rw [hassets, (h.dispatch request s).1]

/-! ### Nothing leaks -/

/-- **A failed request is answered from an empty response.**  For any application, request and state in
    which the dispatch ends with an error `e`, whatever callbacks have written: the answer is the reply
    of the hook for errors written to an empty response, or a plain page with status 500 if the hook
    fails.  Another application, of other callbacks and even another state, that fails with the same
    error and whose hook replies the same gives the same answer.  In particular an application whose
    callbacks end alike fails with this error, gives this answer and is left in the same state. -/
theorem handle_failed {app : Application S} {request : Request} {s : S} {e : DispatchError}
    (h : (app.dispatch request s).1.result = .error e) :
    (∀ reply, (app.hooks.onError request e (app.dispatch request s).1.state).1 = .ok reply →
      (app.handle request s).1 = reply.apply Response.empty) ∧
    (∀ failure, (app.hooks.onError request e (app.dispatch request s).1.state).1 = .error failure →
      (app.handle request s).1 = ⟨500, [⟨"content-type", "text/plain; charset=utf-8"⟩],
        Text.encode "Internal Server Error".toList⟩) ∧
    (∀ {S' : Type} (app' : Application S') (s' : S'),
      (app'.dispatch request s').1.result = .error e →
      (app'.hooks.onError request e (app'.dispatch request s').1.state).1 =
        (app.hooks.onError request e (app.dispatch request s).1.state).1 →
      (app'.handle request s').1 = (app.handle request s).1) ∧
    (∀ app', app.Alike app' → (app'.dispatch request s).1.result = .error e ∧
      (app'.handle request s).1 = (app.handle request s).1 ∧
      (app'.handle request s).2.1 = (app.handle request s).2.1) := by
  have hresponse := response_of_failed h
  rw [hooks_dispatch] at hresponse
  refine ⟨?_, ?_, ?_, ?_⟩
  · intro reply hreply
    rw [hresponse, hreply, finish]
  · intro failure hfailure
    rw [hresponse, hfailure, finish, lastResort_eq]
  · intro S' app' s' h' hhook
    rw [response_of_failed h', hooks_dispatch, hhook, hresponse]
  · intro app' halike
    obtain ⟨hresult, hstate⟩ := halike.dispatch request s
    have h' : (app'.dispatch request s).1.result = .error e := hresult.symm.trans h
    refine ⟨h', ?_, ?_⟩
    · rw [response_of_failed h', hooks_dispatch, ← halike.hooks, ← hstate, hresponse]
    · rw [state_of_failed h', state_of_failed h, hooks_dispatch, hooks_dispatch, ← halike.hooks,
        hstate]

/-! ### A reply that is taken back -/

/-- A page whose handler writes and replies what it is told, and whose concluding interceptor fails. -/
def lostPage (written : Response) (reply : Reply) : Controller Unit :=
  ((Controller.empty "Pages" []).route [.get] ["/x"] "show"
    fun _ s => ⟨.ok (.reply reply), written, s⟩).interceptor
      (Interceptor.conclude "release" fun _ x s => ⟨.error (.ofText "lost"), x.response, s⟩)

def lostPages (written : Response) (reply : Reply) : Application Unit :=
  ofControllers {} [lostPage written reply] Hooks.standard

/-- Pages that reply the same end alike, whatever they write. -/
theorem lostPages_alike (written written' : Response) (reply : Reply) :
    (lostPages written reply).Alike (lostPages written' reply) := by
  have hpage : (lostPage written reply).Alike (lostPage written' reply) :=
    ⟨rfl, rfl, .cons ⟨rfl, rfl, rfl, fun _ _ _ _ _ => ⟨rfl, rfl⟩⟩ .nil,
      .cons ⟨rfl, fun _ _ _ _ _ _ => ⟨rfl, rfl⟩⟩ .nil⟩
  exact Alike.ofControllers (.cons hpage .nil) {} Hooks.standard

/-- One page has written a header and replied with a text, the second has replied with the text and
    written nothing, the third has done nothing.  All three requests fail in the concluding interceptor
    and are answered with the same error page. -/
theorem handle_failed_lostPages :
    let request : Request := ⟨"GET", "/x", [], [], []⟩
    let app := lostPages ⟨202, [⟨"x-token", "secret"⟩], []⟩ (.text "secret")
    let silent := lostPages Response.empty (.text "secret")
    let app' := lostPages Response.empty .noResult
    let e := DispatchError.unhandled "Pages.show" (.ofText "lost")
    (app.dispatch request ()).1.result = .error e ∧
      (app.dispatch request ()).1.exchange.response.header? "x-token" = some "secret" ∧
      (app'.dispatch request ()).1.result = .error e ∧
      (app.handle request ()).1 = (Reply.internalError "Internal Server Error").apply Response.empty ∧
      (app'.handle request ()).1 = (app.handle request ()).1 ∧
      (silent.dispatch request ()).1.result = .error e ∧
      (silent.handle request ()).1 = (app.handle request ()).1 := by
  intro request app silent app' e
  have hfails : (app.dispatch request ()).1.result = .error e := by decide +kernel
  have hfails' : (app'.dispatch request ()).1.result = .error e := by decide +kernel
  have hstandard : ∀ d, (Hooks.standard.onError request e d).1 =
      .ok (.internalError "Internal Server Error") := fun (_ : Unit) => rfl
  obtain ⟨hreply, -, hsame, halike⟩ := handle_failed hfails
  obtain ⟨hsilent, hanswer, -⟩ := halike silent (lostPages_alike _ _ _)
  exact ⟨hfails, by decide +kernel, hfails', hreply _ (hstandard _),
    hsame app' () hfails' ((hstandard _).trans (hstandard _).symm), hsilent, hanswer⟩

end RequestRouter.Application
