/-
  RequestRouter/Proofs/Application/Runs.lean
  ==========================================
  **What an application answers over a run of calls.**

  An application keeps three things apart: the settings in force, the globs of static assets and the
  table of routes, which may be absent.  Whatever was called, all three are those of the last settings
  that were accepted (`Reflects`).  So an application cannot be told from one that keeps its settings
  only and builds the table anew for every call (`Reflects.run`), and dropping the table between calls
  changes no answer.
-/
import RequestRouter.Application.Basic

namespace RequestRouter

open RequestRouter.Http

namespace Application

variable {S : Type}

/-! ### Calls -/

/-- What an application is asked for. -/
inductive Call where
  /-- Its table. -/
  | table
  | handle (request : Request)
  | reload (routing : RoutingConfig)
  | teardown
deriving DecidableEq, Repr

/-- A call as it was answered. -/
inductive Event (S : Type) where
  | shown (result : Except RouteError (Table S))
  | responded (request : Request) (response : Response)
  | reloaded (routing : RoutingConfig) (result : Except RouteError Unit)

/-- What calls come to: the events, and what they leave of the state that callbacks share and of
    whatever was called. A teardown is not answered. -/
structure Trace (S α : Type) where
  events : List (Event S)
  state : S
  left : α

/-- Calls one after the other, each made of what the one before it left. -/
def Trace.ofCalls {α : Type} (perform : α → S → Call → Trace S α) (a : α) (s : S) :
    List Call → Trace S α
  | [] => ⟨[], s, a⟩
  | call :: more =>
    let first := perform a s call
    let rest := ofCalls perform first.left first.state more
    ⟨first.events ++ rest.events, rest.state, rest.left⟩

/-- One call of an application. -/
def perform (app : Application S) (s : S) : Call → Trace S (Application S)
  | .table =>
    let (result, app) := app.table
    ⟨[.shown (result.map (·.table))], s, app⟩
  | .handle request =>
    let (response, s, app) := app.handle request s
    ⟨[.responded request response], s, app⟩
  | .reload routing =>
    let (result, app) := app.reload routing
    ⟨[.reloaded routing result], s, app⟩
  | .teardown => ⟨[], s, app.teardown⟩

def run (app : Application S) (s : S) (calls : List Call) : Trace S (Application S) :=
  Trace.ofCalls perform app s calls

/-- The settings of a reload that was answered without an error. -/
def Event.accepted? : Event S → Option RoutingConfig
  | .reloaded routing (.ok ()) => some routing
  | _ => none

/-- The settings of the last reload that was accepted, or the first ones. -/
def inForce (first : RoutingConfig) (events : List (Event S)) : RoutingConfig :=
  (events.filterMap Event.accepted?).getLastD first

/-! ### Applications without a table -/

/-- A dispatch of a request with a table, if that could be built. -/
def dispatchBuilt (built : Except RouteError (Table S)) (request : Request) (s : S) :
    Dispatched S :=
  match built with
  | .error e => ⟨.error (.routes e), Exchange.ofRequest request, s⟩
  | .ok table => table.dispatch (Exchange.ofRequest request) s

/-- One call of an application that keeps its settings only and builds the table when asked. -/
def performAnew (controllers : List (Controller S)) (hooks : Hooks S) (settings : RoutingConfig)
    (s : S) : Call → Trace S RoutingConfig
  | .table => ⟨[.shown (Table.ofControllers settings.tableOptions controllers)], s, settings⟩
  | .handle request =>
    let (response, s) := respond hooks request
      (dispatchBuilt (Table.ofControllers settings.tableOptions controllers) request s)
    ⟨[.responded request response], s, settings⟩
  | .reload routing =>
    match Table.ofControllers routing.tableOptions controllers with
    | .error e => ⟨[.reloaded routing (.error e)], s, settings⟩
    | .ok _ => ⟨[.reloaded routing (.ok ())], s, routing⟩
  | .teardown => ⟨[], s, settings⟩

def runAnew (controllers : List (Controller S)) (hooks : Hooks S) (settings : RoutingConfig)
    (s : S) (calls : List Call) : Trace S RoutingConfig :=
  Trace.ofCalls (performAnew controllers hooks) settings s calls

/-! ### One call -/

/-- What asking for the table does: it is there, or it cannot be built and nothing changes, or it is
    built and kept. -/
theorem table_cases (app : Application S) :
    (∃ loaded, app.loaded = some loaded ∧ app.table = (.ok loaded, app)) ∨
    (app.loaded = none ∧ ∃ e, app.build app.routing = .error e ∧ app.table = (.error e, app)) ∨
    (app.loaded = none ∧ ∃ t, app.build app.routing = .ok t ∧
      app.table = (.ok ⟨app.builds, t⟩, app.withTable t)) := by
  unfold table
  cases hloaded : app.loaded with
  | some loaded => exact Or.inl ⟨loaded, rfl, rfl⟩
  | none =>
    cases hbuild : app.build app.routing with
    | error e => exact Or.inr (Or.inl ⟨rfl, e, rfl, rfl⟩)
    | ok t => exact Or.inr (Or.inr ⟨rfl, t, rfl, rfl⟩)

/-- What a reload does: the settings are in force already and there is a table, or none can be built
    with them and nothing changes, or settings, globs and table are replaced together. -/
theorem reload_cases (app : Application S) (routing : RoutingConfig) :
    (app.routing = routing ∧ (∃ loaded, app.loaded = some loaded) ∧
      app.reload routing = (.ok (), app)) ∨
    (∃ e, app.build routing = .error e ∧ app.reload routing = (.error e, app)) ∨
    (∃ t, app.build routing = .ok t ∧ app.reload routing =
      (.ok (), { app with
        routing := routing
        assets := GlobSet.ofSources routing.staticAssets }.withTable t)) := by
  unfold reload
  by_cases hsame : app.routing = routing ∧ app.loaded.isSome
  · rw [if_pos hsame]
    exact Or.inl ⟨hsame.1, Option.isSome_iff_exists.mp hsame.2, rfl⟩
  · rw [if_neg hsame]
    cases hbuild : app.build routing with
    | error e => exact Or.inr (Or.inl ⟨e, rfl, rfl⟩)
    | ok t => exact Or.inr (Or.inr ⟨t, rfl, rfl⟩)

/-- A table that cannot be had changes nothing. -/
theorem table_snd_of_error {app : Application S} {e : RouteError} (h : app.table.1 = .error e) :
    app.table.2 = app := by
  rcases app.table_cases with ⟨loaded, -, htable⟩ | ⟨-, e', -, htable⟩ | ⟨-, t, -, htable⟩
  · rw [htable]
  · rw [htable]
  · rw [htable] at h
    cases h

/-- A reload that fails changes nothing. -/
theorem reload_snd_of_error {app : Application S} {routing : RoutingConfig} {e : RouteError}
    (h : (app.reload routing).1 = .error e) : (app.reload routing).2 = app := by
  rcases app.reload_cases routing with ⟨-, -, hreload⟩ | ⟨e', -, hreload⟩ | ⟨t, -, hreload⟩
  · rw [hreload]
  · rw [hreload]
  · rw [hreload] at h
    cases h

/-! ### Settings, globs and table agree -/

/-- An application whose parts all belong to the same settings. -/
structure Reflects (controllers : List (Controller S)) (hooks : Hooks S) (settings : RoutingConfig)
    (app : Application S) : Prop where
  of_controllers : app.controllers = controllers
  of_hooks : app.hooks = hooks
  routing : app.routing = settings
  assets : app.assets = GlobSet.ofSources settings.staticAssets
  built : ∀ loaded, app.loaded = some loaded →
    Table.ofControllers settings.tableOptions controllers = .ok loaded.table

namespace Reflects

variable {controllers : List (Controller S)} {hooks : Hooks S} {settings : RoutingConfig}
  {app : Application S}

theorem initial : Reflects controllers hooks settings
    (ofControllers settings controllers hooks) :=
  ⟨rfl, rfl, rfl, rfl, fun _ h => by cases h⟩

theorem teardown (h : Reflects controllers hooks settings app) :
    Reflects controllers hooks settings app.teardown :=
  ⟨h.of_controllers, h.of_hooks, h.routing, h.assets, fun _ h => by cases h⟩

/-- Any settings may be put in force together with their globs and a table built with them. -/
theorem replaced (h : Reflects controllers hooks settings app) (routing : RoutingConfig)
    {t : Table S} (ht : Table.ofControllers routing.tableOptions controllers = .ok t) :
    Reflects controllers hooks routing
      ({ app with
        routing := routing
        assets := GlobSet.ofSources routing.staticAssets }.withTable t) := by
  refine ⟨h.of_controllers, h.of_hooks, rfl, rfl, ?_⟩
  intro loaded hloaded
  cases hloaded
  exact ht

theorem build (h : Reflects controllers hooks settings app) (routing : RoutingConfig) :
    app.build routing = Table.ofControllers routing.tableOptions controllers := by
  rw [Application.build, h.of_controllers]

/-- The table that is shown is the one that would be built. -/
theorem table (h : Reflects controllers hooks settings app) :
    app.table.1.map (·.table) = Table.ofControllers settings.tableOptions controllers ∧
      Reflects controllers hooks settings app.table.2 := by
  have hbuild : app.build app.routing = Table.ofControllers settings.tableOptions controllers := by
    rw [h.build, h.routing]
  rcases app.table_cases with ⟨loaded, hloaded, htable⟩ | ⟨-, e, he, htable⟩ | ⟨-, t, ht, htable⟩
  · rw [htable]
    exact ⟨(h.built loaded hloaded).symm, h⟩
  · rw [htable, ← hbuild, he]
    exact ⟨rfl, h⟩
  · rw [htable, ← hbuild, ht]
    refine ⟨rfl, h.of_controllers, h.of_hooks, h.routing, h.assets, ?_⟩
    intro loaded hloaded
    cases hloaded
    exact hbuild.symm.trans ht

/-- A reload is accepted iff a table can be built with the settings; then these are in force. -/
theorem reload (h : Reflects controllers hooks settings app) (routing : RoutingConfig) :
    (∃ e, Table.ofControllers routing.tableOptions controllers = .error e ∧
      app.reload routing = (.error e, app)) ∨
    (∃ t, Table.ofControllers routing.tableOptions controllers = .ok t ∧
      (app.reload routing).1 = .ok () ∧
      Reflects controllers hooks routing (app.reload routing).2) := by
  rw [← h.build routing]
  rcases app.reload_cases routing with
    ⟨hsame, ⟨loaded, hloaded⟩, hreload⟩ | ⟨e, he, hreload⟩ | ⟨t, ht, hreload⟩
  · -- The settings are in force, and the table that is there was built with them.
    obtain rfl : settings = routing := h.routing.symm.trans hsame
    refine Or.inr ⟨loaded.table, (h.build settings).trans (h.built loaded hloaded), ?_, ?_⟩
    · rw [hreload]
    · rw [hreload]
      exact h
  · exact Or.inl ⟨e, he, hreload⟩
  · refine Or.inr ⟨t, ht, ?_, ?_⟩
    · rw [hreload]
    · rw [hreload]
      exact h.replaced routing ((h.build routing).symm.trans ht)

/-- A request is answered with the table that would be built, whether or not there is one. -/
theorem dispatch (h : Reflects controllers hooks settings app) (request : Request) (s : S) :
    (app.dispatch request s).1 =
        dispatchBuilt (Table.ofControllers settings.tableOptions controllers) request s ∧
      Reflects controllers hooks settings (app.dispatch request s).2 := by
  obtain ⟨hshown, hafter⟩ := h.table
  rw [← hshown]
  rcases htable : app.table with ⟨result, after⟩
  rw [htable] at hafter
  cases result with
  | error e =>
    simp only [Application.dispatch, htable]
    exact ⟨rfl, hafter⟩
  | ok loaded =>
    simp only [Application.dispatch, htable]
    exact ⟨rfl, hafter⟩

theorem handle (h : Reflects controllers hooks settings app) (request : Request) (s : S) :
    let anew := respond hooks request
      (dispatchBuilt (Table.ofControllers settings.tableOptions controllers) request s)
    (app.handle request s).1 = anew.1 ∧ (app.handle request s).2.1 = anew.2 ∧
      Reflects controllers hooks settings (app.handle request s).2.2 := by
  obtain ⟨hdispatch, hafter⟩ := h.dispatch request s
  have hrespond : respond (app.dispatch request s).2.hooks request (app.dispatch request s).1 =
      respond hooks request
        (dispatchBuilt (Table.ofControllers settings.tableOptions controllers) request s) := by
    rw [hdispatch, hafter.of_hooks]
  exact ⟨congrArg (·.1) hrespond, congrArg (·.2) hrespond, hafter⟩

/-- One call is answered as if there never was a table, and keeps the parts together. -/
theorem perform (h : Reflects controllers hooks settings app) (s : S) (call : Call) :
    (app.perform s call).events = (performAnew controllers hooks settings s call).events ∧
      (app.perform s call).state = (performAnew controllers hooks settings s call).state ∧
      Reflects controllers hooks (performAnew controllers hooks settings s call).left
        (app.perform s call).left := by
  cases call with
  | table =>
    obtain ⟨htable, hafter⟩ := h.table
    exact ⟨by rw [performAnew, ← htable]; rfl, rfl, hafter⟩
  | handle request =>
    obtain ⟨hresponse, hstate, hafter⟩ := h.handle request s
    exact ⟨congrArg (fun response => [Event.responded request response]) hresponse, hstate, hafter⟩
  | reload routing =>
    rcases h.reload routing with ⟨e, he, hreload⟩ | ⟨t, ht, hok, hafter⟩
    · rw [performAnew, he, Application.perform, hreload]
      exact ⟨rfl, rfl, h⟩
    · rw [performAnew, ht, Application.perform]
      exact ⟨by rw [← hok], rfl, hafter⟩
  | teardown => exact ⟨rfl, rfl, h.teardown⟩

/-- A run is answered as if the table was built anew for every call. -/
theorem run (h : Reflects controllers hooks settings app) (s : S) (calls : List Call) :
    (app.run s calls).events = (runAnew controllers hooks settings s calls).events ∧
      (app.run s calls).state = (runAnew controllers hooks settings s calls).state ∧
      Reflects controllers hooks (runAnew controllers hooks settings s calls).left
        (app.run s calls).left := by
  induction calls generalizing app settings s with
  | nil => exact ⟨rfl, rfl, h⟩
  | cons call more ih =>
    obtain ⟨hevents, hstate, hafter⟩ := h.perform s call
    obtain ⟨hevents', hstate', hafter'⟩ :=
      ih hafter (performAnew controllers hooks settings s call).state
    unfold Application.run Trace.ofCalls
    simp only [hevents, hstate]
    exact ⟨congrArg _ hevents', hstate', hafter'⟩

end Reflects

/-! ### Settings in force -/

theorem inForce_append (first : RoutingConfig) (events more : List (Event S)) :
    inForce first (events ++ more) = inForce (inForce first events) more := by
  unfold inForce
  rw [List.filterMap_append]
  simp only [List.getLastD_eq_getLast?, List.getLast?_append]
  cases (more.filterMap Event.accepted?).getLast? with
  | none => rfl
  | some routing => rfl

section Anew

variable (controllers : List (Controller S)) (hooks : Hooks S)

theorem left_performAnew (settings : RoutingConfig) (s : S) (call : Call) :
    (performAnew controllers hooks settings s call).left =
      inForce settings (performAnew controllers hooks settings s call).events := by
  cases call with
  | table => rfl
  | handle request => rfl
  | reload routing =>
    cases hbuilt : Table.ofControllers routing.tableOptions controllers with
    | error e =>
      simp only [performAnew, hbuilt]
      rfl
    | ok t =>
      simp only [performAnew, hbuilt]
      rfl
  | teardown => rfl

/-- What is kept are the settings of the last reload that was accepted. -/
theorem left_runAnew (settings : RoutingConfig) (s : S) (calls : List Call) :
    (runAnew controllers hooks settings s calls).left =
      inForce settings (runAnew controllers hooks settings s calls).events := by
  induction calls generalizing settings s with
  | nil => rfl
  | cons call more ih =>
    let first := performAnew controllers hooks settings s call
    have hrest := ih first.left first.state
    change (runAnew controllers hooks first.left first.state more).left =
      inForce settings (first.events ++ (runAnew controllers hooks first.left first.state more).events)
    rw [inForce_append, ← left_performAnew, hrest]

/-- Teardowns leave no trace. -/
theorem runAnew_teardowns (settings : RoutingConfig) (s : S) (calls : List Call) :
    runAnew controllers hooks settings s (calls.filter (· ≠ .teardown)) =
      runAnew controllers hooks settings s calls := by
  induction calls generalizing settings s with
  | nil => rfl
  | cons call more ih =>
    by_cases hcall : call = .teardown
    · subst hcall
      exact ih settings s
    · rw [List.filter_cons_of_pos (by simpa using hcall)]
      unfold runAnew Trace.ofCalls
      exact congrArg (fun rest : Trace S RoutingConfig =>
        (⟨_ ++ rest.events, rest.state, rest.left⟩ : Trace S RoutingConfig)) (ih _ _)

end Anew

/-! ### Runs -/

/-- **An application stands by the last settings that it accepted.**  After any calls of an
    application of controllers, the settings, the globs of static assets and the table, if there is
    one, are those of the last reload that was answered without an error, or the first ones.  The
    table is sealed.  A call for the table or a reload that ends in an error leaves the application as
    it was.  A request is answered as with a table that is built for it with these settings.  Calls
    with teardowns put in or left out have the same answers. -/
theorem run_stands_by_accepted (first : RoutingConfig) (controllers : List (Controller S))
    (hooks : Hooks S) (s : S) (calls : List Call) :
    let trace := (ofControllers first controllers hooks).run s calls
    let app := trace.left
    let settings := inForce first trace.events
    let built := Table.ofControllers settings.tableOptions controllers
    app.routing = settings ∧
    (∀ path, app.isStaticAsset path = (GlobSet.ofSources settings.staticAssets).matchesText path) ∧
    (∀ loaded, app.loaded = some loaded → loaded.table.isSealed = true ∧ built = .ok loaded.table) ∧
    (∀ e, app.table.1 = .error e → app.table.2 = app) ∧
    (∀ routing e, (app.reload routing).1 = .error e → (app.reload routing).2 = app) ∧
    (∀ request s', ((app.handle request s').1, (app.handle request s').2.1) =
      respond hooks request (dispatchBuilt built request s')) ∧
    (∀ calls', calls'.filter (· ≠ .teardown) = calls.filter (· ≠ .teardown) →
      ((ofControllers first controllers hooks).run s calls').events = trace.events ∧
        ((ofControllers first controllers hooks).run s calls').state = trace.state) := by
  intro trace app settings built
  have hinitial : Reflects controllers hooks first (ofControllers first controllers hooks) := .initial
  obtain ⟨hevents, hstate, hreflects⟩ := hinitial.run s calls
  rw [left_runAnew, ← hevents] at hreflects
  refine ⟨hreflects.routing, ?_, ?_, fun e => table_snd_of_error, fun routing e => reload_snd_of_error,
    ?_, ?_⟩
  · intro path
    rw [isStaticAsset, hreflects.assets]
  · intro loaded hloaded
    have hbuilt := hreflects.built loaded hloaded
    exact ⟨Table.isSealed_of_ofControllers hbuilt, hbuilt⟩
  · intro request s'
    obtain ⟨hresponse, hstate', -⟩ := hreflects.handle request s'
    exact Prod.ext hresponse hstate'
  · intro calls' hcalls
    obtain ⟨hevents', hstate', -⟩ := hinitial.run s calls'
    have hsame : runAnew controllers hooks first s calls' =
        runAnew controllers hooks first s calls := by
      rw [← runAnew_teardowns, hcalls, runAnew_teardowns]
    rw [hsame] at hevents' hstate'
    exact ⟨hevents'.trans hevents.symm, hstate'.trans hstate.symm⟩

/-- Declares a route twice. -/
def twice : Controller Unit :=
  ((Controller.empty "Twice" []).route [.get] ["/x"] "a" (Left.done .pass)).route [.get] ["/x"] "b"
    (Left.done .pass)

/-- Settings that refuse routes that are declared twice. -/
def onceOnly : RoutingConfig := { rejectDuplicates := true }

theorem exists_error {α β : Type} {result : Except α β} (h : result.isOk = false) :
    ∃ e, result = .error e := by
  cases result with
  | error e => exact ⟨e, rfl⟩
  | ok b => cases h

/-- A table that was shown outlives a reload that fails; a teardown between the two goes unnoticed. -/
theorem run_stands_by_accepted_twice :
    ∃ trace : Trace Unit (Application Unit),
      trace = (ofControllers {} [twice] Hooks.standard).run () [.table, .reload onceOnly] ∧
      trace.left.routing = {} ∧
      (∃ loaded, trace.left.loaded = some loaded ∧ loaded.table.isSealed = true ∧
        Table.ofControllers (inForce {} trace.events).tableOptions [twice] = .ok loaded.table) ∧
      (∃ e, (trace.left.reload onceOnly).1 = .error e ∧
        (trace.left.reload onceOnly).2 = trace.left) ∧
      ((ofControllers {} [twice] Hooks.standard).run ()
        [.table, .teardown, .reload onceOnly]).events = trace.events := by
  obtain ⟨hrouting, -, hloaded, -, hreload, -, hteardowns⟩ :=
    run_stands_by_accepted {} [twice] Hooks.standard () [.table, .reload onceOnly]
  have hforce : inForce {} ((ofControllers {} [twice] Hooks.standard).run ()
      [.table, .reload onceOnly]).events = {} := by decide +kernel
  have hsome : ((ofControllers {} [twice] Hooks.standard).run ()
      [.table, .reload onceOnly]).left.loaded.isSome = true := by decide +kernel
  have hrefused : (((ofControllers {} [twice] Hooks.standard).run ()
      [.table, .reload onceOnly]).left.reload onceOnly).1.isOk = false := by decide +kernel
  obtain ⟨loaded, hkept⟩ := Option.isSome_iff_exists.mp hsome
  obtain ⟨e, he⟩ := exists_error hrefused
  exact ⟨_, rfl, hrouting.trans hforce, ⟨loaded, hkept, hloaded loaded hkept⟩,
    ⟨e, he, hreload onceOnly e he⟩, (hteardowns [.table, .teardown, .reload onceOnly] rfl).1⟩

end Application

end RequestRouter
