/-
  RequestRouter/Application/Basic.lean
  ====================================
  **Applications: controllers, settings and the table built from them.**

  The table is built when it is first asked for and kept until it is torn down or rebuilt with other
  settings. Settings take effect only if a table can be built with them. A request that no route serves
  and one whose dispatch fails are answered by hooks; of the latter nothing is kept that callbacks have
  written.
-/
import RequestRouter.Config.Schema
import RequestRouter.Controller
import RequestRouter.Table.Dispatch

namespace RequestRouter

open RequestRouter.Http

/-- Answers for requests that no route answers. -/
structure Hooks (S : Type) where
  /-- For a request that no route serves. -/
  notFound : Request → S → Except Failure Reply × S
  /-- For a request whose dispatch failed. -/
  onError : Request → DispatchError → S → Except Failure Reply × S

/-- Method and path with status 404, a page with status 500. -/
def Hooks.standard {S : Type} : Hooks S where
  notFound request s := (.ok (.notRouted request), s)
  onError _ _ s := (.ok (.internalError "Internal Server Error"), s)

/-- A table, and how many were built before it. -/
structure LoadedTable (S : Type) where
  serial : Nat
  table : Table S

/-- Controllers, settings and the table built from them. -/
structure Application (S : Type) where
  controllers : List (Controller S)
  hooks : Hooks S
  routing : RoutingConfig
  /-- The globs of the settings in force. -/
  assets : GlobSet
  loaded : Option (LoadedTable S)
  /-- How many tables have been built. -/
  builds : Nat

namespace Application

variable {S : Type}

/-- An application of controllers, with no table yet. -/
def ofControllers (routing : RoutingConfig) (controllers : List (Controller S)) (hooks : Hooks S) :
    Application S :=
  ⟨controllers, hooks, routing, GlobSet.ofSources routing.staticAssets, none, 0⟩

/-- The table that the controllers make with some settings. -/
def build (app : Application S) (routing : RoutingConfig) : Except RouteError (Table S) :=
  Table.ofControllers routing.tableOptions app.controllers

def withTable (app : Application S) (table : Table S) : Application S :=
  { app with loaded := some ⟨app.builds, table⟩, builds := app.builds + 1 }

/-- The table, built if there is none. -/
def table (app : Application S) : Except RouteError (LoadedTable S) × Application S :=
  match app.loaded with
  | some loaded => (.ok loaded, app)
  | none =>
    match app.build app.routing with
    | .error e => (.error e, app)
    | .ok table => (.ok ⟨app.builds, table⟩, app.withTable table)

/-- Puts settings in force with a table built for them. Settings that are in force already change
    nothing, provided there is a table. -/
def reload (app : Application S) (routing : RoutingConfig) :
    Except RouteError Unit × Application S :=
  if app.routing = routing ∧ app.loaded.isSome then (.ok (), app)
  else match app.build routing with
    | .error e => (.error e, app)
    | .ok table =>
      (.ok (), { app with
        routing := routing
        assets := GlobSet.ofSources routing.staticAssets }.withTable table)

/-- Drops the table. -/
def teardown (app : Application S) : Application S := { app with loaded := none }

def isStaticAsset (app : Application S) (path : String) : Bool := app.assets.matchesText path

/-! ### Handling requests -/

/-- The answer when a hook fails too. -/
def lastResort : Response :=
  (Response.empty.setStatus 500).setContent "text/plain; charset=utf-8" "Internal Server Error"

def finish (response : Response) : Except Failure Reply → Response
  | .ok reply => reply.apply response
  | .error _ => lastResort

/-- How a request left the application. -/
inductive RequestOutcome where
  | handled
  | unmatched
  | failed
  /-- Served as a static asset. -/
  | static
deriving DecidableEq, Repr

/-- The outcome as measurements name it. -/
def RequestOutcome.label : RequestOutcome → String
  | .handled => "handled"
  | .unmatched => "unmatched"
  | .failed => "failed"
  | .static => "static"

def RequestOutcome.all : List RequestOutcome := [.handled, .unmatched, .failed, .static]

/-- The outcome of a dispatch. -/
def RequestOutcome.ofResult : Except DispatchError Bool → RequestOutcome
  | .ok true => .handled
  | .ok false => .unmatched
  | .error _ => .failed

/-- A dispatch of the request with the application's table, built if there is none. -/
def dispatch (app : Application S) (request : Request) (s : S) : Dispatched S × Application S :=
  match app.table with
  | (.error e, app) => (⟨.error (.routes e), Exchange.ofRequest request, s⟩, app)
  | (.ok loaded, app) => (loaded.table.dispatch (Exchange.ofRequest request) s, app)

/-- The outcome that is recorded for a request. The path of a static asset is not dispatched. -/
def outcome (app : Application S) (request : Request) (s : S) : RequestOutcome :=
  if app.isStaticAsset request.path then .static
  else .ofResult (app.dispatch request s).1.result

def respond (hooks : Hooks S) (request : Request) (d : Dispatched S) : Response × S :=
  match d.result with
  | .ok true => (d.exchange.response, d.state)
  | .ok false =>
    let (reply, s) := hooks.notFound request d.state
    (finish d.exchange.response reply, s)
  | .error e =>
    let (reply, s) := hooks.onError request e d.state
    (finish Response.empty reply, s)

/-- Handles a request: dispatches it, and leaves to a hook what that did not answer. -/
def handle (app : Application S) (request : Request) (s : S) : Response × S × Application S :=
  let (dispatched, app) := app.dispatch request s
  let (response, s) := respond app.hooks request dispatched
  (response, s, app)

def handleAll (app : Application S) (s : S) : List Request → List Response × S × Application S
  | [] => ([], s, app)
  | request :: more =>
    let (response, s, app) := app.handle request s
    let (responses, s, app) := app.handleAll s more
    (response :: responses, s, app)

@[simp] theorem routing_teardown (app : Application S) : app.teardown.routing = app.routing := rfl

end Application

end RequestRouter
