/-
  RequestRouter/Config/Schema.lean
  ================================
  **Settings, each with the value it has when nobody sets it.**
-/
import RequestRouter.Table.Basic
import RequestRouter.Text.Case

namespace RequestRouter

/-- Where requests are accepted. -/
structure ListenerConfig where
  bindAddress : String := "127.0.0.1:8080"
  /-- The largest body that is taken in before a request is dispatched. -/
  maxBodyBytes : Nat := 2097152
deriving DecidableEq, Repr

/-- How routes are matched, and which paths are not routed at all. -/
structure RoutingConfig where
  caseSensitive : Bool := false
  /-- Whether a slash at the end of a path matters. -/
  strict : Bool := false
  /-- Whether a route that is declared twice is an error. -/
  rejectDuplicates : Bool := false
  /-- Globs of the paths that are served from `staticRoot`. -/
  staticAssets : List String := ["/assets/*", "/favicon.ico"]
  staticRoot : String := "public"
deriving DecidableEq, Repr

def RoutingConfig.tableOptions (c : RoutingConfig) : TableOptions :=
  { compile := { caseSensitive := c.caseSensitive, strict := c.strict }
    rejectDuplicates := c.rejectDuplicates }

/-- How long a request may take. -/
structure TimeoutConfig where
  requestSecs : Nat := 30
deriving DecidableEq, Repr

/-- How log lines are written. -/
inductive LogFormat where
  | pretty
  | json
deriving DecidableEq, Repr

namespace LogFormat

def name : LogFormat → String
  | .pretty => "pretty"
  | .json => "json"

def ofName? (name : String) : Option LogFormat := [pretty, json].find? (·.name == name)

end LogFormat

/-- What is logged and measured. -/
structure ObservabilityConfig where
  logLevel : String := "info"
  logFormat : LogFormat := .pretty
  metricsEnabled : Bool := false
  metricsAddress : String := "127.0.0.1:9090"
deriving DecidableEq, Repr

/-- The filter of log lines: the level for those of the program and of its middleware, warnings for
    all others. -/
def ObservabilityConfig.logFilter (c : ObservabilityConfig) : String :=
  let level := Text.lower c.logLevel
  "route_dispatch=" ++ level ++ ",tower_http=" ++ level ++ ",warn"

/-- All settings. -/
structure AppConfig where
  listener : ListenerConfig := {}
  routing : RoutingConfig := {}
  timeouts : TimeoutConfig := {}
  observability : ObservabilityConfig := {}
deriving DecidableEq, Repr

end RequestRouter
