/-
  RequestRouter/Config/Validation.lean
  ====================================
  **What settings must satisfy beyond having the right types.**

  Every problem is reported, in a fixed order of the settings.
-/
import RequestRouter.Config.Schema
import RequestRouter.Config.SocketAddress
import RequestRouter.Text.Blank

namespace RequestRouter

/-- A problem with settings. -/
inductive ConfigProblem where
  | invalidAddress (field value : String)
  | zero (field : String)
  | emptyAsset (index : Nat)
  | relativeAsset (index : Nat) (pattern : String)
  | missingStaticRoot
  | unknownLogLevel (level : String)
deriving DecidableEq, Repr

namespace ConfigProblem

def message : ConfigProblem → String
  | .invalidAddress field value => field ++ ": '" ++ value ++ "' is not a valid socket address"
  | .zero field => field ++ " must be greater than zero"
  | .emptyAsset index => "routing.static_assets[" ++ toString index ++ "] is empty"
  | .relativeAsset index pattern =>
    "routing.static_assets[" ++ toString index ++ "] '" ++ pattern ++ "' must start with '/'"
  | .missingStaticRoot =>
    "routing.static_root must not be empty when static_assets are configured"
  | .unknownLogLevel level => "observability.log_level: unknown level '" ++ level ++ "'"

def summary (problems : List ConfigProblem) : String :=
  "Validation failed: " ++ ", ".intercalate (problems.map message)

end ConfigProblem

def logLevels : List String := ["trace", "debug", "info", "warn", "error"]

def addressProblems (field value : String) : List ConfigProblem :=
  if SocketAddress.isValid value then [] else [.invalidAddress field value]

/-- The problem with a number that must not be zero, if there is one. -/
def zeroProblems (field : String) (n : Nat) : List ConfigProblem := if n = 0 then [.zero field] else []

/-- The problem with a glob of static assets, if there is one. A glob starts with a slash or a star,
    blanks around it aside. -/
def assetProblems (index : Nat) (pattern : String) : List ConfigProblem :=
  let trimmed := Text.trim pattern
  match trimmed.toList with
  | [] => [.emptyAsset index]
  | c :: _ => if c = '/' ∨ c = '*' then [] else [.relativeAsset index trimmed]

/-- The problems with globs of static assets, the first of which has an index. -/
def assetsProblems (index : Nat) : List String → List ConfigProblem
  | [] => []
  | pattern :: more => assetProblems index pattern ++ assetsProblems (index + 1) more

namespace RoutingConfig

def problems (c : RoutingConfig) : List ConfigProblem :=
  assetsProblems 0 c.staticAssets ++
    if !c.staticAssets.isEmpty && Text.isBlank c.staticRoot.toList then [.missingStaticRoot] else []

end RoutingConfig

namespace ObservabilityConfig

/-- The problems with the settings of logs and measurements. The address of measurements matters only
    if there are any. -/
def problems (c : ObservabilityConfig) : List ConfigProblem :=
  (if Text.lower c.logLevel ∈ logLevels then [] else [.unknownLogLevel c.logLevel]) ++
    if c.metricsEnabled then addressProblems "observability.metrics_address" c.metricsAddress else []

end ObservabilityConfig

def AppConfig.problems (c : AppConfig) : List ConfigProblem :=
  addressProblems "listener.bind_address" c.listener.bindAddress ++
    zeroProblems "listener.max_body_bytes" c.listener.maxBodyBytes ++
    zeroProblems "timeouts.request_secs" c.timeouts.requestSecs ++
    c.routing.problems ++ c.observability.problems

end RequestRouter
