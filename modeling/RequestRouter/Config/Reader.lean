/-
  RequestRouter/Config/Reader.lean
  ================================
  **Settings from documents.**

  A setting that a document does not name keeps its value; a name that is no setting is passed over; a
  value of the wrong type is refused. A list may stand for a record, giving its fields in order.
-/
import RequestRouter.Config.Validation
import RequestRouter.Json.Value
import RequestRouter.Text.Utf8
import RequestRouter.Toml.Reader

namespace RequestRouter

/-- A document of settings, whatever its notation. -/
inductive Setting where
  | text (s : String)
  | whole (n : Int)
  | bool (b : Bool)
  | list (items : List Setting)
  /-- Names and values. One that is `extensible` may name more than one variant and means the first. -/
  | record (extensible : Bool) (entries : List (String × Setting))
  /-- No value. -/
  | nothing
  /-- A value that no setting has. -/
  | other
deriving Repr

namespace Setting

mutual

def ofToml : Toml.Node → Setting
  | .text s => .text s
  | .whole n => .whole n
  | .bool b => .bool b
  | .float | .moment => .other
  | .array items => .list (listOfToml items)
  | .inline entries => .record false (entriesOfToml entries)
  | .table _ entries => .record true (entriesOfToml entries)
  | .tables elements => .list (recordsOfToml elements)

def listOfToml : List Toml.Node → List Setting
  | [] => []
  | node :: more => ofToml node :: listOfToml more

def entriesOfToml : List (String × Toml.Node) → List (String × Setting)
  | [] => []
  | (name, node) :: more => (name, ofToml node) :: entriesOfToml more

def recordsOfToml : List (List (String × Toml.Node)) → List Setting
  | [] => []
  | entries :: more => .record true (entriesOfToml entries) :: recordsOfToml more

end

mutual

def ofJson : Json.Value → Setting
  | .null => .nothing
  | .bool b => .bool b
  | .whole n => .whole n
  | .float _ => .other
  | .text s => .text s
  | .array items => .list (listOfJson items)
  | .object members => .record false (entriesOfJson members)

def listOfJson : List Json.Value → List Setting
  | [] => []
  | v :: more => ofJson v :: listOfJson more

def entriesOfJson : List (String × Json.Value) → List (String × Setting)
  | [] => []
  | (name, v) :: more => (name, ofJson v) :: entriesOfJson more

end

end Setting

/-- What notations differ in. -/
structure Notation where
  /-- Whether a list may be longer than the record that it stands for. -/
  surplus : Bool
  /-- What may stand after the name of a variant that holds no data. -/
  isUnit : Setting → Bool

/-- A list may be too long; an empty table follows the name of a variant. -/
def Notation.toml : Notation where
  surplus := true
  isUnit
    | .record _ [] => true
    | _ => false

/-- A list may not be too long; null follows the name of a variant. -/
def Notation.json : Notation where
  surplus := false
  isUnit
    | .nothing => true
    | _ => false

/-! ### Fields -/

/-- Where the fields of a record are found. -/
inductive Fields where
  /-- By their names. -/
  | named (entries : List (String × Setting))
  /-- By their places. -/
  | placed (items : List Setting)

namespace Fields

/-- The fields of a record of so many. -/
def ofSetting? (n : Notation) (size : Nat) : Setting → Option Fields
  | .record _ entries => some (.named entries)
  | .list items => if n.surplus || items.length ≤ size then some (.placed items) else none
  | _ => none

/-- What is given for the field of a name and a place; of a name given more than once the last. -/
def get? (fields : Fields) (name : String) (place : Nat) : Option Setting :=
  match fields with
  | .named entries => entries.reverse.lookup name
  | .placed items => items[place]?

/-- A field read, or its value when it is not given. -/
def field {α : Type} (fields : Fields) (name : String) (place : Nat) (read : Setting → Option α)
    (dflt : α) : Option α :=
  match fields.get? name place with
  | some s => read s
  | none => some dflt

end Fields

/-! ### Types -/

namespace Setting

def text? : Setting → Option String
  | .text s => some s
  | _ => none

/-- A truth value. -/
def bool? : Setting → Option Bool
  | .bool b => some b
  | _ => none

def count? : Setting → Option Nat
  | .whole n => if 0 ≤ n then some n.toNat else none
  | _ => none

def texts? : Setting → Option (List String)
  | .list items => items.mapM text?
  | _ => none

/-- A variant that holds no data: its name, or a record of its name. -/
def variant? (n : Notation) : Setting → Option String
  | .text s => some s
  | .record extensible ((name, value) :: more) =>
    if (extensible || more.isEmpty) && n.isUnit value then some name else none
  | _ => none

end Setting

def LogFormat.ofSetting? (n : Notation) (s : Setting) : Option LogFormat :=
  (s.variant? n).bind LogFormat.ofName?

def ListenerConfig.ofSetting? (n : Notation) (s : Setting) : Option ListenerConfig := do
  let dflt : ListenerConfig := {}
  let fields ← Fields.ofSetting? n 2 s
  return {
    bindAddress := ← fields.field "bind_address" 0 Setting.text? dflt.bindAddress
    maxBodyBytes := ← fields.field "max_body_bytes" 1 Setting.count? dflt.maxBodyBytes }

def RoutingConfig.ofSetting? (n : Notation) (s : Setting) : Option RoutingConfig := do
  let dflt : RoutingConfig := {}
  let fields ← Fields.ofSetting? n 5 s
  return {
    caseSensitive := ← fields.field "case_sensitive" 0 Setting.bool? dflt.caseSensitive
    strict := ← fields.field "strict" 1 Setting.bool? dflt.strict
    rejectDuplicates := ← fields.field "reject_duplicates" 2 Setting.bool? dflt.rejectDuplicates
    staticAssets := ← fields.field "static_assets" 3 Setting.texts? dflt.staticAssets
    staticRoot := ← fields.field "static_root" 4 Setting.text? dflt.staticRoot }

def TimeoutConfig.ofSetting? (n : Notation) (s : Setting) : Option TimeoutConfig := do
  let dflt : TimeoutConfig := {}
  let fields ← Fields.ofSetting? n 1 s
  return { requestSecs := ← fields.field "request_secs" 0 Setting.count? dflt.requestSecs }

/-- Settings of logs and measurements. -/
def ObservabilityConfig.ofSetting? (n : Notation) (s : Setting) : Option ObservabilityConfig := do
  let dflt : ObservabilityConfig := {}
  let fields ← Fields.ofSetting? n 4 s
  return {
    logLevel := ← fields.field "log_level" 0 Setting.text? dflt.logLevel
    logFormat := ← fields.field "log_format" 1 (LogFormat.ofSetting? n) dflt.logFormat
    metricsEnabled := ← fields.field "metrics_enabled" 2 Setting.bool? dflt.metricsEnabled
    metricsAddress := ← fields.field "metrics_address" 3 Setting.text? dflt.metricsAddress }

namespace AppConfig

def ofSetting? (n : Notation) (s : Setting) : Option AppConfig := do
  let fields ← Fields.ofSetting? n 4 s
  return {
    listener := ← fields.field "listener" 0 (ListenerConfig.ofSetting? n) {}
    routing := ← fields.field "routing" 1 (RoutingConfig.ofSetting? n) {}
    timeouts := ← fields.field "timeouts" 2 (TimeoutConfig.ofSetting? n) {}
    observability := ← fields.field "observability" 3 (ObservabilityConfig.ofSetting? n) {} }

def ofJson? (v : Json.Value) : Option AppConfig := ofSetting? .json (.ofJson v)

end AppConfig

def RoutingConfig.ofJson? (v : Json.Value) : Option RoutingConfig := ofSetting? .json (.ofJson v)

/-! ### Loading -/

/-- Why settings cannot be loaded. -/
inductive ConfigError where
  /-- The file cannot be read as text. -/
  | io
  /-- The text is no document, or one of the wrong types. -/
  | parse
  | invalid (problems : List ConfigProblem)
deriving DecidableEq, Repr

namespace AppConfig

/-- Settings that have no problem. -/
def validated (c : AppConfig) : Except ConfigError AppConfig :=
  if c.problems.isEmpty then .ok c else .error (.invalid c.problems)

def ofText (text : List Char) : Except ConfigError AppConfig :=
  match (Toml.read? text).bind fun entries =>
    ofSetting? .toml (.record true (Setting.entriesOfToml entries)) with
  | some c => c.validated
  | none => .error .parse

/-- The settings that a file holds, given its octets if there is such a file. -/
def ofFile (content : Option (List UInt8)) : Except ConfigError AppConfig :=
  match content.bind Text.decode? with
  | some text => ofText text
  | none => .error .io

/-- Settings that were loaded have no problem. -/
theorem problems_of_ofText {text : List Char} {c : AppConfig} (h : ofText text = .ok c) :
    c.problems = [] := by
  unfold ofText at h
  split at h
  · next d _ =>
    unfold validated at h
    split at h
    · next hp =>
      cases h
      simpa using hp
    · cases h
  · cases h

end AppConfig

/-! ### Printing -/

def RoutingConfig.toJson (c : RoutingConfig) : Json.Value :=
  .object [
    ("case_sensitive", .bool c.caseSensitive), ("strict", .bool c.strict),
    ("reject_duplicates", .bool c.rejectDuplicates), ("static_assets", .texts c.staticAssets),
    ("static_root", .text c.staticRoot)]

/-- All settings as a JSON document. -/
def AppConfig.toJson (c : AppConfig) : Json.Value :=
  .object [
    ("listener", .object [
      ("bind_address", .text c.listener.bindAddress),
      ("max_body_bytes", .count c.listener.maxBodyBytes)]),
    ("routing", c.routing.toJson),
    ("timeouts", .object [("request_secs", .count c.timeouts.requestSecs)]),
    ("observability", .object [
      ("log_level", .text c.observability.logLevel),
      ("log_format", .text c.observability.logFormat.name),
      ("metrics_enabled", .bool c.observability.metricsEnabled),
      ("metrics_address", .text c.observability.metricsAddress)])]

end RequestRouter
