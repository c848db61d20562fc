/-
  RequestRouter/Cli.lean
  ======================
  **The command line: shows how a path spec compiles, and what it takes from a path.**

  `compile SPEC` and `match SPEC PATH`, each with `--case-sensitive` and `--strict` at any place after
  the command and at most once. After `--` everything is an argument.
-/
import RequestRouter.Json.Printer
import RequestRouter.Pattern

namespace RequestRouter.Cli

/-- What the program is asked to do. -/
inductive Command where
  | compile (options : CompileOptions) (spec : String)
  | tryMatch (options : CompileOptions) (spec path : String)

/-! ### Arguments -/

/-- Flags and arguments read so far. -/
structure Arguments where
  options : CompileOptions
  values : List String

namespace Arguments

def empty : Arguments := ⟨{}, []⟩

def push (a : Arguments) (value : String) : Arguments := { a with values := a.values ++ [value] }

/-- A flag set; none if it is set already, or is no flag. -/
def setFlag? (a : Arguments) (flag : String) : Option Arguments :=
  if flag = "--case-sensitive" then
    if a.options.caseSensitive then none
    else some { a with options := { a.options with caseSensitive := true } }
  else if flag = "--strict" then
    if a.options.strict then none
    else some { a with options := { a.options with strict := true } }
  else none

/-- Whether a word is read as a flag: it starts with a dash and is not a dash alone. -/
def isFlag (word : String) : Bool :=
  match word.toList with
  | '-' :: _ :: _ => true
  | _ => false

/-- Reads the words after a command. -/
def read? (a : Arguments) : List String → Option Arguments
  | [] => some a
  | word :: more =>
    if word = "--" then some (more.foldl push a)
    else if isFlag word then (a.setFlag? word).bind (·.read? more)
    else (a.push word).read? more

end Arguments

/-- The command that the words of a command line give. -/
def Command.ofWords? : List String → Option Command
  | [] => none
  | name :: words => do
    let a ← Arguments.empty.read? words
    match name, a.values with
    | "compile", [spec] => return .compile a.options spec
    | "match", [spec, path] => return .tryMatch a.options spec path
    | _, _ => none

/-! ### Reports -/

/-- A slot as a JSON document; null for one without a name. -/
def slotJson : Slot → Json.Value
  | none => .null
  | some key => .object [("name", .text key.name), ("optional", .bool key.optional)]

/-- What a pattern compiles to, as a JSON document. -/
def patternJson (p : Pattern) : Json.Value :=
  .object [
    ("dynamic", .bool p.isDynamic), ("pattern", .text p.source),
    ("slots", .array (p.slots.map slotJson)), ("spec", .text p.spec)]

def paramsJson (params : Params) : Json.Value :=
  .object [
    ("named", .array (params.named.map fun p =>
      .object [("name", .text p.name), ("values", .texts p.values)])),
    ("splat", .texts params.splats)]

/-! ### Running -/

/-- How a run ends. -/
inductive Ending where
  | report (json : Json.Value)
  | noMatch (spec path : String)
  | refused (e : RouteError)
  /-- The command line cannot be read. -/
  | usage

namespace Command

def run : Command → Ending
  | .compile options spec =>
    match Pattern.compile options spec with
    | .error e => .refused e
    | .ok p => .report (patternJson p)
  | .tryMatch options spec path =>
    match Pattern.compile options spec with
    | .error e => .refused e
    | .ok p =>
      match p.captures path with
      | some params => .report (paramsJson params)
      | none => .noMatch spec path

end Command

/-- Runs a command line. -/
def run (words : List String) : Ending :=
  match Command.ofWords? words with
  | some command => command.run
  | none => .usage

/-- How the program is called. -/
def usageText : String :=
  "usage: compile SPEC | match SPEC PATH  [--case-sensitive] [--strict]\n"

namespace Ending

def code : Ending → Nat
  | .report _ => 0
  | .noMatch _ _ | .refused _ => 1
  | .usage => 2

/-- What is written to the standard output. -/
def output : Ending → String
  | .report json => json.indented 0 ++ "\n"
  | _ => ""

/-- What is written to the standard error output. -/
def complaint (ending : Ending) (words : Regex.Wording := .silent) : String :=
  match ending with
  | .report _ => ""
  | .noMatch spec path => "No match: " ++ path ++ " against " ++ spec ++ "\n"
  | .refused e => "Error: " ++ (e.record? words).getD (e.message words) ++ "\n"
  | .usage => usageText

end Ending

end RequestRouter.Cli
