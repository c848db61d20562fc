/-
  RequestRouter/RouteError.lean
  =============================
  **Why a route cannot be declared.**

  Every cause arises while a table is being built; none can arise while a request is matched.
-/
import RequestRouter.Regex.Error
import RequestRouter.Text.Quoted
import RequestRouter.Verb

namespace RequestRouter

/-- Why a route cannot be declared. -/
inductive RouteError where
  /-- Parentheses or classes of the pattern do not balance. -/
  | unbalancedGroup (path pattern : String)
  | invalidPattern (path : String) (cause : Regex.Error)
  | slotMismatch (path : String) (slots groups : Nat)
  /-- A parameter whose constraint captures nothing. -/
  | orphanKey (path name : String)
  | duplicate (verb : Verb) (path : String)
  /-- The table takes no more declarations. -/
  | tableSealed (what : String)
  | unknownVerb (text : String)
deriving DecidableEq, Repr

namespace RouteError

/-- The error in words. Behind those for an invalid pattern stand the words of the engine. -/
def message (e : RouteError) (words : Regex.Wording := .silent) : String :=
  match e with
  | .unbalancedGroup path pattern =>
    "path <" ++ path ++ "> has an unmatched group in pattern <" ++ pattern ++ ">"
  | .invalidPattern path cause =>
    "path <" ++ path ++ "> compiles to an invalid pattern" ++ ((words cause).map (": " ++ ·)).getD ""
  | .slotMismatch path slots groups =>
    "path <" ++ path ++ "> declares " ++ toString slots ++
      " parameter slots but its pattern has " ++ toString groups ++ " capture groups"
  | .orphanKey path name => "parameter :" ++ name ++ " in path <" ++ path ++ "> has no capture group"
  | .duplicate verb path => "route " ++ verb.name ++ " " ++ path ++ " is already registered"
  | .tableSealed what => "cannot register " ++ what ++ ": route table is sealed"
  | .unknownVerb text => "unsupported HTTP method: " ++ text

/-- The error as a record, with its texts in quotes. That of an invalid pattern ends with what the
    engine writes for its error, and there is none without these words. -/
def record? (e : RouteError) (words : Regex.Wording := .silent) : Option String :=
  match e with
  | .unbalancedGroup path pattern =>
    some ("UnbalancedGroup \x7b path: " ++ Text.quoted path ++ ", pattern: " ++ Text.quoted pattern ++
      " \x7d")
  | .invalidPattern path cause =>
    (words cause).map fun source =>
      "InvalidPattern \x7b path: " ++ Text.quoted path ++ ", source: " ++ source ++ " \x7d"
  | .slotMismatch path slots groups =>
    some ("SlotMismatch \x7b path: " ++ Text.quoted path ++ ", slots: " ++ toString slots ++
      ", groups: " ++ toString groups ++ " \x7d")
  | .orphanKey path name =>
    some ("OrphanKey \x7b path: " ++ Text.quoted path ++ ", name: " ++ Text.quoted name ++ " \x7d")
  | .duplicate verb path =>
    some ("Duplicate \x7b verb: " ++ Text.quoted verb.name ++ ", path: " ++ Text.quoted path ++
      " \x7d")
  | .tableSealed what => some ("Sealed \x7b what: " ++ Text.quoted what ++ " \x7d")
  | .unknownVerb text => some ("UnknownVerb(" ++ Text.quoted text ++ ")")

end RouteError

end RequestRouter
