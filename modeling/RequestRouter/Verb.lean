/-
  RequestRouter/Verb.lean
  =======================
  **The seven request methods that routes are declared for.**
-/
import RequestRouter.Text.Blank
import RequestRouter.Text.Case

namespace RequestRouter

/-- A request method that a route can be declared for. -/
inductive Verb where
  | get | post | put | delete | head | options | patch
deriving DecidableEq, Repr

namespace Verb

/-- Every verb, in the order in which tables list them. -/
def all : List Verb := [.get, .post, .put, .delete, .head, .options, .patch]

/-- The method as it is written in a request. -/
def name : Verb → String
  | .get => "GET"
  | .post => "POST"
  | .put => "PUT"
  | .delete => "DELETE"
  | .head => "HEAD"
  | .options => "OPTIONS"
  | .patch => "PATCH"

/-- Reads a method name in any ASCII case, blanks around it aside. -/
def ofText? (text : String) : Option Verb :=
  all.find? fun v => Text.sameIgnoringCase v.name (Text.trim text)

end Verb

end RequestRouter
