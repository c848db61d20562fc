/-
  RequestRouter/Http/Headers.lean
  ===============================
  **Header fields.**

  Names are kept in small letters, so a lookup ignores their case. A value holds no control character
  but the tab; only values of visible ASCII can be read as text.
-/
import RequestRouter.Text.Case

namespace RequestRouter.Http

/-- A header field: its name in small letters and its value. -/
structure Header where
  name : String
  value : String
deriving DecidableEq, Repr

/-- Header fields in the order in which they were added. -/
abbrev Headers := List Header

def isHeaderChar (c : Char) : Bool := c == '\t' || (32 ≤ c.toNat && c.toNat != 127)

/-- Whether a character of a header value can be read as text. -/
def isVisible (c : Char) : Bool := c == '\t' || (32 ≤ c.toNat && c.toNat < 127)

namespace Headers

/-- The field in place of all fields of its name. -/
def insert (headers : Headers) (name value : String) : Headers :=
  let name := Text.lower name
  headers.filter (·.name != name) ++ [⟨name, value⟩]

/-- The field after all others. -/
def append (headers : Headers) (name value : String) : Headers :=
  headers ++ [⟨Text.lower name, value⟩]

/-- The first value under a name. -/
def get? (headers : Headers) (name : String) : Option String :=
  (headers.find? (·.name == Text.lower name)).map (·.value)

/-- The first value under a name, if it can be read as text. -/
def text? (headers : Headers) (name : String) : Option String :=
  (headers.get? name).filter fun v => v.toList.all isVisible

/-- Whether one field comes before another: by name, then by value. -/
def before (a b : Header) : Bool :=
  a.name < b.name || (a.name == b.name && a.value ≤ b.value)

/-- The fields in the order of their names and values. -/
def sorted (headers : Headers) : Headers := headers.mergeSort before

end Headers

end RequestRouter.Http
