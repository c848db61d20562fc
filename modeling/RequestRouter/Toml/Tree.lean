/-
  RequestRouter/Toml/Tree.lean
  ============================
  **Tables of values, as keys and headers build them.**

  A header opens a table once; tables above it come into being on the way and may still be opened
  later. Dotted keys make tables that no header may open. An inline table is complete as it stands.
-/

namespace RequestRouter.Toml

/-- How a table came into being. -/
inductive Origin where
  /-- By a header of its own. -/
  | header
  /-- On the way to the table of a header. -/
  | passing
  /-- On the way to the last part of a dotted key. -/
  | dotted
deriving DecidableEq, Repr

/-- A value or a table. -/
inductive Node where
  | text (s : String)
  | whole (n : Int)
  | bool (b : Bool)
  /-- A number that is not whole. -/
  | float
  /-- A date, a time or both. -/
  | moment
  | array (items : List Node)
  /-- A table in braces. -/
  | inline (entries : List (String × Node))
  | table (origin : Origin) (entries : List (String × Node))
  /-- Tables under one header in double brackets, in order. -/
  | tables (elements : List (List (String × Node)))
deriving Repr

/-- The entries of a table in the order in which their keys are first seen. -/
abbrev Entries := List (String × Node)

namespace Entries

def put (key : String) (node : Node) : Entries → Entries
  | [] => []
  | (k, n) :: more => if k = key then (k, node) :: more else (k, n) :: put key node more

def has (entries : Entries) (key : String) : Bool := (entries.lookup key).isSome

def changeLast (change : Entries → Option Entries) : List Entries → Option (List Entries)
  | [] => none
  | [last] => (change last).map ([·])
  | first :: more => (changeLast change more).map (first :: ·)

/-- Assigns a value to a dotted key, given by its parts. A key has a value once; tables that are
    complete, or that a header has opened, take no dotted key. -/
def assign (value : Node) : List String → Entries → Option Entries
  | [], _ => none
  | [key], entries => if entries.has key then none else some (entries ++ [(key, value)])
  | key :: path, entries =>
    match entries.lookup key with
    | none => (assign value path []).map fun inner => entries ++ [(key, .table .dotted inner)]
    | some (.table .dotted inner) =>
      (assign value path inner).map fun inner => entries.put key (.table .dotted inner)
    | some (.table .passing inner) =>
      if path.length ≤ 1 then none
      else (assign value path inner).map fun inner => entries.put key (.table .passing inner)
    | some (.tables elements) =>
      if path.length ≤ 1 then none
      else (changeLast (assign value path) elements).map fun elements =>
        entries.put key (.tables elements)
    | some _ => none

/-- Changes the table at a path, the last one where there are several. Tables that are not there come
    into being on the way. -/
def changeAt (change : Entries → Option Entries) : List String → Entries → Option Entries
  | [], entries => change entries
  | key :: path, entries =>
    match entries.lookup key with
    | none => (changeAt change path []).map fun inner => entries ++ [(key, .table .passing inner)]
    | some (.table origin inner) =>
      (changeAt change path inner).map fun inner => entries.put key (.table origin inner)
    | some (.tables elements) =>
      (changeLast (changeAt change path) elements).map fun elements =>
        entries.put key (.tables elements)
    | some _ => none

/-- Opens the table of a key. One that came into being on the way is opened with what it holds. -/
def openTable (key : String) (entries : Entries) : Option Entries :=
  match entries.lookup key with
  | none => some (entries ++ [(key, .table .header [])])
  | some (.table .passing inner) =>
    some (entries.filter (·.1 != key) ++ [(key, .table .header inner)])
  | some _ => none

def openElement (key : String) (entries : Entries) : Option Entries :=
  match entries.lookup key with
  | none => some (entries ++ [(key, .tables [[]])])
  | some (.tables elements) => some (entries.put key (.tables (elements ++ [[]])))
  | some _ => none

end Entries

/-- A document read so far, and the path of the table that its last header has opened. -/
structure Document where
  root : Entries
  current : List String
deriving Repr

namespace Document

/-- Nothing read. -/
def empty : Document := ⟨[], []⟩

/-- Assigns a value to a dotted key in the table that is open. -/
def assign (d : Document) (path : List String) (value : Node) : Option Document :=
  (Entries.changeAt (Entries.assign value path) d.current d.root).map fun root =>
    { d with root := root }

/-- Opens the table of a header, or one more of its tables. -/
def openHeader (d : Document) (path : List String) (element : Bool) : Option Document :=
  match path.getLast? with
  | none => none
  | some key =>
    let change := if element then Entries.openElement key else Entries.openTable key
    (Entries.changeAt change path.dropLast d.root).map fun root => ⟨root, path⟩

end Document

end RequestRouter.Toml
