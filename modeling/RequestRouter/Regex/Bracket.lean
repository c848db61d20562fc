/-
  RequestRouter/Regex/Bracket.lean
  ================================
  **Character classes in brackets.**

  A class holds characters, ranges, escapes, named ASCII classes and further classes; `&&`, `--` and
  `~~` combine what stands on their two sides, from left to right. The reader keeps the classes and
  operators that are still open on a stack and takes the text item by item.
-/
import RequestRouter.Regex.Escape

namespace RequestRouter.Regex

open RequestRouter.Unicode

/-- A set with the number of levels of brackets and operators in its text. -/
structure ClassPart where
  set : CharSet
  depth : Nat
deriving DecidableEq, Repr

/-- What combines two sides of a class. -/
inductive ClassOperator where
  | intersection
  | difference
  | symmetricDifference
deriving DecidableEq, Repr

/-- A bracket or an operator that waits for what follows it. -/
inductive ClassFrame where
  /-- The items before the bracket, newest first, and whether the class is a complement. -/
  | bracket (negated : Bool) (outer : List ClassPart)
  | operator (op : ClassOperator) (left : ClassPart)
deriving DecidableEq, Repr

/-- The items read since the innermost frame, newest first, and the frames around them. -/
structure ClassState where
  items : List ClassPart
  frames : List ClassFrame
deriving DecidableEq, Repr

/-- What one item does: the whole class is read, or reading goes on with the text that is left. -/
inductive ClassStep where
  | closed (part : ClassPart)
  | more (state : ClassState) (left : List Char)
deriving DecidableEq, Repr

/-! ### Items -/

def joinItems : List ClassPart → ClassPart
  | [] => ⟨.none, 0⟩
  | [p] => p
  | items => ⟨.unions (items.reverse.map (·.set)), 1 + (items.map (·.depth)).foldl max 0⟩

def classLiteral (flags : Flags) (c : Char) : Except Error CharSet :=
  if !flags.unicode && c.toNat > 127 then .error .splitsCharacters else .ok (.ofChar c)

def asciiClass? (name : List Char) : Option CharSet :=
  let upper := CharSet.range 65 90
  let lower := CharSet.range 97 122
  let digits := CharSet.range 48 57
  let alpha := CharSet.union upper lower
  let named : List (String × CharSet) :=
    [("alnum", .union digits alpha), ("alpha", alpha), ("ascii", .range 0 127),
     ("blank", .union (.single 9) (.single 32)), ("cntrl", .union (.range 0 31) (.single 127)),
     ("digit", digits), ("graph", .range 33 126), ("lower", lower), ("print", .range 32 126),
     ("punct", .unions [.range 33 47, .range 58 64, .range 91 96, .range 123 126]),
     ("space", .union (.range 9 13) (.single 32)), ("upper", upper),
     ("word", .unions [digits, alpha, .single 95]),
     ("xdigit", .unions [digits, .range 65 70, .range 97 102])]
  named.lookup (String.ofList name)

/-- A named class such as `[:alpha:]`, after its bracket; `none` if the text is no such class. -/
def readAsciiClass? (cs : List Char) : Option (CharSet × Bool × List Char) :=
  match cs with
  | ':' :: rest =>
    let (negated, rest) := match rest with
      | '^' :: more => (true, more)
      | _ => (false, rest)
    match rest.dropWhile (· != ':') with
    | ':' :: ']' :: left =>
      (asciiClass? (rest.takeWhile (· != ':'))).map fun set => (set, negated, left)
    | _ => none
  | _ => none

/-- What a class holds from its bracket on: whether it is a complement, the characters that are
    literal only because they come first, and the text that is left. -/
def openClass (flags : Flags) (cs : List Char) :
    Except Error (Bool × List ClassPart × List Char) :=
  let cs := skip flags.extended cs
  let (negated, cs) := match cs with
    | '^' :: rest => (true, skip flags.extended rest)
    | _ => (false, cs)
  let (dashes, cs) := takeSpaced (· == '-') flags.extended cs.length cs
  let (first, cs) := match dashes, cs with
    | [], ']' :: rest => ([']'], skip flags.extended rest)
    | _, _ => (dashes, cs)
  if cs.isEmpty then .error .unclosedClass
  else .ok (negated, first.map fun c => ⟨.ofChar c, 0⟩, cs)

/-- The next character after blanks and a comment mark. -/
def peekSpaced (extended : Bool) (cs : List Char) : Option Char :=
  if !extended then cs.head?
  else match cs.dropWhile isSpace with
    | '#' :: rest => (rest.dropWhile isSpace).head?
    | left => left.head?

def readClassItem (flags : Flags) : List Char → Except Error (Primitive × List Char)
  | [] => .error .unclosedClass
  | '\\' :: rest => readEscape flags rest
  | c :: rest => .ok (.literal c false, rest)

/-- The end of a range; only characters can be one. -/
def rangeEnd (flags : Flags) : Primitive → Except Error Char
  | .literal c octet => do
    let _ ← classLiteral flags c
    if !flags.unicode && octet && c.toNat > 127 then .error .splitsCharacters else .ok c
  | _ => .error .badClassItem

def itemSet (flags : Flags) : Primitive → Except Error CharSet
  | .literal c _ => classLiteral flags c
  | p => classSet flags p

/-- A range or a single item. A dash before a bracket or another dash makes no range. -/
def readRange (flags : Flags) (cs : List Char) : Except Error (CharSet × List Char) := do
  let (first, left) ← readClassItem flags cs
  match skip flags.extended left with
  | [] => .error .unclosedClass
  | '-' :: rest =>
    let next := peekSpaced flags.extended rest
    if next == some ']' || next == some '-' then .ok (← itemSet flags first, '-' :: rest)
    else
      match skip flags.extended rest with
      | [] => .error .unclosedClass
      | rest =>
        let (last, left) ← readClassItem flags rest
        let a ← rangeEnd flags first
        let b ← rangeEnd flags last
        if a ≤ b then .ok (.between a b, left) else .error .badClassItem
  | left => .ok (← itemSet flags first, left)

/-! ### Brackets and operators -/

/-- Both sides of an operator combined, each closed under case first. -/
def combine (flags : Flags) (op : ClassOperator) (left right : ClassPart) : ClassPart :=
  let a := foldIf flags left.set
  let b := foldIf flags right.set
  let set := match op with
    | .intersection => CharSet.inter a b
    | .difference => .diff a b
    | .symmetricDifference => .symmDiff a b
  ⟨set, 1 + max left.depth right.depth⟩

/-- The items since the bracket as the right side of the operator before them, if there is one. -/
def closeOperator (flags : Flags) (state : ClassState) : ClassPart × List ClassFrame :=
  let right := joinItems state.items
  match state.frames with
  | .operator op left :: frames => (combine flags op left right, frames)
  | frames => (right, frames)

def closeBracket (flags : Flags) (state : ClassState) (left : List Char) :
    Except Error ClassStep := do
  let (part, frames) := closeOperator flags state
  match frames with
  | .bracket negated outer :: frames =>
    let set ← negateIf flags negated (foldIf flags part.set)
    let part : ClassPart := ⟨set, 1 + part.depth⟩
    match frames with
    | [] => .ok (.closed part)
    | frames => .ok (.more ⟨part :: outer, frames⟩ left)
  | _ => .error .unclosedClass

def openOperator (flags : Flags) (op : ClassOperator) (state : ClassState) : ClassState :=
  let (left, frames) := closeOperator flags state
  ⟨[], .operator op left :: frames⟩

/-- What the item that starts with `c` does. -/
def classStep (flags : Flags) (state : ClassState) (c : Char) (rest : List Char) :
    Except Error ClassStep :=
  if flags.extended && isSpace c then .ok (.more state rest)
  else if flags.extended && c == '#' then .ok (.more state (skipIgnored true rest))
  else if c = '[' then
    match readAsciiClass? rest with
    | some (set, negated, left) => do
      let set ← negateIf flags negated (foldIf flags set)
      .ok (.more { state with items := ⟨set, 0⟩ :: state.items } left)
    | none => do
      let (negated, first, left) ← openClass flags rest
      .ok (.more ⟨first.reverse, .bracket negated state.items :: state.frames⟩ left)
  else if c = ']' then closeBracket flags state rest
  else
    match c, rest with
    | '&', '&' :: left => .ok (.more (openOperator flags .intersection state) left)
    | '-', '-' :: left => .ok (.more (openOperator flags .difference state) left)
    | '~', '~' :: left => .ok (.more (openOperator flags .symmetricDifference state) left)
    | _, _ => do
      let (set, left) ← readRange flags (c :: rest)
      .ok (.more { state with items := ⟨set, 0⟩ :: state.items } left)

/-- Reads a class to its end; the next `taken` characters are part of the item before them. -/
def readClassFrom (flags : Flags) :
    ClassState → Nat → List Char → Except Error (ClassPart × List Char)
  | _, _, [] => .error .unclosedClass
  | state, taken + 1, _ :: rest => readClassFrom flags state taken rest
  | state, 0, c :: rest =>
    match classStep flags state c rest with
    | .error e => .error e
    | .ok (.closed part) => .ok (part, rest)
    | .ok (.more state left) => readClassFrom flags state (rest.length - left.length) rest

/-- The class after an opening bracket, and what is left. -/
def readClass (flags : Flags) (cs : List Char) : Except Error (ClassPart × List Char) := do
  let (negated, first, left) ← openClass flags cs
  readClassFrom flags ⟨first.reverse, [.bracket negated []]⟩ 0 left

end RequestRouter.Regex
