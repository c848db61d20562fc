/-
  RequestRouter/Spec/Compile.lean
  ===============================
  **From a path spec to a pattern text and its parameter slots.**

  Three passes. `substitute` writes every named token outside groups as a wrapper group around a
  capture. `spell` escapes dots and expands stars outside groups, and moves the recorded offsets of
  the wrappers with the text. `assignSlots` gives every capture group of the result a slot: the first
  one inside a wrapper belongs to its parameter, the others are anonymous.

      /users/:id       /users/(?:([^/]+?))
      /users/:id?      /users(?:/([^/]+?))?
      /report.:format  /report(?:\.([^/.]+?))
      /files/:path*    /files/(?:(.*))
      /assets/*        /assets/(.*)
-/
import RequestRouter.Regex.Budget
import RequestRouter.RouteError
import RequestRouter.Spec.Piece
import RequestRouter.Spec.Token

namespace RequestRouter

/-- The name of a parameter, and whether it may be left out. -/
structure Key where
  name : String
  optional : Bool
deriving DecidableEq, Repr

/-- What a capture group stands for: a parameter, or nothing in particular. -/
abbrev Slot := Option Key

/-- How path specs are read. -/
structure CompileOptions where
  /-- Paths that differ in letter case are different. -/
  caseSensitive : Bool := false
  /-- Paths that differ in a slash at the end are different. -/
  strict : Bool := false
  /-- What the engine lets an expression take. Nobody sets it; what is proved holds for all. -/
  budget : Regex.Budget := .standard

namespace Spec

open RequestRouter.Text

/-- A compiled path spec: the text of a pattern, and one slot for each of its capture groups. -/
structure Source where
  pattern : List Char
  slots : List Slot
deriving DecidableEq, Repr

/-- The error for parentheses or classes that do not balance. -/
def unbalanced (spec pattern : List Char) : RouteError :=
  .unbalancedGroup (String.ofList spec) (String.ofList pattern)

/-- The spec with the end that makes a slash at the end optional. -/
def withOptionalSlash (spec : List Char) : List Char :=
  if ['/', '?'].isSuffixOf spec then spec
  else if spec.getLast? = some '/' then spec ++ ['?']
  else spec ++ ['/', '?']

/-! ### Named tokens -/

/-- The offsets of the plain characters outside all groups. -/
def shallowOffsets (depth : Nat) : List (Nat × Piece) → List Nat
  | [] => []
  | (_, .opening) :: more => shallowOffsets (depth + 1) more
  | (_, .closing) :: more => shallowOffsets (depth - 1) more
  | (offset, .char _) :: more =>
    if depth = 0 then offset :: shallowOffsets depth more else shallowOffsets depth more
  | (_, .verbatim _) :: more => shallowOffsets depth more

/-- A part of the text after substitution. -/
inductive Part where
  | copied (c : Char)
  /-- A wrapper group around `inside`, after `before`. -/
  | wrapper (key : Key) (before inside : List Char)
deriving DecidableEq, Repr

namespace Part

def text : Part → List Char
  | .copied c => [c]
  | .wrapper key before inside =>
    before ++ ['(', '?', ':'] ++ inside ++ (if key.optional then [')', '?'] else [')'])

/-- The parameter of a wrapper. -/
def key? : Part → Option Key
  | .copied _ => none
  | .wrapper key _ _ => some key

end Part

/-- The capture group of a token: its constraint, the rest of the path, or one segment. -/
def captureOf (constraint : Option (List Char)) (rest dot : Bool) : List Char :=
  match constraint with
  | some constraint => constraint
  | none =>
    if rest then "(.*)".toList
    else if dot then "([^/.]+?)".toList
    else "([^/]+?)".toList

/-- The wrapper of a token. A slash before an optional parameter goes into the wrapper. What precedes
    the colon stays literal unless it stands for itself in the text. -/
def wrap (token : Token) (literalLead : Bool) : Part :=
  let dot := !literalLead && token.dot
  let slash := if !literalLead && token.slash then ['/'] else []
  let lead := if literalLead then token.lead else []
  let inside := (if dot then ['\\', '.'] else []) ++ captureOf token.constraint token.rest dot
  let key : Key := ⟨String.ofList token.name, token.optional⟩
  if token.optional then .wrapper key lead (slash ++ inside)
  else .wrapper key (lead ++ slash) inside

/-- The parts of a text, the first character at `offset`; the next `taken` characters belong to the
    part before them, and the next `held` are copied without a look for tokens. -/
def partsFrom (shallow : List Nat) : Nat → Nat → Nat → List Char → List Part
  | _, _, _, [] => []
  | offset, taken + 1, held, c :: rest =>
    partsFrom shallow (offset + c.utf8Size) taken held rest
  | offset, 0, held + 1, c :: rest =>
    .copied c :: partsFrom shallow (offset + c.utf8Size) 0 held rest
  | offset, 0, 0, c :: rest =>
    match readToken? (c :: rest) with
    | none => .copied c :: partsFrom shallow (offset + c.utf8Size) 0 0 rest
    | some token =>
      let more := token.text.length - 1
      if offset + utf8Length token.lead ∈ shallow then
        wrap token (offset ∉ shallow) :: partsFrom shallow (offset + c.utf8Size) more 0 rest
      else .copied c :: partsFrom shallow (offset + c.utf8Size) 0 more rest

/-- The offsets at which the wrapper groups of the parts open, the first part at `offset`. -/
def wrapperOffsets (offset : Nat) : List Part → List Nat
  | [] => []
  | .copied c :: more => wrapperOffsets (offset + c.utf8Size) more
  | .wrapper key before inside :: more =>
    (offset + utf8Length before) ::
      wrapperOffsets (offset + utf8Length (Part.wrapper key before inside).text) more

/-- The text with every token outside groups replaced by its wrapper, as parts. -/
def substitute (text : List Char) : Option (List Part) :=
  (pieces text).map fun ps => partsFrom (shallowOffsets 0 ps) 0 0 0 text

/-! ### Literal characters -/

/-- The pieces as text with dots escaped and stars expanded outside groups, `written` octets after
    the start; and the offsets, each moved to where its parenthesis is written. -/
def spellFrom (depth written : Nat) (offsets : List Nat) :
    List (Nat × Piece) → List Char × List Nat
  | [] => ([], offsets)
  | (at_, piece) :: more =>
    match piece with
    | .opening =>
      match offsets with
      | o :: others =>
        if o = at_ then
          let (text, moved) := spellFrom (depth + 1) (written + 1) others more
          ('(' :: text, written :: moved)
        else
          let (text, moved) := spellFrom (depth + 1) (written + 1) offsets more
          ('(' :: text, moved)
      | [] =>
        let (text, moved) := spellFrom (depth + 1) (written + 1) [] more
        ('(' :: text, moved)
    | .closing =>
      let (text, moved) := spellFrom (depth - 1) (written + 1) offsets more
      (')' :: text, moved)
    | piece =>
      let own :=
        if depth = 0 ∧ piece = .char '.' then ['\\', '.']
        else if depth = 0 ∧ piece = .char '*' then ['(', '.', '*', ')']
        else piece.text
      let (text, moved) := spellFrom depth (written + utf8Length own) offsets more
      (own ++ text, moved)

/-- The text with dots escaped and stars expanded outside groups, and the offsets moved with it. -/
def spell (text : List Char) (offsets : List Nat) : Option (List Char × List Nat) :=
  (pieces text).map (spellFrom 0 0 offsets)

/-! ### Slots -/

/-- What a parenthesis opens. -/
inductive Opener where
  | capturing
  | nonCapturing
  /-- The wrapper of a parameter. -/
  | named
deriving DecidableEq, Repr

/-- What a parenthesis opens, by the pieces after it. -/
def openerOf : List (Nat × Piece) → Opener
  | (_, .char '?') :: (_, .char 'P') :: (_, .char '<') :: _ => .capturing
  | (_, .char '?') :: (_, .char '<') :: _ => .capturing
  | (_, .char '?') :: _ => .nonCapturing
  | _ => .capturing

/-- A group outside all others: what opens it, and how many capture groups it holds, itself
    included. -/
structure TopGroup where
  opener : Opener
  captures : Nat
deriving DecidableEq, Repr

/-- The groups outside all others; `current` is the one that is open at a depth above zero. The
    result is `none` if the parentheses do not balance. -/
def topGroupsFrom (wrappers : List Nat) (depth : Nat) (current : TopGroup) :
    List (Nat × Piece) → Option (List TopGroup)
  | [] => if depth = 0 then some [] else none
  | (at_, .opening) :: more =>
    let opener := openerOf more
    if depth = 0 then
      let opener := if at_ ∈ wrappers then .named else opener
      topGroupsFrom wrappers 1 ⟨opener, if opener = .capturing then 1 else 0⟩ more
    else
      let captures := if opener = .capturing then current.captures + 1 else current.captures
      topGroupsFrom wrappers (depth + 1) { current with captures := captures } more
  | (_, .closing) :: more =>
    match depth with
    | 0 => none
    | 1 => (topGroupsFrom wrappers 0 current more).map (current :: ·)
    | depth + 2 => topGroupsFrom wrappers (depth + 1) current more
  | _ :: more => topGroupsFrom wrappers depth current more

/-- One slot for each capture group, in order; the error is the key of a wrapper that captures
    nothing, or a key without a wrapper. -/
def slotsOf : List TopGroup → List Key → Except Key (List Slot)
  | [], [] => .ok []
  | [], key :: _ => .error key
  | g :: more, keys =>
    match g.opener, keys with
    | .named, [] => slotsOf more []
    | .named, key :: keys =>
      if g.captures = 0 then .error key
      else (slotsOf more keys).map ((some key :: List.replicate (g.captures - 1) none) ++ ·)
    | _, keys => (slotsOf more keys).map (List.replicate g.captures none ++ ·)

/-- The slots of a pattern text whose wrappers open at the given offsets. -/
def assignSlots (spec pattern : List Char) (keys : List Key) (wrappers : List Nat) :
    Except RouteError (List Slot) :=
  match (pieces pattern).bind (topGroupsFrom wrappers 0 ⟨.nonCapturing, 0⟩) with
  | none => .error (unbalanced spec pattern)
  | some groups =>
    match slotsOf groups keys with
    | .ok slots => .ok slots
    | .error key => .error (.orphanKey (String.ofList spec) key.name)

/-! ### Compilation -/

/-- The pattern text and the slots of a path spec. -/
def compile (options : CompileOptions) (spec : List Char) : Except RouteError Source :=
  let text := if options.strict then spec else withOptionalSlash spec
  match substitute text with
  | none => .error (unbalanced spec text)
  | some parts =>
    let substituted := parts.flatMap Part.text
    match spell substituted (wrapperOffsets 0 parts) with
    | none => .error (unbalanced spec substituted)
    | some (pattern, wrappers) =>
      match assignSlots spec pattern (parts.filterMap Part.key?) wrappers with
      | .ok slots => .ok ⟨pattern, slots⟩
      | .error e => .error e

end Spec

end RequestRouter
