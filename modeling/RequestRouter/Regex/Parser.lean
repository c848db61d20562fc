/-
  RequestRouter/Regex/Parser.lean
  ===============================
  **Expressions from their written form.**

  The reader takes the text item by item: a group is opened or closed, a branch ends, a repetition
  is put on the item before it, a character, class or assertion is added. What is open is kept on a
  stack of levels, one for each group. The effect of an item depends on the text before it only
  through that stack, so the reading of a text is the reading of its parts one after the other.
-/
import RequestRouter.Regex.Bracket
import RequestRouter.Regex.Budget

namespace RequestRouter.Regex

open RequestRouter.Unicode

/-- An expression with the number of levels in its written form. -/
structure Node where
  expr : Expr
  depth : Nat
deriving DecidableEq, Repr

/-- What a group does to the expression inside it. -/
inductive GroupKind where
  | keeping (index : Nat)
  | plain
deriving DecidableEq, Repr

/-- A group that is being read. The items of the open branch are listed newest first; `none` stands
    for a change of flags, which cannot be repeated. -/
structure Level where
  kind : GroupKind
  /-- The flags that hold again after the group. -/
  outerFlags : Flags
  branches : List Node
  items : List (Option Node)
deriving DecidableEq, Repr

/-- What the text read so far has opened. -/
structure ParserState where
  flags : Flags
  level : Level
  outer : List Level
  /-- How many groups keep their text. -/
  groups : Nat
  names : List (List Char)
deriving DecidableEq, Repr

/-- Before the first character. -/
def ParserState.initial (flags : Flags) : ParserState :=
  ⟨flags, ⟨.plain, flags, [], []⟩, [], 0, []⟩

/-! ### Levels -/

/-- The items of a branch, newest first, one after the other. -/
def sequence (items : List (Option Node)) : Node :=
  match items with
  | [] => ⟨.empty, 0⟩
  | [some n] => n
  | [none] => ⟨.empty, 0⟩
  | items =>
    let nodes := items.reverse.filterMap id
    ⟨.seqs (nodes.map (·.expr)), 1 + (nodes.map (·.depth)).foldl max 0⟩

/-- The branches of a level as one expression. -/
def Level.close (level : Level) : Node :=
  let last := sequence level.items
  match level.branches with
  | [] => last
  | branches =>
    let nodes := branches.reverse ++ [last]
    ⟨.alts (nodes.map (·.expr)), 1 + (nodes.map (·.depth)).foldl max 0⟩

/-- An item added to the open branch. -/
def ParserState.add (state : ParserState) (item : Option Node) : ParserState :=
  { state with level := { state.level with items := item :: state.level.items } }

/-- The open branch ended and another one begun. -/
def ParserState.nextBranch (state : ParserState) : ParserState :=
  let level := state.level
  { state with level := { level with branches := sequence level.items :: level.branches, items := [] } }

/-- A group begun, with the flags that hold in it. -/
def ParserState.openGroup (state : ParserState) (kind : GroupKind) (flags : Flags) : ParserState :=
  { state with flags := flags, level := ⟨kind, state.flags, [], []⟩, outer := state.level :: state.outer }

/-- The innermost group ended. -/
def ParserState.closeGroup (state : ParserState) : Except Error ParserState :=
  match state.outer with
  | [] => .error .unopenedGroup
  | level :: outer =>
    let inner := state.level.close
    let expr := match state.level.kind with
      | .keeping index => .group index inner.expr
      | .plain => inner.expr
    .ok (ParserState.add { state with flags := state.level.outerFlags, level := level, outer := outer }
      (some ⟨expr, 1 + inner.depth⟩))

/-- The last item put under a repetition. -/
def ParserState.repeatLast (state : ParserState) (least : Nat) (most : Option Nat) (greedy : Bool) :
    Except Error ParserState :=
  match state.level.items with
  | some n :: items =>
    let greedy := greedy != state.flags.swapGreed
    .ok { state with level := { state.level with
      items := some ⟨.repeated n.expr least most greedy, 1 + n.depth⟩ :: items } }
  | _ => .error .nothingToRepeat

/-! ### Counts -/

/-- A number and the blanks around it; `none` if there is no digit. -/
def readCount (extended : Bool) (cs : List Char) : Except Error (Option Nat × List Char) :=
  let cs := cs.dropWhile isSpace
  let (digits, left) := takeSpaced (fun c => '0' ≤ c && c ≤ '9') extended cs.length cs
  let (_, left) := takeSpaced isSpace extended left.length left
  if digits.isEmpty then .ok (none, left)
  else
    let n := Number.digitsValue 10 digits
    if n < 4294967296 then .ok (some n, left) else .error .badCount

/-- The counts after an opening brace: `n`, `n,` or `n,m`. -/
def readCounts (extended : Bool) (cs : List Char) :
    Except Error (Nat × Option Nat × List Char) := do
  let (least, left) ← readCount extended (skip extended cs)
  match least with
  | none => .error .badCount
  | some least =>
    match left with
    | '\x7d' :: left => .ok (least, some least, left)
    | ',' :: rest =>
      match skip extended rest with
      | '\x7d' :: left => .ok (least, none, left)
      | rest =>
        match ← readCount extended rest with
        | (some most, '\x7d' :: left) =>
          if least ≤ most then .ok (least, some most, left) else .error .badCount
        | _ => .error .badCount
    | _ => .error .badCount

/-- Whether a question mark makes the repetition reluctant, and what is left. -/
def readGreed (cs : List Char) : Bool × List Char :=
  match cs with
  | '?' :: left => (false, left)
  | _ => (true, cs)

/-! ### Groups -/

/-- A letter or `_` may start a group name. -/
def startsGroupName (c : Char) : Bool :=
  c == '_' || ((NamedTable.find? propertyTables "alphabetic").getD []).contains c.toNat

def continuesGroupName (c : Char) : Bool :=
  startsGroupName c || c == '.' || c == '[' || c == ']' ||
  ["nd", "nl", "no"].any fun name =>
    ((NamedTable.find? categoryTables name).getD []).contains c.toNat

/-- A group name to its closing angle bracket. -/
def readGroupName (cs : List Char) : Except Error (List Char × List Char) :=
  let name := cs.takeWhile (· != '>')
  match cs.dropWhile (· != '>'), name with
  | [], _ => .error .badGroupName
  | _, [] => .error .badGroupName
  | _ :: left, c :: more =>
    if startsGroupName c && more.all continuesGroupName then .ok (name, left)
    else .error .badGroupName

/-- A flag letter switched on or off. -/
def Flags.set? (flags : Flags) (c : Char) (on : Bool) : Option Flags :=
  match c with
  | 'i' => some { flags with ignoreCase := on }
  | 'm' => some { flags with multiLine := on }
  | 's' => some { flags with dotAll := on }
  | 'U' => some { flags with swapGreed := on }
  | 'u' => some { flags with unicode := on }
  | 'R' => some { flags with crlf := on }
  | 'x' => some { flags with extended := on }
  | _ => none

/-- Flag letters up to `:` or `)`, each at most once; those after a dash are switched off. -/
def readFlags (flags : Flags) (seen : List Char) : List Char → Except Error (Flags × List Char × List Char)
  | [] => .error .badFlags
  | c :: rest =>
    if c = ':' ∨ c = ')' then
      if seen.head? = some '-' then .error .badFlags else .ok (flags, seen, c :: rest)
    else if c ∈ seen then .error .badFlags
    else if c = '-' then readFlags flags ('-' :: seen) rest
    else match flags.set? c ('-' ∉ seen) with
      | some flags => readFlags flags (c :: seen) rest
      | none => .error .badFlags

/-- A group that keeps its text begun. -/
def ParserState.openKeeping (state : ParserState) : ParserState :=
  let index := state.groups + 1
  { state.openGroup (.keeping index) state.flags with groups := index }

/-- A named group begun. -/
def ParserState.openNamed (state : ParserState) (cs : List Char) :
    Except Error (ParserState × List Char) := do
  let (name, left) ← readGroupName cs
  if name ∈ state.names then .error .duplicateGroupName
  else .ok ({ state.openKeeping with names := name :: state.names }, left)

/-- What an opening parenthesis does with the text after it: a group, or a change of flags. -/
def ParserState.readOpening (state : ParserState) (cs : List Char) :
    Except Error (ParserState × List Char) :=
  match skip state.flags.extended cs with
  | '?' :: 'P' :: '<' :: rest => state.openNamed rest
  | '?' :: '=' :: _ => .error .lookAround
  | '?' :: '!' :: _ => .error .lookAround
  | '?' :: '<' :: '=' :: _ => .error .lookAround
  | '?' :: '<' :: '!' :: _ => .error .lookAround
  | '?' :: '<' :: rest => state.openNamed rest
  | '?' :: rest => do
    let (flags, seen, left) ← readFlags state.flags [] rest
    match left with
    | ':' :: left => .ok (state.openGroup .plain flags, left)
    | _ :: left =>
      if seen.isEmpty then .error .nothingToRepeat
      else .ok ({ state with flags := flags }.add none, left)
    | [] => .error .badFlags
  | cs => .ok (state.openKeeping, cs)

/-! ### Single items -/

/-- Any character but a line end, or any at all. -/
def dotSet (flags : Flags) : CharSet :=
  if flags.dotAll then .compl .none
  else if flags.crlf then .compl (.union (.single 10) (.single 13))
  else .compl (.single 10)

/-- The expression of a single item. -/
def primitiveExpr (flags : Flags) : Primitive → Except Error Expr
  | .literal c octet => do .ok (.one (← literalSet flags c octet))
  | .dot => if flags.unicode then .ok (.one (dotSet flags)) else .error .splitsCharacters
  | .look a => .ok (.look a)
  | p => do .ok (.one (← classSet flags p))

/-- What `^` asks for. -/
def startAssertion (flags : Flags) : Assertion :=
  if flags.multiLine then .lineStart flags.crlf else .textStart

/-- What `$` asks for. -/
def endAssertion (flags : Flags) : Assertion :=
  if flags.multiLine then .lineEnd flags.crlf else .textEnd

/-- An item that starts with `c`: an escape, a dot, an anchor or the character itself. -/
def readPrimitive (flags : Flags) (c : Char) (rest : List Char) :
    Except Error (Primitive × List Char) :=
  match c with
  | '\\' => readEscape flags rest
  | '.' => .ok (.dot, rest)
  | '^' => .ok (.look (startAssertion flags), rest)
  | '$' => .ok (.look (endAssertion flags), rest)
  | c => .ok (.literal c false, rest)

/-! ### Reading -/

/-- What the item that starts with `c` does, and the text that is left after it. -/
def ParserState.step (state : ParserState) (c : Char) (rest : List Char) :
    Except Error (ParserState × List Char) :=
  let flags := state.flags
  if flags.extended && isSpace c then .ok (state, rest)
  else if flags.extended && c == '#' then .ok (state, skipIgnored true rest)
  else
    match c with
    | '(' => state.readOpening rest
    | ')' => do .ok (← state.closeGroup, rest)
    | '|' => .ok (state.nextBranch, rest)
    | '[' => do
      let (part, left) ← readClass flags rest
      .ok (state.add (some ⟨.one part.set, part.depth⟩), left)
    | '?' => do
      let (greedy, left) := readGreed rest
      .ok (← state.repeatLast 0 (some 1) greedy, left)
    | '*' => do
      let (greedy, left) := readGreed rest
      .ok (← state.repeatLast 0 none greedy, left)
    | '+' => do
      let (greedy, left) := readGreed rest
      .ok (← state.repeatLast 1 none greedy, left)
    | '\x7b' => do
      let (least, most, left) ← readCounts flags.extended rest
      let (greedy, left) := readGreed (skip flags.extended left)
      .ok (← state.repeatLast least most greedy, left)
    | c => do
      let (p, left) ← readPrimitive flags c rest
      .ok (state.add (some ⟨← primitiveExpr flags p, 0⟩), left)

/-- How many characters of a text come before its last part `left`. -/
def lengthBefore : List Char → List Char → Nat
  | _ :: rest, _ :: left => lengthBefore rest left
  | rest, _ => rest.length

theorem lengthBefore_eq (rest left : List Char) :
    lengthBefore rest left = rest.length - left.length := by
  induction rest generalizing left with
  | nil => simp [lengthBefore]
  | cons c rest ih =>
    cases left with
    | nil => rfl
    | cons d left => rw [lengthBefore, ih, List.length_cons, List.length_cons, Nat.add_sub_add_right]

/-- Reads a text; the next `taken` characters are part of the item before them. -/
def ParserState.read : ParserState → Nat → List Char → Except Error ParserState
  | state, _, [] => .ok state
  | state, taken + 1, _ :: rest => state.read taken rest
  | state, 0, c :: rest =>
    match state.step c rest with
    | .error e => .error e
    | .ok (state, left) => state.read (lengthBefore rest left) rest

theorem ParserState.read_cons (state : ParserState) (c : Char) (rest : List Char) :
    state.read 0 (c :: rest) =
      match state.step c rest with
      | .error e => .error e
      | .ok (state, left) => state.read (rest.length - left.length) rest := by
  rw [ParserState.read]
  simp only [lengthBefore_eq]

/-- How many levels a written expression may have. -/
def depthLimit : Nat := 250

/-- The expression that a text is the written form of. -/
def parse (flags : Flags) (text : List Char) : Except Error Expr := do
  let state ← (ParserState.initial flags).read 0 text
  match state.outer with
  | _ :: _ => .error .unclosedGroup
  | [] =>
    let node := state.level.close
    if node.depth > depthLimit then .error .tooDeep else .ok node.expr

/-- The expression that a text is the written form of, unless it exceeds the budget. -/
def compile (budget : Budget) (flags : Flags) (text : List Char) : Except Error Expr := do
  let e ← parse flags text
  if budget.cost e > budget.limit then .error .tooLarge else .ok e

/-- What compiles is read as the expression that it compiles to. -/
theorem parse_of_compile {budget : Budget} {flags : Flags} {text : List Char} {e : Expr}
    (h : compile budget flags text = .ok e) : parse flags text = .ok e := by
  unfold compile at h
  cases hparse : parse flags text with
  | error cause =>
    rw [hparse] at h
    cases h
  | ok e' =>
    rw [hparse] at h
    simp only [bind, Except.bind] at h
    split at h
    · cases h
    · exact h

end RequestRouter.Regex
