/-
  RequestRouter/Proofs/Regex/Reading.lean
  =======================================
  **The written form of an expression is read part by part.**

  `ReadsAs` says what a text adds to the branch that is being read, whatever has been read before it.
  It holds of single items by one step of the reader, and is closed under writing texts one after the
  other, in a group and under a repetition.  The indices of groups depend on how many groups were
  opened before, so the items are given as a function of that number.
-/
import Mathlib.Data.List.Basic
import RequestRouter.Regex.Parser

namespace RequestRouter.Regex

open RequestRouter.Unicode

/-- The flags of a pattern text. -/
def textFlags (ignoreCase : Bool) : Flags := { ignoreCase := ignoreCase }

@[simp] theorem extended_textFlags (ic : Bool) : (textFlags ic).extended = false := rfl

@[simp] theorem unicode_textFlags (ic : Bool) : (textFlags ic).unicode = true := rfl

@[simp] theorem ignoreCase_textFlags (ic : Bool) : (textFlags ic).ignoreCase = ic := rfl

@[simp] theorem swapGreed_textFlags (ic : Bool) : (textFlags ic).swapGreed = false := rfl

/-- The set of a single character. -/
def charSet (ic : Bool) (c : Char) : CharSet := foldIf (textFlags ic) (.ofChar c)

/-- The items of a branch, oldest first, as one item. -/
def joined (nodes : List Node) : Node := sequence (nodes.map some).reverse

namespace ParserState

/-- Items added to the open branch, of which `count` groups keep their text. -/
def push (state : ParserState) (nodes : List Node) (count : Nat) : ParserState :=
  { state with
    level := { state.level with items := (nodes.map some).reverse ++ state.level.items }
    groups := state.groups + count }

@[simp] theorem flags_push (state : ParserState) (nodes : List Node) (count : Nat) :
    (state.push nodes count).flags = state.flags := rfl

@[simp] theorem groups_push (state : ParserState) (nodes : List Node) (count : Nat) :
    (state.push nodes count).groups = state.groups + count := rfl

@[simp] theorem push_nil (state : ParserState) : state.push [] 0 = state := rfl

theorem push_push (state : ParserState) (a b : List Node) (m n : Nat) :
    (state.push a m).push b n = state.push (a ++ b) (m + n) := by
  simp [push, Nat.add_assoc]

/-! ### Steps -/

theorem read_taken (state : ParserState) (taken left : List Char) :
    state.read taken.length (taken ++ left) = state.read 0 left := by
  induction taken with
  | nil => rfl
  | cons c taken ih => exact ih

/-- An item is read in one step. -/
theorem read_of_step (taken : List Char) {state state' : ParserState} {c : Char}
    {left : List Char} (h : state.step c (taken ++ left) = .ok (state', left)) :
    state.read 0 (c :: (taken ++ left)) = state'.read 0 left := by
  have hlength : (taken ++ left).length - left.length = taken.length := by
    rw [List.length_append, Nat.add_sub_cancel]
  rw [read_cons, h]
  simp only
  rw [hlength, read_taken]

theorem step_opening (state : ParserState) (rest : List Char) :
    state.step '(' rest = state.readOpening rest := by
  have hspace : isSpace '(' = false := by decide
  have hcomment : ('(' == '#') = false := by decide
  unfold ParserState.step
  simp only [hspace, hcomment, Bool.and_false, Bool.false_eq_true, if_false]

/-- A parenthesis without a question mark after it begins a group that keeps its text. -/
theorem readOpening_of_ne {state : ParserState} {cs : List Char}
    (hextended : state.flags.extended = false) (hmark : cs.head? ≠ some '?') :
    state.readOpening cs = .ok (state.openKeeping, cs) := by
  unfold readOpening
  simp only [hextended, skip, Bool.false_eq_true, if_false]
  cases cs with
  | nil => rfl
  | cons c cs =>
    have hc : c ≠ '?' := by
      rintro rfl
      exact hmark rfl
    split
    all_goals first | rfl | exact absurd (List.cons.inj ‹_›).1 hc

end ParserState

open ParserState

/-- Reading `text`, wherever it stands, adds the items to the open branch.  A question mark may not
    follow, because it could belong to a repetition at the end. -/
def ReadsAs (ic : Bool) (text : List Char) (nodes : Nat → List Node) (count : Nat) : Prop :=
  ∀ (state : ParserState) (rest : List Char), state.flags = textFlags ic → rest.head? ≠ some '?' →
    state.read 0 (text ++ rest) = (state.push (nodes state.groups) count).read 0 rest

/-- Reading `text` adds a single item that may be repeated: whatever follows does not belong to it. -/
def ReadsItem (ic : Bool) (text : List Char) (node : Nat → Node) (count : Nat) : Prop :=
  ∀ (state : ParserState) (rest : List Char), state.flags = textFlags ic →
    state.read 0 (text ++ rest) = (state.push [node state.groups] count).read 0 rest

variable {ic : Bool}

theorem ReadsItem.readsAs {text : List Char} {node : Nat → Node} {count : Nat}
    (h : ReadsItem ic text node count) : ReadsAs ic text (fun g => [node g]) count := by
  intro state rest hflags _
  exact h state rest hflags

theorem readsAs_nil : ReadsAs ic [] (fun _ => []) 0 := by
  intro state rest _ _
  rfl

theorem ReadsAs.append {a b : List Char} {nodes nodes' : Nat → List Node} {m n : Nat}
    (ha : ReadsAs ic a nodes m) (hb : ReadsAs ic b nodes' n) (hmark : b.head? ≠ some '?') :
    ReadsAs ic (a ++ b) (fun g => nodes g ++ nodes' (g + m)) (m + n) := by
  intro state rest hflags hrest
  have hhead : (b ++ rest).head? ≠ some '?' := by
    cases b with
    | nil => exact hrest
    | cons c b => exact hmark
  have hflags' : (state.push (nodes state.groups) m).flags = textFlags ic := hflags
  rw [List.append_assoc, ha state _ hflags hhead, hb _ rest hflags' hrest, push_push, groups_push]

/-! ### Single items -/

/-- A character that stands for itself wherever it is written. -/
def Ordinary (c : Char) : Prop :=
  c ∉ ['(', ')', '|', '[', '?', '*', '+', '\x7b', '\\', '.', '^', '$']

instance : DecidablePred Ordinary := fun c =>
  inferInstanceAs (Decidable (c ∉ ['(', ')', '|', '[', '?', '*', '+', '\x7b', '\\', '.', '^', '$']))

/-- A character that stands for itself is matched as it is, or by its case orbit. -/
theorem primitiveExpr_literal {flags : Flags} (c : Char) :
    primitiveExpr flags (.literal c false) = .ok (.one (foldIf flags (.ofChar c))) := by
  have hset : literalSet flags c false = .ok (foldIf flags (.ofChar c)) := by
    unfold literalSet foldIf
    rw [Bool.and_false, Bool.false_and, if_neg Bool.false_ne_true]
    cases flags.ignoreCase <;> rfl
  change (do Except.ok (Expr.one (← literalSet flags c false))) = _
  rw [hset]
  rfl

/-- A character, escape, dot or anchor is added as it is. -/
theorem step_of_readPrimitive {state : ParserState} {c : Char} {rest left : List Char}
    {p : Primitive} {e : Expr} (hflags : state.flags = textFlags ic)
    (hc : c ∉ ['(', ')', '|', '[', '?', '*', '+', '\x7b'])
    (hp : readPrimitive (textFlags ic) c rest = .ok (p, left))
    (he : primitiveExpr (textFlags ic) p = .ok e) :
    state.step c rest = .ok (state.push [⟨e, 0⟩] 0, left) := by
  simp only [List.mem_cons, List.not_mem_nil, or_false, not_or] at hc
  obtain ⟨h1, h2, h3, h4, h5, h6, h7, h8⟩ := hc
  unfold ParserState.step
  simp only [hflags, extended_textFlags, Bool.false_and, Bool.false_eq_true, if_false]
  rw [hp]
  simp only [bind, Except.bind, he]
  rfl

theorem readsItem_char {c : Char} (hc : Ordinary c) :
    ReadsItem ic [c] (fun _ => ⟨.one (charSet ic c), 0⟩) 0 := by
  intro state rest hflags
  simp only [Ordinary, List.mem_cons, List.not_mem_nil, or_false, not_or] at hc
  obtain ⟨h1, h2, h3, h4, h5, h6, h7, h8, h9, h10, h11, h12⟩ := hc
  have hprimitive : readPrimitive (textFlags ic) c rest = .ok (.literal c false, rest) := by
    unfold readPrimitive
    split
    · exact absurd rfl h9
    · exact absurd rfl h10
    · exact absurd rfl h11
    · exact absurd rfl h12
    · rfl
  have hsyntax : c ∉ ['(', ')', '|', '[', '?', '*', '+', '\x7b'] := by
    simp only [List.mem_cons, List.not_mem_nil, or_false, not_or]
    exact ⟨h1, h2, h3, h4, h5, h6, h7, h8⟩
  apply read_of_step []
  exact step_of_readPrimitive hflags hsyntax hprimitive (primitiveExpr_literal c)

/-- An escape that stands for a set. -/
theorem readsItem_escape {c : Char} (p : Primitive) {set : CharSet}
    (hescape : ∀ rest, readEscape (textFlags ic) (c :: rest) = .ok (p, rest))
    (hset : primitiveExpr (textFlags ic) p = .ok (.one set)) :
    ReadsItem ic ['\\', c] (fun _ => ⟨.one set, 0⟩) 0 := by
  intro state rest hflags
  apply read_of_step [c]
  exact step_of_readPrimitive hflags (by decide) (hescape rest) hset

theorem readsItem_escapedDot :
    ReadsItem ic ['\\', '.'] (fun _ => ⟨.one (charSet ic '.'), 0⟩) 0 := by
  apply readsItem_escape (.literal '.' false)
  · intro rest
    rfl
  · exact primitiveExpr_literal '.'

theorem readsItem_digit : ReadsItem ic ['\\', 'd'] (fun _ => ⟨.one .digit, 0⟩) 0 := by
  apply readsItem_escape (.shorthand 'd' false)
  · intro rest
    rfl
  · cases ic <;> rfl

/-- Any character but a line end. -/
theorem readsItem_any : ReadsItem ic ['.'] (fun _ => ⟨.one (.compl (.single 10)), 0⟩) 0 := by
  intro state rest hflags
  apply read_of_step []
  exact step_of_readPrimitive hflags (by decide) rfl rfl

/-! ### Classes -/

theorem readClassFrom_taken (flags : Flags) (state : ClassState) (taken left : List Char) :
    readClassFrom flags state taken.length (taken ++ left) = readClassFrom flags state 0 left := by
  induction taken with
  | nil => rfl
  | cons c taken ih => exact ih

theorem readClassFrom_of_more {flags : Flags} {state state' : ClassState} {c : Char}
    {taken left : List Char} (h : classStep flags state c (taken ++ left) = .ok (.more state' left)) :
    readClassFrom flags state 0 (c :: (taken ++ left)) = readClassFrom flags state' 0 left := by
  have hlength : (taken ++ left).length - left.length = taken.length := by
    rw [List.length_append, Nat.add_sub_cancel]
  rw [readClassFrom, h]
  simp only
  rw [hlength, readClassFrom_taken]

/-- A class that is read to its end. -/
theorem readsItem_class {text : List Char} (part : ClassPart)
    (hclass : ∀ rest, readClass (textFlags ic) (text ++ rest) = .ok (part, rest)) :
    ReadsItem ic ('[' :: text) (fun _ => ⟨.one part.set, part.depth⟩) 0 := by
  intro state rest hflags
  apply read_of_step text
  unfold ParserState.step
  simp only [hflags, extended_textFlags, Bool.false_and, Bool.false_eq_true, if_false, hclass,
    bind, Except.bind]
  rfl

/-- Any character but a slash. -/
theorem readsItem_notSlash :
    ReadsItem ic ['[', '^', '/', ']'] (fun _ => ⟨.one (.compl (charSet ic '/')), 1⟩) 0 := by
  apply readsItem_class (⟨.compl (charSet ic '/'), 1⟩)
  intro rest
  have hopen : openClass (textFlags ic) (['^', '/', ']'] ++ rest) =
      .ok (true, [], '/' :: ']' :: rest) := rfl
  have hslash : classStep (textFlags ic) ⟨[], [.bracket true []]⟩ '/' ([] ++ ']' :: rest) =
      .ok (.more ⟨[⟨.ofChar '/', 0⟩], [.bracket true []]⟩ (']' :: rest)) := rfl
  have hclose : classStep (textFlags ic) ⟨[⟨.ofChar '/', 0⟩], [.bracket true []]⟩ ']' rest =
      .ok (.closed ⟨.compl (charSet ic '/'), 1⟩) := rfl
  simp only [readClass, hopen, bind, Except.bind, List.reverse_nil]
  refine (readClassFrom_of_more hslash).trans ?_
  rw [readClassFrom, hclose]

/-- The set of slash and dot. -/
def slashOrDot (ic : Bool) : CharSet :=
  foldIf (textFlags ic) (.unions [.ofChar '/', .ofChar '.'])

/-- Any character but a slash or a dot. -/
theorem readsItem_notSlashDot :
    ReadsItem ic ['[', '^', '/', '.', ']'] (fun _ => ⟨.one (.compl (slashOrDot ic)), 2⟩) 0 := by
  apply readsItem_class (⟨.compl (slashOrDot ic), 2⟩)
  intro rest
  have hopen : openClass (textFlags ic) (['^', '/', '.', ']'] ++ rest) =
      .ok (true, [], '/' :: '.' :: ']' :: rest) := rfl
  have hslash : classStep (textFlags ic) ⟨[], [.bracket true []]⟩ '/' ([] ++ '.' :: ']' :: rest) =
      .ok (.more ⟨[⟨.ofChar '/', 0⟩], [.bracket true []]⟩ ('.' :: ']' :: rest)) := rfl
  have hdot : classStep (textFlags ic) ⟨[⟨.ofChar '/', 0⟩], [.bracket true []]⟩ '.'
      ([] ++ ']' :: rest) =
      .ok (.more ⟨[⟨.ofChar '.', 0⟩, ⟨.ofChar '/', 0⟩], [.bracket true []]⟩ (']' :: rest)) := rfl
  have hclose : classStep (textFlags ic)
      ⟨[⟨.ofChar '.', 0⟩, ⟨.ofChar '/', 0⟩], [.bracket true []]⟩ ']' rest =
      .ok (.closed ⟨.compl (slashOrDot ic), 2⟩) := rfl
  simp only [readClass, hopen, bind, Except.bind, List.reverse_nil]
  refine (readClassFrom_of_more hslash).trans ((readClassFrom_of_more hdot).trans ?_)
  rw [readClassFrom, hclose]

/-! ### Groups and repetitions -/

/-- A group that keeps its text. -/
theorem ReadsAs.keeping {text : List Char} {nodes : Nat → List Node} {count : Nat}
    (h : ReadsAs ic text nodes count) (hmark : text.head? ≠ some '?') :
    ReadsItem ic ('(' :: (text ++ [')']))
      (fun g => ⟨.group (g + 1) (joined (nodes (g + 1))).expr, 1 + (joined (nodes (g + 1))).depth⟩)
      (count + 1) := by
  intro state rest hflags
  have hhead : (text ++ ')' :: rest).head? ≠ some '?' := by
    cases text with
    | nil => simp
    | cons c text => exact hmark
  have hopen : state.step '(' ([] ++ (text ++ ')' :: rest)) =
      .ok (state.openKeeping, text ++ ')' :: rest) :=
    (step_opening _ _).trans (readOpening_of_ne (by rw [hflags]; rfl) hhead)
  have hclose : (state.openKeeping.push (nodes (state.groups + 1)) count).step ')' ([] ++ rest) =
      .ok (state.push [⟨.group (state.groups + 1) (joined (nodes (state.groups + 1))).expr,
        1 + (joined (nodes (state.groups + 1))).depth⟩] (count + 1), rest) := by
    unfold ParserState.step
    have hflags' : (state.openKeeping.push (nodes (state.groups + 1)) count).flags =
      textFlags ic := hflags
    simp only [hflags', extended_textFlags, Bool.false_and, Bool.false_eq_true, if_false,
      List.nil_append, bind, Except.bind]
    simp [ParserState.closeGroup, ParserState.push, ParserState.openKeeping,
      ParserState.openGroup, Level.close, joined, ParserState.add]
    omega
  rw [List.cons_append, List.append_assoc, List.singleton_append]
  refine (read_of_step _ hopen).trans ?_
  rw [h state.openKeeping _ hflags (by simp)]
  exact read_of_step _ hclose

/-- A group that does not keep its text. -/
theorem ReadsAs.plain {text : List Char} {nodes : Nat → List Node} {count : Nat}
    (h : ReadsAs ic text nodes count) :
    ReadsItem ic (['(', '?', ':'] ++ text ++ [')'])
      (fun g => ⟨(joined (nodes g)).expr, 1 + (joined (nodes g)).depth⟩) count := by
  intro state rest hflags
  have hopen : state.step '(' (['?', ':'] ++ (text ++ ')' :: rest)) =
      .ok (state.openGroup .plain state.flags, text ++ ')' :: rest) := by
    unfold ParserState.step
    simp only [hflags, extended_textFlags, Bool.false_and, Bool.false_eq_true, if_false,
      ParserState.readOpening, skip]
    rfl
  have hclose : ((state.openGroup .plain state.flags).push (nodes state.groups) count).step ')'
      ([] ++ rest) =
      .ok (state.push [⟨(joined (nodes state.groups)).expr,
        1 + (joined (nodes state.groups)).depth⟩] count, rest) := by
    unfold ParserState.step
    have hflags' : ((state.openGroup .plain state.flags).push (nodes state.groups) count).flags =
      textFlags ic := hflags
    simp only [hflags', extended_textFlags, Bool.false_and, Bool.false_eq_true, if_false,
      List.nil_append, bind, Except.bind]
    simp [ParserState.closeGroup, ParserState.push, ParserState.openGroup, Level.close, joined,
      ParserState.add]
  rw [List.append_assoc, List.append_assoc, List.singleton_append, List.cons_append]
  refine (read_of_step _ hopen).trans ?_
  rw [h (state.openGroup .plain state.flags) _ hflags (by simp)]
  exact read_of_step _ hclose

/-- The marks of repetitions, with the least and the greatest number of rounds. -/
def repetitionMarks : List (Char × Nat × Option Nat) :=
  [('?', 0, some 1), ('*', 0, none), ('+', 1, none)]

theorem optional_mem : ('?', 0, some 1) ∈ repetitionMarks := by decide

theorem star_mem : ('*', 0, none) ∈ repetitionMarks := by decide

theorem plus_mem : ('+', 1, none) ∈ repetitionMarks := by decide

/-- A repetition of a single item. -/
theorem ReadsItem.repeated {text : List Char} {node : Nat → Node} {count : Nat} {mark : Char}
    {least : Nat} {most : Option Nat} (h : ReadsItem ic text node count)
    (hmark : (mark, least, most) ∈ repetitionMarks) (greedy : Bool) :
    ReadsAs ic (text ++ mark :: (if greedy then [] else ['?']))
      (fun g => [⟨.repeated (node g).expr least most greedy, 1 + (node g).depth⟩]) count := by
  intro state rest hflags hrest
  have hgreed : readGreed ((if greedy then [] else ['?']) ++ rest) = (greedy, rest) := by
    cases greedy with
    | false => rfl
    | true =>
      cases rest with
      | nil => rfl
      | cons c rest =>
        have hc : c ≠ '?' := by
          rintro rfl
          exact hrest rfl
        change readGreed (c :: rest) = _
        unfold readGreed
        split
        · exact absurd (List.cons.inj ‹_›).1 hc
        · rfl
  have hstep : (state.push [node state.groups] count).step mark
      ((if greedy then [] else ['?']) ++ rest) =
      .ok (state.push [⟨.repeated (node state.groups).expr least most greedy,
        1 + (node state.groups).depth⟩] count, rest) := by
    have hflags' : (state.push [node state.groups] count).flags = textFlags ic := hflags
    simp only [repetitionMarks, List.mem_cons, Prod.mk.injEq, List.not_mem_nil, or_false] at hmark
    unfold ParserState.step
    rcases hmark with ⟨rfl, rfl, rfl⟩ | ⟨rfl, rfl, rfl⟩ | ⟨rfl, rfl, rfl⟩
    all_goals
      simp only [hflags', extended_textFlags, Bool.false_and, Bool.false_eq_true, if_false, hgreed,
        bind, Except.bind]
      simp [ParserState.repeatLast, ParserState.push, hflags]
  rw [List.append_assoc, List.cons_append, h state _ hflags]
  exact read_of_step _ hstep

/-! ### Branches -/

theorem sequence_cons_cons (a b : Option Node) (items : List (Option Node)) :
    sequence (a :: b :: items) =
      ⟨.seqs (((a :: b :: items).reverse.filterMap id).map (·.expr)),
        1 + (((a :: b :: items).reverse.filterMap id).map (·.depth)).foldl max 0⟩ := by
  cases a <;> rfl

theorem sequence_two (items : List (Option Node)) (n m : Node) :
    sequence ((some n :: some m :: items).reverse) =
      ⟨.seqs (((some n :: some m :: items).filterMap id).map (·.expr)),
        1 + (((some n :: some m :: items).filterMap id).map (·.depth)).foldl max 0⟩ := by
  rw [sequence]
  · simp
  · simp
  · intro k hk
    have := congrArg List.length hk
    simp at this
  · intro hk
    have := congrArg List.length hk
    simp at this

/-- The items of a branch are read one after the other. -/
theorem expr_joined (nodes : List Node) : (joined nodes).expr = .seqs (nodes.map (·.expr)) := by
  rcases nodes with _ | ⟨n, _ | ⟨m, nodes⟩⟩
  · rfl
  · rfl
  · rw [joined, List.map_cons, List.map_cons, sequence_two]
    simp

theorem foldl_max_le {ns : List Nat} {start bound : Nat} (hstart : start ≤ bound)
    (h : ∀ n ∈ ns, n ≤ bound) : ns.foldl max start ≤ bound := by
  induction ns generalizing start with
  | nil => exact hstart
  | cons n ns ih =>
    apply ih (Nat.max_le.mpr ⟨hstart, h n List.mem_cons_self⟩)
    intro m hm
    exact h m (List.mem_cons_of_mem _ hm)

theorem depth_joined {nodes : List Node} {bound : Nat} (h : ∀ n ∈ nodes, n.depth ≤ bound) :
    (joined nodes).depth ≤ bound + 1 := by
  rcases nodes with _ | ⟨n, _ | ⟨m, nodes⟩⟩
  · exact Nat.zero_le _
  · have := h n List.mem_cons_self
    change n.depth ≤ bound + 1
    omega
  · rw [joined, List.map_cons, List.map_cons, sequence_two]
    have hle : (((some n :: some m :: nodes.map some).filterMap id).map (·.depth)).foldl max 0 ≤
        bound := by
      apply foldl_max_le (Nat.zero_le _)
      simpa using h
    change 1 + _ ≤ bound + 1
    omega

/-! ### Texts of expressions -/

/-- Reading `text` adds the expressions, none of them written deeper than `bound` levels. -/
def ReadsExprs (ic : Bool) (bound : Nat) (text : List Char) (exprs : Nat → List Expr)
    (count : Nat) : Prop :=
  ∃ nodes, ReadsAs ic text nodes count ∧
    ∀ g, (nodes g).map (·.expr) = exprs g ∧ ∀ n ∈ nodes g, n.depth ≤ bound

theorem readsExprs_nil (ic : Bool) (bound : Nat) : ReadsExprs ic bound [] (fun _ => []) 0 := by
  refine ⟨fun _ => [], readsAs_nil, fun g => ⟨rfl, ?_⟩⟩
  intro n hn
  cases hn

theorem ReadsItem.exprs {text : List Char} {node : Nat → Node} {e : Nat → Expr}
    {count bound : Nat} (h : ReadsItem ic text node count)
    (hnode : ∀ g, (node g).expr = e g ∧ (node g).depth ≤ bound) :
    ReadsExprs ic bound text (fun g => [e g]) count := by
  refine ⟨fun g => [node g], h.readsAs, fun g => ⟨?_, ?_⟩⟩
  · rw [List.map_singleton, (hnode g).1]
  · intro n hn
    obtain rfl := List.mem_singleton.mp hn
    exact (hnode g).2

theorem ReadsExprs.append {a b : List Char} {exprs exprs' : Nat → List Expr} {m n bound : Nat}
    (ha : ReadsExprs ic bound a exprs m) (hb : ReadsExprs ic bound b exprs' n)
    (hmark : b.head? ≠ some '?') :
    ReadsExprs ic bound (a ++ b) (fun g => exprs g ++ exprs' (g + m)) (m + n) := by
  obtain ⟨nodes, hread, hnodes⟩ := ha
  obtain ⟨nodes', hread', hnodes'⟩ := hb
  refine ⟨_, hread.append hread' hmark, fun g => ⟨?_, ?_⟩⟩
  · rw [List.map_append, (hnodes g).1, (hnodes' (g + m)).1]
  · intro k hk
    rcases List.mem_append.mp hk with hk | hk
    · exact (hnodes g).2 k hk
    · exact (hnodes' (g + m)).2 k hk

/-! ### Whole texts -/

/-- The expression of an anchored text. -/
def anchoredExpr (inner : Expr) : Expr := .seqs [.look .textStart, inner, .look .textEnd]

/-- An anchored text is read as its expressions between two anchors. -/
theorem read_anchored {text : List Char} {nodes : Nat → List Node} {count : Nat}
    (h : ReadsAs ic text nodes count) :
    ∃ state, (ParserState.initial (textFlags ic)).read 0 (['^', '(', '?', ':'] ++ text ++
        [')', '$']) = .ok state ∧ state.outer = [] ∧
      state.level.close = ⟨anchoredExpr (.seqs ((nodes 0).map (·.expr))),
        1 + (1 + (joined (nodes 0)).depth)⟩ := by
  have hexpr : (joined (nodes 0)).expr = .seqs ((nodes 0).map (·.expr)) := expr_joined _
  have hstart : ReadsItem ic ['^'] (fun _ => ⟨.look .textStart, 0⟩) 0 := by
    intro state rest hflags
    apply read_of_step []
    exact step_of_readPrimitive hflags (by decide) rfl rfl
  have hend : ReadsItem ic ['$'] (fun _ => ⟨.look .textEnd, 0⟩) 0 := by
    intro state rest hflags
    apply read_of_step []
    exact step_of_readPrimitive hflags (by decide) rfl rfl
  have hwhole := (hstart.readsAs.append h.plain.readsAs (by simp)).append hend.readsAs (by simp)
  have htext : ['^', '(', '?', ':'] ++ text ++ [')', '$'] =
      ['^'] ++ (['(', '?', ':'] ++ text ++ [')']) ++ ['$'] ++ [] := by
    simp
  have hread : (ParserState.initial (textFlags ic)).read 0 (['^', '(', '?', ':'] ++ text ++
      [')', '$']) = .ok ((ParserState.initial (textFlags ic)).push
        [⟨.look .textStart, 0⟩, ⟨.seqs ((nodes 0).map (·.expr)), 1 + (joined (nodes 0)).depth⟩,
          ⟨.look .textEnd, 0⟩] (0 + count + 0)) := by
    rw [htext, ← hexpr]
    exact hwhole (ParserState.initial (textFlags ic)) [] rfl (by simp)
  refine ⟨_, hread, rfl, ?_⟩
  simp [ParserState.push, ParserState.initial, Level.close, sequence, anchoredExpr]

/-- An anchored text that is not too deep is the written form of its expressions between anchors. -/
theorem parse_anchored {bound : Nat} {text : List Char} {exprs : Nat → List Expr} {count : Nat}
    (h : ReadsExprs ic bound text exprs count) (hbound : bound + 3 ≤ depthLimit) :
    parse (textFlags ic) (['^', '(', '?', ':'] ++ text ++ [')', '$']) =
      .ok (anchoredExpr (.seqs (exprs 0))) := by
  obtain ⟨nodes, hnodes, hexprs⟩ := h
  obtain ⟨state, hread, houter, hclose⟩ := read_anchored hnodes
  have hdepth : (joined (nodes 0)).depth ≤ bound + 1 := depth_joined (hexprs 0).2
  have hdepth' : ¬ 1 + (1 + (joined (nodes 0)).depth) > depthLimit := by omega
  rw [parse, hread]
  simp only [bind, Except.bind, houter, hclose]
  rw [if_neg hdepth', (hexprs 0).1]

end RequestRouter.Regex
