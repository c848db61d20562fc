/-
  RequestRouter/Proofs/Pattern/Expression.lean
  ============================================
  **The expression of a laid spec.**

  The pattern of each element is read as expressions of its own, whatever stands around it.  The
  expression of a laid spec is therefore the sequence of those of its elements, and a laid spec is
  refused for its cost only (`compile_laid`).
-/
import RequestRouter.Pattern
import RequestRouter.Proofs.Regex.Takes
import RequestRouter.Proofs.Spec.Element

namespace RequestRouter.Spec

open RequestRouter.Regex RequestRouter.Unicode

/-- Any character but a line end. -/
def lineSet : CharSet := .compl (.single 10)

namespace Element

variable (ic : Bool)

/-- The capture of a parameter. -/
def captureExpr (t : Token) : Expr :=
  if t.rest then .rounds (.one lineSet) 0 none true
  else .rounds (.one (.compl (if t.dot then slashOrDot ic else charSet ic '/'))) 1 none false

/-- The slash and the dot that a parameter takes besides its own text. -/
def leadExprs (t : Token) : List Expr :=
  (if t.slash && t.optional then [.one (charSet ic '/')] else []) ++
    if t.dot then [.one (charSet ic '.')] else []

/-- What the wrapper of a parameter takes when `g` groups came before it. -/
def insideExpr (g : Nat) (t : Token) : Expr :=
  .seqs (leadExprs ic t ++ [.group (g + 1) (captureExpr ic t)])

/-- The expressions of the element when `g` groups came before it. -/
def exprs (g : Nat) : Element → List Expr
  | .char c => [.one (charSet ic c)]
  | .digits => [.group (g + 1) (.rounds (.one .digit) 1 none true)]
  | .star => [.group (g + 1) (.rounds (.one lineSet) 0 none true)]
  | .optionalSlash => [.rounds (.one (charSet ic '/')) 0 (some 1) true]
  | .param t =>
    (if t.slash && !t.optional then [.one (charSet ic '/')] else []) ++
      [if t.optional then .rounds (insideExpr ic g t) 0 (some 1) true else insideExpr ic g t]

end Element

open Element

/-- The expressions of elements when `g` groups came before them. -/
def exprsFrom (ic : Bool) : Nat → List Element → List Expr
  | _, [] => []
  | g, e :: es => e.exprs ic g ++ exprsFrom ic (g + e.slots.length) es

variable {ic : Bool}

theorem exprsFrom_append (g : Nat) (a b : List Element) :
    exprsFrom ic g (a ++ b) = exprsFrom ic g a ++ exprsFrom ic (g + (a.flatMap slots).length) b := by
  induction a generalizing g with
  | nil => rfl
  | cons e a ih =>
    rw [List.cons_append, exprsFrom, exprsFrom, ih, List.append_assoc, List.flatMap_cons,
      List.length_append, Nat.add_assoc]

/-! ### Reading the pattern of an element -/

theorem reads_char {bound : Nat} {c : Char} (h : Ordinary c) :
    ReadsExprs ic bound [c] (fun _ => [.one (charSet ic c)]) 0 :=
  (readsItem_char h).exprs fun _ => ⟨rfl, Nat.zero_le _⟩

theorem reads_escapedDot {bound : Nat} :
    ReadsExprs ic bound ['\\', '.'] (fun _ => [.one (charSet ic '.')]) 0 :=
  readsItem_escapedDot.exprs fun _ => ⟨rfl, Nat.zero_le _⟩

theorem ordinary_of_literal {c : Char} (h : Literal c) (hdot : c ≠ '.') : Ordinary c := by
  simp only [Literal, List.mem_cons, List.not_mem_nil, or_false, not_or] at h
  simp [Ordinary, h, hdot]

/-- A run of single items, kept as a group. -/
theorem readsItem_run {text : List Char} {set : CharSet} {depth : Nat} {mark : Char} {least : Nat}
    (h : ReadsItem ic text (fun _ => ⟨.one set, depth⟩) 0) (hdepth : depth ≤ 2)
    (hmark : (mark, least, none) ∈ repetitionMarks) (greedy : Bool)
    (hhead : (text ++ mark :: (if greedy then [] else ['?'])).head? ≠ some '?') :
    ∃ node, ReadsItem ic ('(' :: ((text ++ mark :: (if greedy then [] else ['?'])) ++ [')'])) node 1 ∧
      ∀ g, (node g).expr = .group (g + 1) (.rounds (.one set) least none greedy) ∧
        (node g).depth ≤ 5 := by
  refine ⟨_, (h.repeated hmark greedy).keeping hhead, fun g => ⟨rfl, ?_⟩⟩
  change 1 + (1 + depth) ≤ 5
  omega

theorem readsItem_capture (ic : Bool) (t : Token) :
    ∃ node, ReadsItem ic (textOf (capturePieces t)) node 1 ∧
      ∀ g, (node g).expr = .group (g + 1) (captureExpr ic t) ∧ (node g).depth ≤ 5 := by
  obtain ⟨slash, dot, name, constraint, optional, rest⟩ := t
  cases rest with
  | true =>
    exact readsItem_run readsItem_any (by omega) star_mem true (by decide)
  | false =>
    cases dot with
    | true =>
      exact readsItem_run readsItem_notSlashDot (by omega) plus_mem false (by decide)
    | false =>
      exact readsItem_run readsItem_notSlash (by omega) plus_mem false (by decide)

theorem reads_lead (ic : Bool) {bound : Nat} (t : Token) :
    ReadsExprs ic bound (textOf (leadInside t)) (fun _ => leadExprs ic t) 0 := by
  have hslash : ReadsExprs ic bound ['/'] (fun _ => [.one (charSet ic '/')]) 0 :=
    reads_char (by decide)
  unfold leadInside leadExprs
  cases hs : (t.slash && t.optional) with
  | true =>
    cases t.dot with
    | true => exact hslash.append reads_escapedDot (by decide)
    | false => exact hslash
  | false =>
    cases t.dot with
    | true => exact reads_escapedDot
    | false => exact readsExprs_nil ic bound

/-- The wrapper of a parameter without the mark after it. -/
theorem readsItem_wrapper (ic : Bool) (t : Token) :
    ∃ node, ReadsItem ic (['(', '?', ':'] ++ textOf (leadInside t ++ capturePieces t) ++ [')']) node 1 ∧
      ∀ g, (node g).expr = insideExpr ic g t ∧ (node g).depth ≤ 7 := by
  obtain ⟨node, hnode, hexpr⟩ := readsItem_capture ic t
  have hhead : (textOf (capturePieces t)).head? ≠ some '?' := by
    unfold capturePieces
    split
    · decide
    · split <;> decide
  obtain ⟨nodes, hread, hnodes⟩ := (reads_lead ic t).append (hnode.exprs hexpr) hhead
  rw [← textOf_append, Nat.zero_add] at hread
  refine ⟨_, hread.plain, fun g => ⟨?_, ?_⟩⟩
  · change (joined (nodes g)).expr = _
    rw [expr_joined, (hnodes g).1]
    rfl
  · have := depth_joined (hnodes g).2
    change 1 + (joined (nodes g)).depth ≤ 7
    omega

theorem reads_slashBefore (ic : Bool) {bound : Nat} (t : Token) :
    ReadsExprs ic bound (textOf (slashBefore t))
      (fun _ => if t.slash && !t.optional then [.one (charSet ic '/')] else []) 0 := by
  unfold slashBefore
  split
  · exact reads_char (by decide)
  · exact readsExprs_nil ic bound

theorem readsNothing_insideExpr (g : Nat) (t : Token) : (insideExpr ic g t).readsNothing = false := by
  obtain ⟨slash, dot, name, constraint, optional, rest⟩ := t
  cases slash <;> cases dot <;> cases optional <;> cases rest <;> rfl

/-- The wrapper of a parameter. -/
theorem reads_wrapper (t : Token) :
    ReadsExprs ic 8 (textOf (wrapperPieces t)) (fun g =>
      [if t.optional then .rounds (insideExpr ic g t) 0 (some 1) true else insideExpr ic g t]) 1 := by
  obtain ⟨node, hnode, hexpr⟩ := readsItem_wrapper ic t
  cases hoptional : t.optional with
  | false =>
    have htext : textOf (wrapperPieces t) =
        ['(', '?', ':'] ++ textOf (leadInside t ++ capturePieces t) ++ [')'] := by
      simp [wrapperPieces, hoptional, Piece.text]
    rw [htext]
    exact hnode.exprs fun g => ⟨(hexpr g).1, (hexpr g).2.trans (by omega)⟩
  | true =>
    have htext : textOf (wrapperPieces t) =
        ['(', '?', ':'] ++ textOf (leadInside t ++ capturePieces t) ++ [')'] ++ ['?'] := by
      simp [wrapperPieces, hoptional, Piece.text]
    rw [htext]
    refine ⟨_, hnode.repeated optional_mem true,
      fun g => ⟨?_, ?_⟩⟩
    · simp [(hexpr g).1, Expr.repeated, readsNothing_insideExpr]
    · intro n hn
      obtain rfl := List.mem_singleton.mp hn
      have := (hexpr g).2
      change 1 + (node g).depth ≤ 8
      omega

/-- **The pattern of an element is read as its expressions.** -/
theorem Element.Stands.reads {e : Element} {rest : List Char} (h : e.Stands rest) :
    ReadsExprs ic 8 (textOf e.pattern) (e.exprs ic) e.slots.length := by
  cases e with
  | char c =>
    by_cases hdot : c = '.'
    · subst hdot
      exact reads_escapedDot
    · simp only [Element.pattern, hdot, if_false]
      exact reads_char (ordinary_of_literal h.1 hdot)
  | digits =>
    obtain ⟨node, hnode, hexpr⟩ := readsItem_run (readsItem_digit : ReadsItem ic _ _ _) (by omega)
      plus_mem true (by decide)
    exact hnode.exprs fun g => ⟨(hexpr g).1, (hexpr g).2.trans (by omega)⟩
  | star =>
    obtain ⟨node, hnode, hexpr⟩ := readsItem_run (readsItem_any : ReadsItem ic _ _ _) (by omega)
      star_mem true (by decide)
    exact hnode.exprs fun g => ⟨(hexpr g).1, (hexpr g).2.trans (by omega)⟩
  | optionalSlash =>
    have hslash : ReadsItem ic ['/'] (fun _ => ⟨.one (charSet ic '/'), 0⟩) 0 :=
      readsItem_char (by decide)
    refine ⟨_, hslash.repeated optional_mem true,
      fun g => ⟨rfl, ?_⟩⟩
    intro n hn
    obtain rfl := List.mem_singleton.mp hn
    change 1 + 0 ≤ 8
    omega
  | param t =>
    rw [pattern_param, textOf_append]
    have hhead : (textOf (wrapperPieces t)).head? ≠ some '?' := by simp [wrapperPieces, Piece.text]
    have hwhole := (reads_slashBefore ic t).append (reads_wrapper t) hhead
    rwa [Nat.zero_add] at hwhole

theorem Element.Stands.head?_pattern {e : Element} {rest : List Char} (h : e.Stands rest)
    (more : List Char) : (textOf e.pattern ++ more).head? ≠ some '?' := by
  cases e with
  | char c =>
    have hc : c ≠ '?' := by
      rintro rfl
      exact absurd h.1 (by decide)
    rw [Element.pattern]
    split <;> simp [Piece.text, hc]
  | digits => simp [Element.pattern, Element.substituted, Element.pieces, Piece.text]
  | star => simp [Element.pattern, Piece.text]
  | optionalSlash => simp [Element.pattern, Element.substituted, Element.pieces, Piece.text]
  | param t =>
    rw [pattern_param, textOf_append, textOf_slashBefore]
    split <;> simp [wrapperPieces, Piece.text]

/-- The pattern of a laid spec is read as the expressions of its elements. -/
theorem reads_laid (ic : Bool) {es : List Element} (h : Standable es) :
    ReadsExprs ic 8 (textOf (es.flatMap Element.pattern)) (fun g => exprsFrom ic g es)
      (es.flatMap Element.slots).length := by
  induction es with
  | nil => exact readsExprs_nil ic 8
  | cons e es ih =>
    have hes : Standable es := fun d hd => h d (List.mem_cons_of_mem _ hd)
    obtain ⟨rest, hstands⟩ := h e List.mem_cons_self
    rw [List.flatMap_cons, List.flatMap_cons, textOf_append, List.length_append]
    apply hstands.reads.append (ih hes)
    cases es with
    | nil => simp
    | cons e' es =>
      obtain ⟨rest', hstands'⟩ := hes e' List.mem_cons_self
      rw [List.flatMap_cons, textOf_append]
      exact hstands'.head?_pattern _

/-! ### Groups -/

theorem groupCount_insideExpr (g : Nat) (t : Token) : (insideExpr ic g t).groupCount = g + 1 := by
  have hcapture : (captureExpr ic t).groupCount = 0 := by
    unfold captureExpr
    split <;> rfl
  have hgroup : (Expr.group (g + 1) (captureExpr ic t)).groupCount = g + 1 := by
    rw [Expr.groupCount, hcapture, Nat.max_zero]
  have hlead : (leadExprs ic t).map Expr.groupCount = (leadExprs ic t).map fun _ => 0 := by
    unfold leadExprs
    split <;> split <;> rfl
  rw [insideExpr, groupCount_seqs, List.map_append, hlead, List.foldl_append]
  have hzero : ((leadExprs ic t).map fun _ => 0).foldl max 0 = 0 := by
    unfold leadExprs
    split <;> split <;> rfl
  rw [hzero, List.map_singleton, hgroup, List.foldl_cons, List.foldl_nil, Nat.zero_max]

/-- An element without a slot has no group, and the group of a slot is the next one. -/
theorem Element.groupCount_exprs (e : Element) {g m : Nat} (hm : m ≤ g) :
    ((e.exprs ic g).map Expr.groupCount).foldl max m =
      if e.slots = [] then m else g + e.slots.length := by
  cases e with
  | char c => simp [Element.exprs, Element.slots, Expr.groupCount]
  | digits =>
    simp [Element.exprs, Element.slots, Expr.groupCount]
    omega
  | star =>
    simp [Element.exprs, Element.slots, Expr.groupCount]
    omega
  | optionalSlash => simp [Element.exprs, Element.slots, Expr.groupCount]
  | param t =>
    rw [Element.exprs, List.map_append, List.foldl_append]
    have hslash : ((if t.slash && !t.optional then [Expr.one (charSet ic '/')] else []).map
        Expr.groupCount).foldl max m = m := by
      split <;> simp [Expr.groupCount]
    have hwrapper : (if t.optional = true then Expr.rounds (insideExpr ic g t) 0 (some 1) true
        else insideExpr ic g t).groupCount = g + 1 := by
      split
      · rw [Expr.groupCount, groupCount_insideExpr]
      · exact groupCount_insideExpr g t
    rw [hslash, List.map_singleton, hwrapper]
    simp [Element.slots]
    omega

theorem groupCount_exprsFrom (es : List Element) {g m : Nat} (hm : m ≤ g) :
    ((exprsFrom ic g es).map Expr.groupCount).foldl max m =
      if es.flatMap Element.slots = [] then m else g + (es.flatMap Element.slots).length := by
  induction es generalizing g m with
  | nil => rfl
  | cons e es ih =>
    rw [exprsFrom, List.map_append, List.foldl_append, e.groupCount_exprs hm]
    by_cases he : e.slots = []
    · rw [if_pos he, ih (by omega)]
      simp [he]
    · rw [if_neg he, ih (Nat.le_refl _)]
      by_cases hes : es.flatMap Element.slots = []
      · simp [he, hes]
      · simp [he, hes]
        omega

theorem groupCount_laid (es : List Element) :
    (anchoredExpr (.seqs (exprsFrom ic 0 es))).groupCount = (es.flatMap Element.slots).length := by
  have hmax : (anchoredExpr (.seqs (exprsFrom ic 0 es))).groupCount =
      (Expr.seqs (exprsFrom ic 0 es)).groupCount := by
    simp [anchoredExpr, Expr.seqs, Expr.groupCount]
  rw [hmax, groupCount_seqs, groupCount_exprsFrom es (Nat.le_refl 0)]
  split
  · next h => rw [h]; rfl
  · exact Nat.zero_add _

end RequestRouter.Spec

namespace RequestRouter.Pattern

open RequestRouter.Regex RequestRouter.Spec

/-- The pattern of a laid spec. -/
def ofElements (options : CompileOptions) (spec : String) (es : List Element) : Pattern :=
  ⟨spec, String.ofList (anchored (textOf (es.flatMap Element.pattern))),
    anchoredExpr (.seqs (exprsFrom (!options.caseSensitive) 0 es)), es.flatMap Element.slots⟩

/-- **A laid spec is refused for its cost only.** -/
theorem compile_laid {options : CompileOptions} {spec : String} {es : List Element}
    (h : Laid es) (htext : textFor options spec.toList = es.flatMap Element.text) :
    compile options spec =
      if options.budget.cost (ofElements options spec es).expr > options.budget.limit then
        .error (.invalidPattern spec .tooLarge)
      else .ok (ofElements options spec es) := by
  have hparse : Regex.parse { ignoreCase := !options.caseSensitive }
      (anchored (textOf (es.flatMap Element.pattern))) = .ok (ofElements options spec es).expr :=
    parse_anchored (reads_laid (!options.caseSensitive) h.standable) (by decide)
  rw [compile, Spec.compile_laid h htext]
  simp only [Regex.compile, hparse, bind, Except.bind]
  by_cases hcost : options.budget.cost (ofElements options spec es).expr > options.budget.limit
  · rw [if_pos hcost, if_pos hcost]
  · rw [if_neg hcost, if_neg hcost]
    simp only
    rw [ofElements, if_pos (groupCount_laid es)]

end RequestRouter.Pattern
