/-
  RequestRouter/Proofs/Pattern/Cost.lean
  ======================================
  **What the expression of a laid spec costs.**

  What an engine takes for an expression is known by a few bounds only (`Budget.Usual`): a sequence
  costs no more than its parts, and each part that a spec can ask for costs no more than a constant.
  The costs then add up along the spec.  A character and a parameter cost less than 1040 octets for
  each character of their text, a group of digits and a star cost more; where a character stands for
  each of these (`Spread`), it makes up for them, and a spec of at most 10000 characters stays within
  ten mebioctets (`cost_laid`).  The standard budget keeps the bounds (`Budget.usual_standard`).
-/
import RequestRouter.Proofs.Pattern.Expression

namespace RequestRouter.Regex

open RequestRouter.Spec RequestRouter.Unicode

/-- The budget of an engine with the usual costs, in octets. -/
structure Budget.Usual (b : Budget) : Prop where
  limit : 10485760 ≤ b.limit
  empty : b.cost .empty ≤ 128
  look : ∀ assertion, b.cost (.look assertion) ≤ 128
  seq : ∀ e f, b.cost (.seq e f) ≤ b.cost e + b.cost f
  group : ∀ index e, b.cost (.group index e) ≤ b.cost e + 128
  optional : ∀ e greedy, b.cost (.rounds e 0 (some 1) greedy) ≤ b.cost e + 128
  /-- A repetition without an upper bound, of one character each round. -/
  many : ∀ set least greedy, least ≤ 1 →
    b.cost (.rounds (.one set) least none greedy) ≤ b.cost (.one set) + 128
  letter : ∀ ic c, b.cost (.one (charSet ic c)) ≤ 600
  digit : b.cost (.one .digit) ≤ 5300
  line : b.cost (.one lineSet) ≤ 1200
  segment : ∀ ic, b.cost (.one (.compl (charSet ic '/'))) ≤ 1200
  segmentPart : ∀ ic, b.cost (.one (.compl (slashOrDot ic))) ≤ 1200

theorem octetSequences_single (n : Nat) : octetSequences [(n, n)] = 1 := by
  have hcount : octetBounds.countP (fun bound => n ≤ bound && bound < n) = 0 :=
    List.countP_eq_zero.mpr fun bound _ => by simp
  change 1 + octetBounds.countP (fun bound => n ≤ bound && bound < n) + 0 = 1
  rw [hcount]

theorem size_letter (c : Char) : (Expr.one (charSet true c)).size = 204 := by
  change 64 + 70 * (octetSequences [(c.toNat, c.toNat)] + 1) = 204
  rw [octetSequences_single]

theorem size_letter_le (ic : Bool) (c : Char) : (Expr.one (charSet ic c)).size ≤ 204 := by
  cases ic with
  | true => exact (size_letter c).le
  | false =>
    change 64 + 70 * octetSequences [(c.toNat, c.toNat)] ≤ 204
    rw [octetSequences_single]
    omega

/-- The standard budget is that of an engine with the usual costs. -/
theorem Budget.usual_standard : Budget.standard.Usual where
  limit := Nat.le_refl _
  empty := Nat.zero_le _
  look _ := (by decide : 32 ≤ 128)
  seq _ _ := Nat.le_refl _
  group index e := by
    change 64 + e.size ≤ e.size + 128
    omega
  optional e greedy := by
    change 64 + e.size * 1 ≤ e.size + 128
    omega
  many set least greedy hleast := by
    have hrounds : max 1 least = 1 := by omega
    change 64 + (Expr.one set).size * max 1 least ≤ (Expr.one set).size + 128
    rw [hrounds]
    omega
  letter ic c := (size_letter_le ic c).trans (by decide)
  digit := by decide +kernel
  line := by decide +kernel
  segment := by decide +kernel
  segmentPart := by decide +kernel

/-! ### Sequences -/

namespace Budget

@[simp] theorem costs_nil (b : Budget) : b.costs [] = 0 := rfl

@[simp] theorem costs_cons (b : Budget) (e : Expr) (es : List Expr) :
    b.costs (e :: es) = b.cost e + b.costs es := rfl

@[simp] theorem costs_append (b : Budget) (es fs : List Expr) :
    b.costs (es ++ fs) = b.costs es + b.costs fs := by
  induction es with
  | nil => exact (Nat.zero_add _).symm
  | cons e es ih => rw [List.cons_append, costs_cons, costs_cons, ih, Nat.add_assoc]

end Budget

namespace Budget.Usual

variable {b : Budget} (h : b.Usual)

include h

theorem cost_foldl (es : List Expr) (e : Expr) :
    b.cost (es.foldl .seq e) ≤ b.cost e + b.costs es := by
  induction es generalizing e with
  | nil => exact Nat.le_refl _
  | cons f es ih =>
    have hseq := h.seq e f
    have hmore := ih (.seq e f)
    rw [List.foldl_cons, costs_cons]
    omega

theorem cost_seqs (es : List Expr) : b.cost (.seqs es) ≤ b.costs es + 128 := by
  cases es with
  | nil => exact h.empty
  | cons e es =>
    have hfold := h.cost_foldl es e
    rw [Expr.seqs, costs_cons]
    omega

theorem cost_anchoredExpr (e : Expr) : b.cost (anchoredExpr e) ≤ b.cost e + 384 := by
  have hseqs := h.cost_seqs [.look .textStart, e, .look .textEnd]
  have hstart := h.look .textStart
  have hend := h.look .textEnd
  simp only [costs_cons, costs_nil] at hseqs
  rw [anchoredExpr]
  omega

/-- A group around a repetition of single characters. -/
theorem cost_run {set : CharSet} {least bound : Nat} (hset : b.cost (.one set) ≤ bound)
    (hleast : least ≤ 1) (index : Nat) (greedy : Bool) :
    b.cost (.group index (.rounds (.one set) least none greedy)) ≤ bound + 256 := by
  have hgroup := h.group index (.rounds (.one set) least none greedy)
  have hmany := h.many set least greedy hleast
  omega

theorem cost_capture (ic : Bool) (index : Nat) (t : Token) :
    b.cost (.group index (Element.captureExpr ic t)) ≤ 1456 := by
  unfold Element.captureExpr
  split
  · exact h.cost_run h.line (by decide) index true
  · split
    · exact h.cost_run (h.segmentPart ic) (by decide) index false
    · exact h.cost_run (h.segment ic) (by decide) index false

theorem cost_insideExpr (ic : Bool) (g : Nat) (t : Token) :
    b.cost (Element.insideExpr ic g t) ≤
      1584 + (if t.slash && t.optional then 600 else 0) + if t.dot then 600 else 0 := by
  have hseqs := h.cost_seqs (Element.leadExprs ic t ++ [.group (g + 1) (Element.captureExpr ic t)])
  have hcapture := h.cost_capture ic (g + 1) t
  have hslash := h.letter ic '/'
  have hdot := h.letter ic '.'
  have hlead : b.costs (Element.leadExprs ic t) ≤
      (if t.slash && t.optional then 600 else 0) + if t.dot then 600 else 0 := by
    unfold Element.leadExprs
    split <;> split <;> simp <;> omega
  simp only [costs_append, costs_cons, costs_nil] at hseqs
  rw [Element.insideExpr]
  omega

end Budget.Usual

end RequestRouter.Regex

namespace RequestRouter.Spec

open RequestRouter.Regex

/-! ### Along the spec -/

namespace Element

/-- A single character. -/
def isPlain : Element → Bool
  | .char _ => true
  | _ => false

/-- A group that takes any number of characters but is short to write. -/
def isWide : Element → Bool
  | .digits | .star => true
  | _ => false

end Element

/-- There are no more groups of digits and stars than there are characters. -/
def Spread (es : List Element) : Prop := es.countP Element.isWide ≤ es.countP Element.isPlain

instance (es : List Element) : Decidable (Spread es) := inferInstanceAs (Decidable (_ ≤ _))

theorem Spread.append {a b : List Element} (ha : Spread a) (hb : Spread b) : Spread (a ++ b) := by
  unfold Spread at *
  rw [List.countP_append, List.countP_append]
  omega

theorem Spread.flatMap {α : Type} {f : α → List Element} (h : ∀ x, Spread (f x)) (xs : List α) :
    Spread (xs.flatMap f) := by
  induction xs with
  | nil => exact Nat.le_refl 0
  | cons x xs ih => exact (h x).append ih

theorem spread_chars (cs : List Char) : Spread (cs.map .char) := by
  have hwide : (cs.map Element.char).countP Element.isWide = 0 := by
    rw [List.countP_map]
    exact List.countP_eq_zero.mpr fun _ _ => Bool.false_ne_true
  rw [Spread, hwide]
  exact Nat.zero_le _

section Costs

variable {b : Budget} (h : b.Usual)

include h

/-- What an element costs, against the length of its text. -/
theorem Element.Stands.cost_exprs {e : Element} {rest : List Char} (hstands : e.Stands rest)
    (ic : Bool) (g : Nat) :
    b.costs (e.exprs ic g) + 440 * (if e.isPlain = true then 1 else 0) ≤
      1040 * e.text.length + 416 * if e.isWide = true then 1 else 0 := by
  cases e with
  | char c =>
    have := h.letter ic c
    simp [Element.exprs, Element.text, Element.isPlain, Element.isWide]
    omega
  | digits =>
    have := h.cost_run h.digit (Nat.le_refl 1) (g + 1) true
    simp [Element.exprs, Element.text, Element.isPlain, Element.isWide]
    omega
  | star =>
    have := h.cost_run h.line (Nat.zero_le 1) (g + 1) true
    simp [Element.exprs, Element.text, Element.isPlain, Element.isWide]
    omega
  | optionalSlash =>
    have := h.optional (.one (charSet ic '/')) true
    have := h.letter ic '/'
    simp [Element.exprs, Element.text, Element.isPlain, Element.isWide]
    omega
  | param t =>
    have hname := List.length_pos_iff.mpr (eq_of_readToken? hstands.2).2.name_ne_nil
    have hinside := h.cost_insideExpr ic g t
    have hslash := h.letter ic '/'
    have hoptional := h.optional (insideExpr ic g t) true
    obtain ⟨slash, dot, name, constraint, optional, rest⟩ := t
    cases slash <;> cases dot <;> cases optional <;>
      simp [Element.exprs, Element.text, Element.isPlain, Element.isWide, Token.text, Token.lead] at * <;>
      omega

theorem cost_exprsFrom {es : List Element} (hes : Standable es) (ic : Bool) (g : Nat) :
    b.costs (exprsFrom ic g es) + 440 * es.countP Element.isPlain ≤
      1040 * (es.flatMap Element.text).length + 416 * es.countP Element.isWide := by
  induction es generalizing g with
  | nil => exact Nat.le_refl 0
  | cons e es ih =>
    obtain ⟨rest, hstands⟩ := hes e List.mem_cons_self
    have hfirst := hstands.cost_exprs h ic g
    have hmore := ih (fun d hd => hes d (List.mem_cons_of_mem _ hd)) (g + e.slots.length)
    rw [exprsFrom, Budget.costs_append, List.countP_cons, List.countP_cons, List.flatMap_cons,
      List.length_append]
    omega

end Costs

theorem length_textFor (options : CompileOptions) (spec : List Char) :
    (textFor options spec).length ≤ spec.length + 2 := by
  unfold textFor withOptionalSlash
  split
  · omega
  · split
    · omega
    · split <;> simp

end RequestRouter.Spec

namespace RequestRouter.Pattern

open RequestRouter.Regex RequestRouter.Spec

/-- **The cost of a laid spec is bounded by its length.** -/
theorem cost_laid {options : CompileOptions} (h : options.budget.Usual) {spec : String}
    {es : List Element} (hlaid : Laid es) (hspread : Spread es)
    (htext : textFor options spec.toList = es.flatMap Element.text) :
    options.budget.cost (ofElements options spec es).expr ≤ 1040 * (spec.length + 2) + 512 := by
  have hcosts := cost_exprsFrom h hlaid.standable (!options.caseSensitive) 0
  have hseqs := h.cost_seqs (exprsFrom (!options.caseSensitive) 0 es)
  have hanchored := h.cost_anchoredExpr (.seqs (exprsFrom (!options.caseSensitive) 0 es))
  have hlength := length_textFor options spec.toList
  rw [htext, String.length_toList] at hlength
  change options.budget.cost (anchoredExpr (.seqs (exprsFrom (!options.caseSensitive) 0 es))) ≤ _
  unfold Spread at hspread
  omega

/-- A laid spec is refused for its cost or it is the pattern of its elements, and 10000 characters
    are not too many. -/
theorem compile_laid_cases {options : CompileOptions} {spec : String} {es : List Element}
    (h : Laid es) (hspread : Spread es)
    (htext : textFor options spec.toList = es.flatMap Element.text) :
    (∀ e, compile options spec = .error e → e = .invalidPattern spec .tooLarge) ∧
    (options.budget.Usual → spec.length ≤ 10000 → ∃ p, compile options spec = .ok p) ∧
    ∀ p, compile options spec = .ok p → p = ofElements options spec es := by
  rw [compile_laid h htext]
  refine ⟨?_, ?_, ?_⟩
  · intro e he
    split at he
    · exact (Except.error.inj he).symm
    · cases he
  · intro husual hlength
    have hcost := cost_laid husual h hspread htext
    have hlimit := husual.limit
    rw [if_neg (by omega)]
    exact ⟨_, rfl⟩
  · intro p hp
    split at hp
    · cases hp
    · exact (Except.ok.inj hp).symm

/-! ### Specs that cost too much -/

theorem size_foldl (es : List Expr) (e : Expr) :
    (es.foldl .seq e).size = e.size + Budget.standard.costs es := by
  induction es generalizing e with
  | nil => rfl
  | cons f es ih => rw [List.foldl_cons, ih, Expr.size, Budget.costs_cons, Nat.add_assoc]; rfl

theorem size_seqs (es : List Expr) : (Expr.seqs es).size = Budget.standard.costs es := by
  cases es with
  | nil => rfl
  | cons e es => exact size_foldl es e

/-- By the standard budget a laid spec is refused if the expressions of its elements are too large. -/
theorem compile_laid_tooLarge {options : CompileOptions} {spec : String} {es : List Element}
    (h : Laid es) (htext : textFor options spec.toList = es.flatMap Element.text)
    (hbudget : options.budget = .standard)
    (hcosts : 10485760 < Budget.standard.costs (exprsFrom (!options.caseSensitive) 0 es)) :
    compile options spec = .error (.invalidPattern spec .tooLarge) := by
  have hexpr : (ofElements options spec es).expr.size =
      32 + (Expr.seqs (exprsFrom (!options.caseSensitive) 0 es)).size + 32 := rfl
  rw [compile_laid h htext, if_pos]
  rw [hbudget]
  change 10485760 < (ofElements options spec es).expr.size
  rw [hexpr, size_seqs]
  omega

end RequestRouter.Pattern
