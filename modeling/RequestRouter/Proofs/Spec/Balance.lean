/-
  RequestRouter/Proofs/Spec/Balance.lean
  ======================================
  **Which specs are refused for parentheses or classes that do not balance.**

  Balance is checked in the pattern.  Rewriting dots and stars leaves it as it is, and so does a
  wrapper whose token has a constraint that ends with a parenthesis of its own (`reading_part`).  If the
  constraint is cut at a parenthesis in a class, then the wrapper has opened a group that is closed
  only in that class: the spec is checked as if one more parenthesis were opened before the token
  (`opened`).  So a balanced spec is refused, and one with a parenthesis too many is accepted
  (`unbalanced_cut`).
-/
import RequestRouter.Proofs.Spec.Tokens

namespace RequestRouter.Spec

open RequestRouter.Text RequestRouter.Unicode

/-- Whether the classes and groups of a text are closed, and every closing parenthesis closes one. -/
def Balanced (text : List Char) : Prop :=
  ¬ (Reading.start.after text).mode.IsClass ∧ (Reading.start.after text).depth = 0 ∧
    (Reading.start.after text).stray = false

/-- A visible token whose constraint ends in a class. -/
def IsCut (text : List Char) (n : Nat) : Prop :=
  Visible text n ∧ (readingAt text (n + reach (text.drop n))).mode.IsClass

instance (text : List Char) : Decidable (Balanced text) := by
  unfold Balanced
  infer_instance

instance (text : List Char) : DecidablePred (IsCut text) := fun n => by
  unfold IsCut
  infer_instance

/-- The characters of a text from a place on, with one more opening parenthesis before each token
    whose constraint ends in a class. -/
def openedFrom (text : List Char) (n : Nat) (cs : List Char) : List Char :=
  (cs.zipIdx n).flatMap fun (c, k) => if IsCut text k then ['(', c] else [c]

/-- A text with one more opening parenthesis before each token whose constraint ends in a class. -/
def opened (text : List Char) : List Char := openedFrom text 0 text

theorem openedFrom_append (text : List Char) (n : Nat) (a b : List Char) :
    openedFrom text n (a ++ b) = openedFrom text n a ++ openedFrom text (n + a.length) b := by
  rw [openedFrom, List.zipIdx_append, List.flatMap_append, openedFrom, openedFrom]

theorem openedFrom_cons (text : List Char) (n : Nat) (c : Char) (cs : List Char) :
    openedFrom text n (c :: cs) =
      (if IsCut text n then ['(', c] else [c]) ++ openedFrom text (n + 1) cs := rfl

/-- Without a token nothing is opened. -/
theorem openedFrom_eq_self {text cs : List Char} {n : Nat}
    (h : ∀ k, n ≤ k → k < n + cs.length → ¬ IsCut text k) : openedFrom text n cs = cs := by
  induction cs generalizing n with
  | nil => rfl
  | cons c cs ih =>
    rw [openedFrom_cons, if_neg (h n (Nat.le_refl n) (by simp)), List.singleton_append, ih]
    intro k hle hlt
    exact h k (by omega) (by simp only [List.length_cons]; omega)

theorem openedFrom_congr {text text' cs : List Char} {n : Nat}
    (h : ∀ k, n ≤ k → k < n + cs.length → (IsCut text k ↔ IsCut text' k)) :
    openedFrom text n cs = openedFrom text' n cs := by
  induction cs generalizing n with
  | nil => rfl
  | cons c cs ih =>
    rw [openedFrom_cons, openedFrom_cons, ih]
    · simp only [h n (Nat.le_refl n) (by simp)]
    · intro k hle hlt
      exact h k (by omega) (by simp only [List.length_cons]; omega)

/-- What is opened is opened in the plain mode. -/
theorem mode_openedFrom {text before cs rest : List Char} (htext : text = before ++ (cs ++ rest)) :
    (Mode.plain.after before).after (openedFrom text before.length cs) =
      Mode.plain.after (before ++ cs) := by
  induction cs generalizing before with
  | nil => simp [openedFrom]
  | cons c cs ih =>
    have htext' : text = (before ++ [c]) ++ (cs ++ rest) := by
      rw [htext]
      simp
    have hmore := ih htext'
    rw [List.length_append, List.append_assoc, List.singleton_append, Mode.after_append] at hmore
    rw [openedFrom_cons, ← hmore, Mode.after_append]
    congr 1
    split
    · next hcut =>
      have hplain := hcut.1.1.1
      rw [readingAt_eq htext rfl, Reading.mode_after] at hplain
      rw [show Mode.plain.after before = .plain from hplain]
      rfl
    · rfl

/-! ### Wrappers -/

theorem next_opening (depth : Nat) (stray : Bool) :
    (⟨.plain, depth, stray⟩ : Reading).next '(' = ⟨.plain, depth + 1, stray⟩ := rfl

theorem next_closing (depth : Nat) (stray : Bool) :
    (⟨.plain, depth + 1, stray⟩ : Reading).next ')' = ⟨.plain, depth, stray⟩ := by
  simp [Reading.next]

/-- The constraint of the token leaves so many more groups open than there were before it. -/
def Token.Opens (t : Token) (opened : Nat) : Prop :=
  ∀ depth stray, (⟨.plain, depth, stray⟩ : Reading).after (t.constraint.getD []) =
    ⟨t.body, depth + opened, stray⟩

/-- A constraint closes at most the group that it opens. -/
theorem Token.Proper.exists_opens {t : Token} (ht : t.Proper) : ∃ opened, t.Opens opened := by
  cases hc : t.constraint with
  | none => exact ⟨0, fun depth stray => by simp [Token.body, hc]⟩
  | some text =>
    obtain ⟨body, rfl, hbody, -⟩ := ht.constraint_closed text hc
    obtain ⟨inside, hinside⟩ := Reading.after_of_unclosed .plain hbody
    have hmode : t.body = (Mode.plain.after body).next ')' := by
      simp [Token.body, hc, Mode.next]
    have hbefore : ∀ depth stray, (⟨.plain, depth, stray⟩ : Reading).after ('(' :: body ++ [')']) =
        (⟨Mode.plain.after body, depth + inside + 1, stray⟩ : Reading).next ')' := by
      intro depth stray
      rw [Reading.after_append, Reading.after_cons _ '(', next_opening, hinside, Nat.add_right_comm]
      rfl
    by_cases hplain : Mode.plain.after body = .plain
    · refine ⟨inside, fun depth stray => ?_⟩
      rw [hc, Option.getD_some, hbefore, hmode, hplain, next_closing]
      rfl
    · refine ⟨inside + 1, fun depth stray => ?_⟩
      rw [hc, Option.getD_some, hbefore, hmode,
        Reading.next_of_uncounted fun h => absurd h hplain]
      rfl

/-- What is captured for a token opens as many groups as its constraint. -/
theorem Token.Opens.captureOf {t : Token} {opened : Nat} (h : t.Opens opened) (rest dot : Bool)
    (depth : Nat) (stray : Bool) :
    (⟨.plain, depth, stray⟩ : Reading).after (captureOf t.constraint rest dot) =
      ⟨t.body, depth + opened, stray⟩ := by
  have hconstraint := h depth stray
  cases hc : t.constraint with
  | some text =>
    rw [hc] at hconstraint
    exact hconstraint
  | none =>
    have hbody : t.body = .plain := by rw [Token.body, hc]; rfl
    have hopened : opened = 0 := by
      rw [hc] at hconstraint
      have := congrArg Reading.depth hconstraint
      simpa using this.symm
    rw [hbody, hopened]
    cases rest <;> cases dot <;> cases stray <;>
      simp [Spec.captureOf, Reading.next, Mode.next, Mode.nextInClass]

/-- Marks behind a constraint, and the parentheses that close a wrapper. -/
theorem Mode.Settled.reading_marks {m : Mode} (h : m.Settled) (depth : Nat) (stray : Bool)
    {cs : List Char} (hcs : ∀ c ∈ cs, c = '?' ∨ c = '*') :
    (⟨m, depth, stray⟩ : Reading).after cs = ⟨m, depth, stray⟩ := by
  rw [Reading.after_of_not_mem]
  · rw [h.after]
    intro c hc
    rcases hcs c hc with rfl | rfl <;> simp
  · intro c hc
    rcases hcs c hc with rfl | rfl <;> decide

/-- What comes behind the capture of a wrapper closes its group, unless the capture ends in a
    class. -/
theorem Mode.Settled.reading_closed {m : Mode} (h : m.Settled) (depth : Nat) (stray : Bool)
    {cs : List Char} (hcs : ∀ c ∈ cs, c = '?' ∨ c = '*') :
    (⟨m, depth + 1, stray⟩ : Reading).after (')' :: cs) =
      ⟨m, if m.IsClass then depth + 1 else depth, stray⟩ := by
  rw [Reading.after_cons]
  cases h with
  | plain =>
    rw [next_closing, Mode.Settled.plain.reading_marks _ _ hcs]
    rfl
  | inClass k =>
    have hclass : Mode.inClass k .plain ≠ .plain := fun h => nomatch h
    rw [Reading.next_of_uncounted fun h => absurd h hclass]
    dsimp only
    rw [(Mode.Settled.inClass k).next (by simp), (Mode.Settled.inClass k).reading_marks _ _ hcs]
    rfl

/-- The marks of a token. -/
theorem Token.text_eq (t : Token) : ∃ marks, (∀ c ∈ marks, c = '?' ∨ c = '*') ∧
    t.text = t.lead ++ ':' :: (t.name ++ (t.constraint.getD [] ++ marks)) := by
  refine ⟨(if t.optional then ['?'] else []) ++ (if t.rest then ['*'] else []), ?_, ?_⟩
  · intro c hc
    split at hc <;> split at hc <;> simp_all
  · simp [Token.text]

theorem Token.ne_of_mem_lead {t : Token} : ∀ c ∈ t.lead, c ≠ '(' ∧ c ≠ ')' := by
  unfold Token.lead
  split <;> split <;> simp

/-- A token from its colon on opens as many groups as its constraint. -/
theorem Token.Opens.tail {t : Token} {opened : Nat} (h : t.Opens opened) (ht : t.Proper)
    {tail : List Char} (htail : t.text = t.lead ++ ':' :: tail) (depth : Nat) (stray : Bool) :
    (⟨.plain, depth, stray⟩ : Reading).after (':' :: tail) = ⟨t.body, depth + opened, stray⟩ := by
  obtain ⟨marks, hmarks, htext⟩ := t.text_eq
  rw [htext, List.append_cancel_left_eq, List.cons.injEq] at htail
  have hname : (⟨.plain, depth, stray⟩ : Reading).after (':' :: t.name) = ⟨.plain, depth, stray⟩ :=
    ht.after_name (r := ⟨.plain, depth, stray⟩) id
  rw [← htail.2, ← List.cons_append, Reading.after_append, hname, Reading.after_append, h,
    ht.settled_body.reading_marks _ _ hmarks]

/-- The group of a wrapper opens as many groups as the constraint in it, and stays open if this ends
    in a class. -/
theorem Token.Opens.group {t : Token} {opened : Nat} (h : t.Opens opened) (ht : t.Proper)
    (slash dot rest optional : Bool) (depth : Nat) (stray : Bool) :
    (⟨.plain, depth, stray⟩ : Reading).after ('(' :: (['?', ':'] ++
        ((if slash then ['/'] else []) ++ ((if dot then ['\\', '.'] else []) ++
          Spec.captureOf t.constraint rest dot) ++ ')' :: (if optional then ['?'] else [])))) =
      ⟨t.body, if t.body.IsClass then depth + opened + 1 else depth + opened, stray⟩ := by
  have hlead : ∀ cs ∈ [[], ['/'], ['?', ':'], ['\\', '.']],
      (⟨.plain, depth + 1, stray⟩ : Reading).after cs = ⟨.plain, depth + 1, stray⟩ := by
    simp [Reading.next, Mode.next]
  have hmarks : ∀ c ∈ (if optional then ['?'] else []), c = '?' ∨ c = '*' := by
    split <;> simp
  simp only [Reading.after_append, Reading.after_cons _ '(', next_opening]
  rw [hlead _ (by simp), hlead _ (by split <;> simp), hlead _ (by split <;> simp), h.captureOf,
    Nat.add_right_comm, ht.settled_body.reading_closed _ _ hmarks]

/-- **A wrapper is read as its token**, with one more parenthesis opened if the constraint ends in a
    class. -/
theorem reading_wrap {t : Token} (ht : t.Proper) {r : Reading} {literalLead : Bool}
    (hlead : r.mode.after t.lead = .plain) (hplain : literalLead = false → r.mode = .plain)
    {tail : List Char} (htail : t.text = t.lead ++ ':' :: tail) :
    r.after (wrap t literalLead).text =
      r.after (t.lead ++ ((if t.body.IsClass then ['(', ':'] else [':']) ++ tail)) := by
  obtain ⟨opened, hopened⟩ := ht.exists_opens
  obtain ⟨key, before, inside, hwrap, -, hbefore, hinside⟩ := exists_wrap t literalLead
  obtain ⟨hmode, -⟩ := after_wrap ht hlead hplain hwrap
  have hfront : r.after before = ⟨.plain, r.depth, r.stray⟩ := by
    rw [Reading.after_of_not_mem, hmode]
    rw [hbefore]
    split
    · exact Token.ne_of_mem_lead
    · split <;> simp
  have hleads : r.after t.lead = ⟨.plain, r.depth, r.stray⟩ := by
    rw [Reading.after_of_not_mem _ Token.ne_of_mem_lead, hlead]
  have htext : (Part.wrapper key before inside).text = before ++ '(' :: (['?', ':'] ++
      (inside ++ ')' :: (if key.optional then ['?'] else []))) := by
    cases ho : key.optional <;> simp [Part.text, ho]
  rw [hwrap, htext, Reading.after_append, hfront, hinside, hopened.group ht, Reading.after_append,
    hleads]
  split
  · rw [List.cons_append, Reading.after_cons, next_opening, List.singleton_append,
      hopened.tail ht htail, Nat.add_right_comm]
  · exact (hopened.tail ht htail _ _).symm

/-- The token of a visible place is cut exactly if its constraint ends in a class. -/
theorem isCut_iff {text before after : List Char} {t : Token}
    (split : text = before ++ (t.text ++ after)) (read : readToken? (t.text ++ after) = some t)
    (visible : Visible text (before.length + t.lead.length)) :
    IsCut text (before.length + t.lead.length) ↔ t.body.IsClass := by
  obtain ⟨-, ht⟩ := eq_of_readToken? read
  obtain ⟨-, hreach⟩ := colon_of_readToken? read
  obtain ⟨marks, -, htext⟩ := t.text_eq
  have hdrop : text.drop (before.length + t.lead.length) = (t.text ++ after).drop t.lead.length := by
    rw [split, ← List.drop_drop, List.drop_left' rfl]
  have hatColon : text = (before ++ t.lead) ++
      (':' :: (t.name ++ (t.constraint.getD [] ++ marks)) ++ after) := by
    rw [split, htext]
    simp
  have hatEnd : text = (before ++ t.lead ++ (':' :: t.name ++ t.constraint.getD [])) ++
      (marks ++ after) := by
    rw [hatColon]
    simp
  have hlength : before.length + t.lead.length +
      (1 + t.name.length + (t.constraint.getD []).length) =
      (before ++ t.lead ++ (':' :: t.name ++ t.constraint.getD [])).length := by
    simp only [List.length_append, List.length_cons]
    omega
  have hcolon := readingAt_eq hatColon (List.length_append).symm
  have hend := readingAt_eq hatEnd hlength
  have hplain := visible.1.1
  rw [hcolon] at hplain
  have hnot : ¬ (Reading.start.after (before ++ t.lead)).mode.IsClass := by
    rw [hplain]
    exact id
  rw [IsCut, hdrop, hreach, hend, Reading.after_append, Reading.after_append, ht.after_name hnot,
    Reading.mode_after]
  exact ⟨fun h => h.2, fun h => ⟨visible, h⟩⟩

/-- The reading of a token of which a place is visible is plain at its colon. -/
theorem after_lead_of_visible {text before after : List Char} {t : Token}
    (split : text = before ++ (t.text ++ after))
    (visible : Visible text (before.length + t.lead.length)) :
    Mode.after (Mode.plain.after before) t.lead = .plain := by
  obtain ⟨marks, -, htext⟩ := t.text_eq
  have hatColon : text = (before ++ t.lead) ++
      (':' :: (t.name ++ (t.constraint.getD [] ++ marks)) ++ after) := by
    rw [split, htext]
    simp
  have hplain := visible.1.1
  rw [readingAt_eq hatColon (List.length_append).symm, Reading.mode_after, Mode.after_append] at hplain
  exact hplain

/-- Of a token only the colon may be opened before. -/
theorem openedFrom_token {text before after tail : List Char} {t : Token}
    (split : text = before ++ (t.text ++ after)) (read : readToken? (t.text ++ after) = some t)
    (visible : ∀ k, before.length ≤ k → k < before.length + t.text.length →
      (Visible text k ↔ k = before.length + t.lead.length))
    (htext : t.text = t.lead ++ ':' :: tail) :
    openedFrom text before.length t.text =
      t.lead ++ ((if t.body.IsClass then ['(', ':'] else [':']) ++ tail) := by
  have hlen := congrArg List.length htext
  rw [List.length_append, List.length_cons] at hlen
  have hnone : ∀ k, before.length ≤ k → k < before.length + t.text.length →
      k ≠ before.length + t.lead.length → ¬ IsCut text k :=
    fun k hle hlt hne hcut => hne ((visible k hle hlt).mp hcut.1)
  have hvisible := (visible (before.length + t.lead.length) (by omega) (by omega)).mpr rfl
  conv => lhs; rw [htext]
  rw [openedFrom_append, openedFrom_eq_self fun k hle hlt => hnone k hle (by omega) (by omega),
    openedFrom_cons, openedFrom_eq_self fun k hle hlt => hnone k (by omega) (by omega) (by omega)]
  simp only [isCut_iff split read hvisible]

/-- **The substituted text is read as the spec with its cut tokens opened once more.** -/
theorem reading_parted {text before : List Char} {passages : List Passage}
    (h : Parted text before passages) {r : Reading} (hr : r.mode = Mode.plain.after before) :
    r.after ((passages.map Passage.part).flatMap Part.text) =
      r.after (openedFrom text before.length (passages.flatMap Passage.source)) := by
  induction h generalizing r with
  | done => rfl
  | @copied before c more hidden rest ih =>
    have hnext : (r.next c).mode = Mode.plain.after (before ++ [c]) := by
      rw [Reading.mode_next, hr, Mode.after_append]
      rfl
    have hmore := ih hnext
    rw [List.length_append] at hmore
    have hnot : ¬ IsCut text before.length := fun hcut => hidden hcut.1
    rw [List.map_cons, List.flatMap_cons, List.flatMap_cons, Passage.source, List.singleton_append,
      openedFrom_cons, if_neg hnot]
    exact hmore
  | @token before after t literalLead more split read lead visible rest ih =>
    obtain ⟨-, ht⟩ := eq_of_readToken? read
    obtain ⟨marks, -, htext⟩ := t.text_eq
    have hpos : t.lead.length < t.text.length := by
      rw [htext, List.length_append, List.length_cons]
      omega
    have hvisible := (visible (before.length + t.lead.length) (by omega) (by omega)).mpr rfl
    have hlead : r.mode.after t.lead = .plain := by
      rw [hr]
      exact after_lead_of_visible split hvisible
    have hopened := openedFrom_token split read visible htext
    have hafter : (r.after (openedFrom text before.length t.text)).mode =
        Mode.plain.after (before ++ t.text) := by
      rw [Reading.mode_after, hr]
      exact mode_openedFrom split
    have hmore := ih hafter
    rw [List.length_append] at hmore
    rw [List.map_cons, List.flatMap_cons, List.flatMap_cons, Passage.source, openedFrom_append,
      Reading.after_append, Reading.after_append, Passage.part,
      reading_wrap ht hlead (fun h => hr.trans (lead h)) htext, ← hopened, hmore]

/-! ### The pattern -/

theorem Mode.isClass_of_classLength {depth : Nat} {scan : ClassScan} {cs : List Char}
    (h : classLength depth scan cs = none) : ((Mode.inClass depth scan).after cs).IsClass := by
  induction cs generalizing depth scan with
  | nil => trivial
  | cons c cs ih =>
    rw [classLength_cons] at h
    rw [Mode.after_cons]
    change ((Mode.nextInClass depth scan c).after cs).IsClass
    split at h
    · next hmode =>
      rw [hmode]
      exact ih (Option.map_eq_none_iff.mp h)
    · cases h

theorem isClass_of_piecesFrom {offset : Nat} {text : List Char}
    (h : piecesFrom offset 0 text = none) : (Mode.plain.after text).IsClass := by
  match text with
  | [] => cases h
  | c :: rest =>
    rw [piecesFrom_cons] at h
    split at h
    · next hpiece =>
      -- Only a class can fail to be a piece.
      unfold pieceAt at hpiece
      split at hpiece
      · split at hpiece <;> cases hpiece
      · exact Mode.isClass_of_classLength (Option.map_eq_none_iff.mp hpiece)
      · cases hpiece
      · cases hpiece
      · cases hpiece
    · next p taken hpiece =>
      obtain ⟨htext, hwhole⟩ := pieceAt_eq_some hpiece
      have hmore := Option.map_eq_none_iff.mp h
      have hshorter : (rest.drop taken).length < (c :: rest).length := by
        simp only [List.length_drop, List.length_cons]
        omega
      have hclass := isClass_of_piecesFrom hmore
      rcases hwhole with hwhole | ⟨-, rfl⟩
      · have hafter := hwhole.after_text
        rw [htext] at hafter
        rw [← List.take_append_drop taken rest, ← List.cons_append, Mode.after_append, hafter]
        exact hclass
      · rw [List.drop_nil] at hmore
        cases hmore
termination_by text.length

theorem Standing.not_isClass {ps : List Piece} (h : Standing ps) :
    ¬ (Mode.plain.after (textOf ps)).IsClass := by
  induction ps with
  | nil => exact id
  | cons p ps ih =>
    rcases h.head with hp | ⟨rfl, rfl⟩
    · rw [textOf_cons, Mode.after_append, hp.after_text]
      exact ih h.tail
    · exact id

/-- A text has no pieces exactly if a class is still open at its end. -/
theorem pieces_eq_none_iff {text : List Char} :
    pieces text = none ↔ (Mode.plain.after text).IsClass := by
  constructor
  · exact isClass_of_piecesFrom
  · intro hclass
    cases hps : pieces text with
    | none => rfl
    | some ps =>
      obtain ⟨qs, hqs, rfl, -⟩ := pieces_eq_some_iff.mp hps
      exact absurd hclass hqs.not_isClass

theorem reading_rewritten_piece (p : Piece) (depth : Nat) (stray : Bool) :
    (⟨.plain, depth, stray⟩ : Reading).after (textOf (p.rewritten depth)) =
      (⟨.plain, depth, stray⟩ : Reading).after p.text := by
  unfold Piece.rewritten
  split
  · next h => rw [h.2]; rfl
  · split
    · next h =>
      rw [h.1, h.2]
      cases stray <;> rfl
    · rw [textOf_cons, textOf_nil, List.append_nil]

/-- A reader does not notice that dots and stars are rewritten. -/
theorem reading_rewritten {ps : List Piece} (h : Standing ps) (depth : Nat) (stray : Bool) :
    (⟨.plain, depth, stray⟩ : Reading).after (textOf (rewritten depth ps)) =
      (⟨.plain, depth, stray⟩ : Reading).after (textOf ps) := by
  induction ps generalizing depth stray with
  | nil => rfl
  | cons p ps ih =>
    rw [rewritten_cons, textOf_append, textOf_cons, Reading.after_append, Reading.after_append,
      reading_rewritten_piece]
    rcases h.head with hp | ⟨rfl, rfl⟩
    · rw [hp.reading_text, ih h.tail]
    · rfl

/-- A closing parenthesis that closes nothing stays one. -/
theorem Reading.stray_after {r : Reading} (h : r.stray = true) (cs : List Char) :
    (r.after cs).stray = true := by
  induction cs generalizing r with
  | nil => exact h
  | cons c cs ih =>
    apply ih
    unfold next
    split
    · exact h
    · split
      · simp [h]
      · exact h

/-- The groups of pieces are told apart unless a parenthesis closes nothing or is not closed. -/
theorem topGroupsFrom_eq_none_iff {wrappers : List Nat} {ps : List Piece} (h : Standing ps)
    (offset depth : Nat) (current : TopGroup) :
    topGroupsFrom wrappers depth current (locate offset ps) = none ↔
      ¬ (((⟨.plain, depth, false⟩ : Reading).after (textOf ps)).depth = 0 ∧
        ((⟨.plain, depth, false⟩ : Reading).after (textOf ps)).stray = false) := by
  induction ps generalizing offset depth current with
  | nil => simp [topGroupsFrom]
  | cons p ps ih =>
    rcases h.head with hp | ⟨rfl, rfl⟩
    · have hmore := fun depth => ih h.tail (offset + utf8Length p.text) depth
      rw [locate_cons, textOf_cons, Reading.after_append, hp.reading_text]
      cases p with
      | opening =>
        rw [topGroupsFrom]
        split
        · next hdepth =>
          rw [hmore, hdepth]
          rfl
        · rw [hmore]
          rfl
      | closing =>
        rcases depth with - | - | depth
        · have hstray := Reading.stray_after (r := ⟨.plain, 0, true⟩) rfl (textOf ps)
          simp only [topGroupsFrom, true_iff]
          rintro ⟨-, hnone⟩
          exact Bool.false_ne_true (hnone.symm.trans hstray)
        · rw [topGroupsFrom, Option.map_eq_none_iff, hmore]
          rfl
        · rw [topGroupsFrom, hmore]
          rfl
      | char c =>
        rw [topGroupsFrom_skip _ _ _ _ (by simp) (by simp), hmore]
        rfl
      | verbatim text =>
        rw [topGroupsFrom_skip _ _ _ _ (by simp) (by simp), hmore]
        rfl
    · simp [topGroupsFrom, Piece.text, Reading.next]

/-! ### Refused specs -/

/-- The error for parentheses and classes. -/
def IsUnbalanced {α : Type} (answer : Except RouteError α) : Prop :=
  ∃ path pattern, answer = .error (.unbalancedGroup path pattern)

/-- Slots are handed out for balanced patterns, or a parameter has none. -/
theorem isUnbalanced_assignSlots (spec : List Char) {ps : List Piece} (h : Standing ps)
    (keys : List Key) (wrappers : List Nat) :
    IsUnbalanced (assignSlots spec (textOf ps) keys wrappers) ↔ ¬ Balanced (textOf ps) := by
  have hbalanced : Balanced (textOf ps) ↔ topGroupsFrom wrappers 0 ⟨.nonCapturing, 0⟩
      (locate 0 ps) ≠ none := by
    rw [Ne, topGroupsFrom_eq_none_iff h, not_not, Balanced, Reading.mode_after]
    exact and_iff_right h.not_isClass
  rw [hbalanced, not_not, assignSlots, pieces, piecesFrom_textOf h, Option.bind_some]
  cases topGroupsFrom wrappers 0 ⟨.nonCapturing, 0⟩ (locate 0 ps) with
  | none => exact iff_of_true ⟨_, _, rfl⟩ rfl
  | some groups =>
    refine iff_of_false ?_ (by simp)
    rintro ⟨path, pattern, herror⟩
    dsimp only at herror
    split at herror <;> cases herror

/-- A spec whose classes are not closed is not substituted. -/
theorem compile_of_substitute {options : CompileOptions} {spec : List Char}
    (h : substitute (textFor options spec) = none) :
    compile options spec = .error (unbalanced spec (textFor options spec)) := by
  have htext : (if options.strict then spec else withOptionalSlash spec) = textFor options spec := rfl
  rw [compile, htext, h]

/-- Balance is checked in the substituted text. -/
theorem isUnbalanced_compile {options : CompileOptions} {spec : List Char} {parts : List Part}
    (hparts : substitute (textFor options spec) = some parts) :
    IsUnbalanced (compile options spec) ↔ ¬ Balanced (parts.flatMap Part.text) := by
  have htext : (if options.strict then spec else withOptionalSlash spec) = textFor options spec := rfl
  rw [compile, htext, hparts]
  dsimp only
  cases hpieces : pieces (parts.flatMap Part.text) with
  | none =>
    have hclass := pieces_eq_none_iff.mp hpieces
    rw [spell, hpieces]
    refine iff_of_true ⟨_, _, rfl⟩ ?_
    rintro ⟨hmode, -⟩
    rw [Reading.mode_after] at hmode
    exact hmode hclass
  | some located =>
    obtain ⟨ps, hstanding, hps, rfl⟩ := pieces_eq_some_iff.mp hpieces
    obtain ⟨hpattern, -⟩ := spellFrom_locate ps 0 0 0 _
      (isOpening_of_substitute hparts hstanding hps) (pairwise_wrapperOffsets 0 parts)
    have hslots := isUnbalanced_assignSlots spec (hstanding.rewritten 0)
      (parts.filterMap Part.key?) (spellFrom 0 0 (wrapperOffsets 0 parts) (locate 0 ps)).2
    have hsame : Balanced (textOf (rewritten 0 ps)) ↔ Balanced (textOf ps) := by
      rw [Balanced, Balanced, Reading.start, reading_rewritten hstanding]
    rw [hsame, hps, ← hpattern] at hslots
    rw [spell, hpieces, Option.map_some, ← hslots]
    dsimp only
    constructor
    · rintro ⟨path, pattern, herror⟩
      split at herror
      · cases herror
      · next e he =>
        rw [he]
        obtain rfl := Except.error.inj herror
        exact ⟨path, pattern, rfl⟩
    · rintro ⟨path, pattern, herror⟩
      rw [herror]
      exact ⟨path, pattern, rfl⟩

/-- An end does not cut a token. -/
theorem isCut_append {spec tail : List Char} (h : IsEnd tail) {n : Nat} (hn : n ≤ spec.length) :
    IsCut (spec ++ tail) n ↔ IsCut spec n := by
  have hreach := reach_le_length (spec.drop n)
  rw [List.length_drop] at hreach
  rw [IsCut, IsCut, visible_append h hn, List.drop_append_of_le_length hn, h.reach_append,
    readingAt_append_of_le (by omega)]

theorem opened_append {spec tail : List Char} (h : IsEnd tail) :
    opened (spec ++ tail) = opened spec ++ tail := by
  have htail : openedFrom (spec ++ tail) (0 + spec.length) tail = tail :=
    openedFrom_eq_self fun k hle _ hcut => not_visible_of_le h (by omega) hcut.1
  rw [opened, opened, openedFrom_append, htail,
    openedFrom_congr fun k _ hlt => isCut_append h (by omega)]

theorem Mode.isClass_next (m : Mode) {c : Char} (hc : c ∉ ['\\', '[', ']', '^']) :
    (m.next c).IsClass ↔ m.IsClass := by
  simp only [List.mem_cons, List.not_mem_nil, or_false, not_or] at hc
  cases m with
  | plain => simp [next, hc]
  | escaped => exact Iff.rfl
  | inClass depth scan =>
    refine iff_of_true ?_ trivial
    simp only [next, nextInClass, hc, and_false, if_false]
    split <;> trivial

/-- An end leaves no class open and opens none. -/
theorem IsEnd.isClass_after {tail : List Char} (h : IsEnd tail) (m : Mode) :
    (m.after tail).IsClass ↔ m.IsClass := by
  induction tail generalizing m with
  | nil => exact Iff.rfl
  | cons c tail ih =>
    rw [Mode.after_cons, ih fun d hd => h d (List.mem_cons_of_mem c hd)]
    rcases h c List.mem_cons_self with rfl | rfl
    · exact m.isClass_next (by decide)
    · exact m.isClass_next (by decide)

/-- An end neither opens nor closes anything. -/
theorem balanced_append {text tail : List Char} (h : IsEnd tail) :
    Balanced (text ++ tail) ↔ Balanced text := by
  rw [Balanced, Balanced, Reading.after_append, Reading.after_of_not_mem, h.isClass_after]
  intro c hc
  rcases h c hc with rfl | rfl <;> decide

/-- **Which specs are refused as unbalanced.**  Those in which some parenthesis closes nothing, or some
    group or class is never closed, once a parenthesis has been opened before each token whose
    constraint ends in a class.  If there is no such token, that is what balance of the spec itself
    says. -/
theorem unbalanced_iff (options : CompileOptions) (spec : List Char) :
    (IsUnbalanced (compile options spec) ↔ ¬ Balanced (opened spec)) ∧
      ((∀ n < spec.length, ¬ IsCut spec n) → (IsUnbalanced (compile options spec) ↔ ¬ Balanced spec)) := by
  have hopened : IsUnbalanced (compile options spec) ↔ ¬ Balanced (opened spec) := by
    obtain ⟨tail, htail, htext⟩ := exists_end options spec
    rw [← balanced_append htail, ← opened_append htail, ← htext]
    cases hpieces : pieces (textFor options spec) with
    | none =>
      have hwhole : textFor options spec = [] ++ (textFor options spec ++ []) := by simp
      have hmode := mode_openedFrom hwhole
      have hclass := pieces_eq_none_iff.mp hpieces
      have hsubstitute : substitute (textFor options spec) = none := by
        rw [substitute, hpieces, Option.map_none]
      refine iff_of_true ⟨_, _, compile_of_substitute hsubstitute⟩ ?_
      rintro ⟨hnot, -⟩
      rw [Reading.mode_after, opened] at hnot
      exact hnot (hmode ▸ hclass)
    | some ps =>
      have hparts : ∃ parts, substitute (textFor options spec) = some parts := by
        rw [substitute, hpieces]
        exact ⟨_, rfl⟩
      obtain ⟨parts, hparts⟩ := hparts
      rw [isUnbalanced_compile hparts]
      obtain ⟨passages, hparted, hsource, rfl⟩ := parted_substitute hparts
      have hreading := reading_parted hparted (r := Reading.start) rfl
      rw [hsource] at hreading
      rw [Balanced, Balanced, hreading]
      rfl
  refine ⟨hopened, fun hcut => ?_⟩
  rw [hopened, opened, openedFrom_eq_self fun k _ hlt => hcut k (by omega)]

/-- Parentheses in a class and escaped ones do not count; the one at the end closes nothing. -/
theorem unbalanced_iff_stray :
    (∀ n < "/[(]:id(\\d+)\\(/x)".toList.length, ¬ IsCut "/[(]:id(\\d+)\\(/x)".toList n) ∧
      IsUnbalanced (compile {} "/[(]:id(\\d+)\\(/x)".toList) := by
  have hcut : ∀ n < "/[(]:id(\\d+)\\(/x)".toList.length,
      ¬ IsCut "/[(]:id(\\d+)\\(/x)".toList n := by decide +kernel
  exact ⟨hcut, ((unbalanced_iff {} _).2 hcut).mpr (by decide +kernel)⟩

/-- **A constraint that is cut in a class** makes a balanced spec one that is refused, and a spec with
    a parenthesis too many one that is accepted. -/
theorem unbalanced_cut :
    Balanced "/:id([)])".toList ∧ IsUnbalanced (compile {} "/:id([)])".toList) ∧
      ¬ Balanced "/:id([)]))".toList ∧
      compile {} "/:id([)]))".toList = .ok ⟨"/(?:([))]))/?".toList, [some ⟨"id", false⟩]⟩ :=
  ⟨by decide +kernel, ⟨"/:id([)])", "/(?:([))])/?", by rfl⟩, by decide +kernel, by decide +kernel⟩

end RequestRouter.Spec
