/-
  RequestRouter/Proofs/Spec/Places.lean
  =====================================
  **A spec read character by character, and where substitution finds its tokens.**

  A place of a text is the number of characters before it.  `readingAt` is what a reader that comes
  from the left has found there: in what mode it is, how deep in groups, and whether a closing
  parenthesis has closed nothing.  A colon that is read in the plain mode outside all groups begins a
  token of the spec if a name follows it (`IsToken`).

  The scan for tokens knows nothing of this reading.  It goes on behind whatever it has found, and a
  colon in a class is found as well: with a name and a constraint after it, it takes along the text up
  to the first closing parenthesis, and the tokens in there are `Overlooked`.  That is the only way to
  lose a token: substitution parts a text at the tokens that are `Visible` and copies everything
  else (`parted_partsFrom`).
-/
import RequestRouter.Proofs.Spec.Element

namespace RequestRouter.Spec

open RequestRouter.Text RequestRouter.Unicode

/-! ### Reading from the left -/

/-- What a reader has found in a text. -/
structure Reading where
  mode : Mode
  /-- How many groups are open. -/
  depth : Nat
  /-- Whether a closing parenthesis has closed nothing. -/
  stray : Bool
deriving DecidableEq, Repr

namespace Reading

def start : Reading := ⟨.plain, 0, false⟩

/-- The reading after a character. -/
def next (r : Reading) (c : Char) : Reading :=
  if r.mode = .plain ∧ c = '(' then { r with depth := r.depth + 1 }
  else if r.mode = .plain ∧ c = ')' then
    { r with depth := r.depth - 1, stray := r.stray || r.depth == 0 }
  else { r with mode := r.mode.next c }

/-- The reading after a text. -/
def after (r : Reading) (text : List Char) : Reading := text.foldl next r

@[simp] theorem after_nil (r : Reading) : r.after [] = r := rfl

@[simp] theorem after_cons (r : Reading) (c : Char) (cs : List Char) :
    r.after (c :: cs) = (r.next c).after cs := rfl

@[simp] theorem after_append (r : Reading) (a b : List Char) :
    r.after (a ++ b) = (r.after a).after b := List.foldl_append

@[simp] theorem mode_next (r : Reading) (c : Char) : (r.next c).mode = r.mode.next c := by
  unfold next
  split
  · next h => simp [h.1, h.2, Mode.next]
  · split
    · next h => simp [h.1, h.2, Mode.next]
    · rfl

@[simp] theorem mode_after (r : Reading) (cs : List Char) :
    (r.after cs).mode = r.mode.after cs := by
  induction cs generalizing r with
  | nil => rfl
  | cons c cs ih => rw [after_cons, ih, mode_next, Mode.after_cons]

/-- Only parentheses that are read in the plain mode count. -/
theorem next_of_uncounted {r : Reading} {c : Char}
    (h : r.mode = .plain → c ≠ '(' ∧ c ≠ ')') : r.next c = { r with mode := r.mode.next c } := by
  unfold next
  rw [if_neg fun hc => (h hc.1).1 hc.2, if_neg fun hc => (h hc.1).2 hc.2]

theorem after_of_not_mem (r : Reading) {cs : List Char} (h : ∀ c ∈ cs, c ≠ '(' ∧ c ≠ ')') :
    r.after cs = { r with mode := r.mode.after cs } := by
  induction cs generalizing r with
  | nil => rfl
  | cons c cs ih =>
    rw [after_cons, next_of_uncounted fun _ => h c List.mem_cons_self,
      ih _ fun d hd => h d (List.mem_cons_of_mem _ hd), Mode.after_cons]

/-- What is read in another mode than the plain one does not count. -/
theorem after_of_not_plain (r : Reading) {cs : List Char}
    (h : ∀ k < cs.length, r.mode.after (cs.take k) ≠ .plain) :
    r.after cs = { r with mode := r.mode.after cs } := by
  induction cs generalizing r with
  | nil => rfl
  | cons c cs ih =>
    have hfirst : r.mode ≠ .plain := h 0 (by simp)
    rw [after_cons, next_of_uncounted fun hplain => absurd hplain hfirst]
    apply ih
    intro k hk
    exact h (k + 1) (by simpa using hk)

/-- Without a closing parenthesis groups are opened and nothing else, however many are open. -/
theorem after_of_unclosed (m : Mode) {cs : List Char} (h : ')' ∉ cs) :
    ∃ opened, ∀ depth stray, (⟨m, depth, stray⟩ : Reading).after cs =
      ⟨m.after cs, depth + opened, stray⟩ := by
  induction cs generalizing m with
  | nil => exact ⟨0, fun _ _ => rfl⟩
  | cons c cs ih =>
    simp only [List.mem_cons, not_or] at h
    obtain ⟨opened, hopened⟩ := ih (m.next c) h.2
    by_cases hc : m = .plain ∧ c = '('
    · refine ⟨opened + 1, fun depth stray => ?_⟩
      obtain ⟨rfl, rfl⟩ := hc
      have hnext : (⟨.plain, depth, stray⟩ : Reading).next '(' =
          ⟨Mode.plain.next '(', depth + 1, stray⟩ := rfl
      rw [after_cons, hnext, hopened, Nat.add_right_comm]
      rfl
    · refine ⟨opened, fun depth stray => ?_⟩
      have hnext : (⟨m, depth, stray⟩ : Reading).next c = ⟨m.next c, depth, stray⟩ :=
        next_of_uncounted fun hplain => ⟨fun hopen => hc ⟨hplain, hopen⟩, fun hclose => h.1 hclose.symm⟩
      rw [after_cons, hnext, hopened]
      rfl

end Reading

/-- The reading at a place of a text. -/
def readingAt (text : List Char) (n : Nat) : Reading := Reading.start.after (text.take n)

theorem readingAt_eq {text before after : List Char} {n : Nat} (h : text = before ++ after)
    (hn : n = before.length) : readingAt text n = Reading.start.after before := by
  rw [readingAt, h, List.take_left' hn.symm]

theorem readingAt_append_of_le {text tail : List Char} {n : Nat} (h : n ≤ text.length) :
    readingAt (text ++ tail) n = readingAt text n := by
  rw [readingAt, readingAt, List.take_append_of_le_length h]

/-! ### Reading and pieces -/

/-- A whole piece counts if it is a parenthesis, whatever it holds. -/
theorem Piece.Whole.reading_text {p : Piece} (h : p.Whole) (depth : Nat) (stray : Bool) :
    (⟨.plain, depth, stray⟩ : Reading).after p.text =
      ⟨.plain, p.depthAfter depth, stray || (p == .closing && depth == 0)⟩ := by
  have hmode := h.after_text
  -- Nothing counts in an escape or a class: the reader is not in the plain mode in there.
  have hverbatim : ∀ text, p = .verbatim text →
      (⟨.plain, depth, stray⟩ : Reading).after p.text =
        ⟨.plain, p.depthAfter depth, stray || (p == .closing && depth == 0)⟩ := by
    rintro text rfl
    have hinside := fun k (hk : k + 1 < text.length) => h.after_take (Nat.succ_ne_zero k) hk
    have hhead : ∃ c more, text = c :: more ∧ c ≠ '(' ∧ c ≠ ')' := by
      cases h with
      | escape d => exact ⟨'\\', [d], rfl, by decide, by decide⟩
      | @cls body _ => exact ⟨'[', body, rfl, by decide, by decide⟩
    obtain ⟨c, more, rfl, hc⟩ := hhead
    have hne : (Piece.verbatim (c :: more) == .closing) = false := rfl
    rw [Piece.text, Reading.after_cons, Reading.next_of_uncounted fun _ => hc,
      Reading.after_of_not_plain, hne]
    · simpa [Piece.text, Piece.depthAfter] using hmode
    · intro k hk
      exact hinside k (by simpa using hk)
  cases h with
  | opening => simp [Piece.text, Reading.next, Piece.depthAfter]
  | closing => simp [Piece.text, Reading.next, Piece.depthAfter]
  | @char c hc =>
    simp only [List.mem_cons, List.not_mem_nil, or_false, not_or] at hc
    rw [Piece.text, Reading.after_of_not_mem _ (by simp [hc])]
    simpa [Piece.text, Piece.depthAfter] using hmode
  | escape d => exact hverbatim _ rfl
  | cls hb => exact hverbatim _ rfl

/-- Between two pieces the depth is that of the pieces before. -/
theorem reading_textOf {ps : List Piece} (h : ∀ p ∈ ps, p.Whole) (depth : Nat) (stray : Bool) :
    ∃ stray', (⟨.plain, depth, stray⟩ : Reading).after (textOf ps) =
      ⟨.plain, depthAfter depth ps, stray'⟩ := by
  induction ps generalizing depth stray with
  | nil => exact ⟨stray, rfl⟩
  | cons p ps ih =>
    rw [textOf_cons, Reading.after_append, (h p List.mem_cons_self).reading_text]
    exact ih (fun q hq => h q (List.mem_cons_of_mem _ hq)) _ _

/-- The offsets of plain characters outside groups, by the pieces before them. -/
theorem mem_shallowOffsets_locate {depth offset o : Nat} {ps : List Piece} :
    o ∈ shallowOffsets depth (locate offset ps) ↔
      ∃ a c b, ps = a ++ .char c :: b ∧ depthAfter depth a = 0 ∧
        o = offset + utf8Length (textOf a) := by
  induction ps generalizing depth offset with
  | nil => simp [shallowOffsets]
  | cons p ps ih =>
    have hhead : o ∈ shallowOffsets depth (locate offset (p :: ps)) ↔
        (∃ c, p = .char c ∧ depth = 0 ∧ o = offset) ∨
          o ∈ shallowOffsets (p.depthAfter depth) (locate (offset + utf8Length p.text) ps) := by
      cases p with
      | char c =>
        rw [locate_cons, shallowOffsets]
        split <;> simp_all [Piece.depthAfter]
      | verbatim text => simp [shallowOffsets, Piece.depthAfter]
      | opening => simp [shallowOffsets, Piece.depthAfter]
      | closing => simp [shallowOffsets, Piece.depthAfter]
    rw [hhead, ih]
    constructor
    · rintro (⟨c, rfl, rfl, rfl⟩ | ⟨a, c, b, rfl, hdepth, rfl⟩)
      · exact ⟨[], c, ps, rfl, rfl, rfl⟩
      · exact ⟨p :: a, c, b, rfl, hdepth, by simp [Nat.add_assoc]⟩
    · rintro ⟨a, c, b, hab, hdepth, rfl⟩
      cases a with
      | nil =>
        obtain ⟨rfl, rfl⟩ := List.cons.inj hab
        exact Or.inl ⟨c, rfl, hdepth, rfl⟩
      | cons q a =>
        obtain ⟨rfl, rfl⟩ := List.cons.inj hab
        exact Or.inr ⟨a, c, b, rfl, hdepth, by simp [Nat.add_assoc]⟩

/-- **The scan looks up what the reader has found**: a character that is a piece by itself is shallow
    exactly if it is read in the plain mode outside all groups. -/
theorem mem_shallowOffsets_iff {before after : List Char} {c : Char} {ps : List (Nat × Piece)}
    (hc : c ∉ ['\\', '[', '(', ')']) (hps : pieces (before ++ c :: after) = some ps) :
    utf8Length before ∈ shallowOffsets 0 ps ↔
      (Reading.start.after before).mode = .plain ∧ (Reading.start.after before).depth = 0 := by
  obtain ⟨qs, hqs, htext, rfl⟩ := pieces_eq_some_iff.mp hps
  have hdepth : ∀ {a b}, qs = a ++ b → b ≠ [] → textOf a = before →
      (Reading.start.after before).mode = .plain ∧
        (Reading.start.after before).depth = depthAfter 0 a := by
    rintro a b rfl hb rfl
    obtain ⟨stray, hreading⟩ := reading_textOf (hqs.whole_of_append hb).1 0 false
    rw [Reading.start, hreading]
    exact ⟨rfl, rfl⟩
  rw [mem_shallowOffsets_locate]
  constructor
  · rintro ⟨a, d, b, rfl, hzero, hlen⟩
    have hsplit : textOf a ++ textOf (.char d :: b) = before ++ c :: after := by
      rw [← textOf_append, htext]
    have hbefore := eq_of_utf8Length hsplit (by omega)
    obtain ⟨hmode, hread⟩ := hdepth rfl (List.cons_ne_nil _ _) hbefore
    exact ⟨hmode, hread.trans hzero⟩
  · rintro ⟨hmode, hzero⟩
    rw [Reading.mode_after] at hmode
    obtain ⟨a, b, rfl, ha, hb⟩ := exists_append_of_plain hqs htext.symm hmode
    have hstanding : Standing b := hqs.of_append
    obtain ⟨more, rfl, -⟩ := char_of_textOf hstanding hc hb
    obtain ⟨-, hread⟩ := hdepth rfl (List.cons_ne_nil _ _) ha
    exact ⟨a, c, more, rfl, hread.symm.trans hzero, by rw [ha, Nat.zero_add]⟩

/-! ### Tokens of a spec -/

/-- A mode in a class. -/
def Mode.IsClass : Mode → Prop
  | .inClass .. => True
  | .plain | .escaped => False

instance : DecidablePred Mode.IsClass
  | .inClass .. => isTrue trivial
  | .plain | .escaped => isFalse id

/-- The name after a colon at the front of a text. -/
def nameOf : List Char → List Char
  | ':' :: rest => rest.takeWhile isWord
  | _ => []

/-- How far a colon, a name and a constraint go at the front of a text. -/
def reach : List Char → Nat
  | ':' :: rest =>
    if rest.takeWhile isWord = [] then 0
    else 1 + (rest.takeWhile isWord).length +
      ((readConstraint (rest.dropWhile isWord)).1.getD []).length
  | _ => 0

/-- A colon outside groups, classes and escapes, with a name after it. -/
def IsToken (text : List Char) (n : Nat) : Prop :=
  (readingAt text n).mode = .plain ∧ (readingAt text n).depth = 0 ∧ nameOf (text.drop n) ≠ []

/-- A colon in a class, with a name and a constraint after it, comes before the place and its
    constraint goes on behind it. -/
def Overlooked (text : List Char) (n : Nat) : Prop :=
  ∃ k < n, (readingAt text k).mode.IsClass ∧ n < k + reach (text.drop k)

/-- A token that substitution sees. -/
def Visible (text : List Char) (n : Nat) : Prop := IsToken text n ∧ ¬ Overlooked text n

instance (text : List Char) : DecidablePred (IsToken text) := fun n => by
  unfold IsToken
  infer_instance

instance (text : List Char) : DecidablePred (Overlooked text) := fun n => by
  unfold Overlooked
  infer_instance

instance (text : List Char) : DecidablePred (Visible text) := fun n => by
  unfold Visible
  infer_instance

theorem nameOf_eq_nil {cs : List Char} (h : cs.head? ≠ some ':') : nameOf cs = [] := by
  unfold nameOf
  split
  · exact absurd rfl h
  · rfl

theorem reach_eq_zero {cs : List Char} (h : nameOf cs = []) : reach cs = 0 := by
  unfold reach
  split
  · exact if_pos h
  · rfl

theorem reach_pos {cs : List Char} (h : nameOf cs ≠ []) : 0 < reach cs := by
  unfold nameOf at h
  split at h
  · rw [reach, if_neg h]
    omega
  · exact absurd rfl h

/-- What is reached is the colon, the name and the constraint. -/
theorem exists_reach {cs : List Char} (h : nameOf cs ≠ []) :
    ∃ (constraint : Option (List Char)) (left : List Char),
      cs = ':' :: nameOf cs ++ (constraint.getD [] ++ left) ∧
      reach cs = 1 + (nameOf cs).length + (constraint.getD []).length ∧
      ∀ text ∈ constraint, ∃ body, text = '(' :: body ++ [')'] ∧ ')' ∉ body := by
  unfold nameOf at h
  split at h
  · next rest =>
    obtain ⟨constraint, left, hread⟩ :
      ∃ c r, readConstraint (rest.dropWhile isWord) = (c, r) := ⟨_, _, rfl⟩
    obtain ⟨hleft, hclosed⟩ := eq_of_readConstraint hread
    refine ⟨constraint, left, ?_, ?_, ?_⟩
    · rw [nameOf, ← hleft, List.cons_append, List.takeWhile_append_dropWhile]
    · rw [reach, if_neg h, hread, nameOf]
    · intro text htext
      obtain ⟨body, hbody, hclosing, -⟩ := hclosed text htext
      exact ⟨body, hbody, hclosing⟩
  · exact absurd rfl h

theorem reach_le_length (cs : List Char) : reach cs ≤ cs.length := by
  by_cases hname : nameOf cs = []
  · rw [reach_eq_zero hname]
    exact Nat.zero_le _
  · obtain ⟨constraint, left, hcs, hreach, -⟩ := exists_reach hname
    have hlen := congrArg List.length hcs
    simp only [List.length_append, List.length_cons] at hlen
    omega

theorem length_le_of_not_mem {a b front back : List Char} {c : Char}
    (h : a ++ b = front ++ c :: back) (ha : c ∉ a) : a.length ≤ front.length := by
  rcases List.append_eq_append_iff.mp h with ⟨e, rfl, -⟩ | ⟨e, rfl, he⟩
  · simp
  · cases e with
    | nil => simp
    | cons d e =>
      obtain ⟨rfl, -⟩ := List.cons.inj he
      simp at ha

theorem closing_not_mem_nameOf (cs : List Char) : ')' ∉ nameOf cs := by
  unfold nameOf
  split
  · intro hmem
    have := List.mem_takeWhile_imp hmem
    revert this
    decide
  · exact List.not_mem_nil

/-- A colon, a name and a constraint do not go on behind a closing parenthesis. -/
theorem reach_le (front back : List Char) : reach (front ++ ')' :: back) ≤ front.length + 1 := by
  by_cases hname : nameOf (front ++ ')' :: back) = []
  · rw [reach_eq_zero hname]
    exact Nat.zero_le _
  · obtain ⟨constraint, left, hcs, hreach, hclosed⟩ := exists_reach hname
    have hword := closing_not_mem_nameOf (front ++ ')' :: back)
    generalize nameOf (front ++ ')' :: back) = name at hcs hreach hword
    rw [hreach]
    cases constraint with
    | none =>
      have hlen := length_le_of_not_mem (a := ':' :: name) hcs.symm (by simpa using hword)
      simp only [List.length_cons] at hlen
      simp only [Option.getD_none, List.length_nil]
      omega
    | some text =>
      obtain ⟨body, rfl, hbody⟩ := hclosed text rfl
      have htext : (':' :: name ++ '(' :: body) ++ ')' :: left = front ++ ')' :: back := by
        rw [hcs]
        simp
      have hlen := length_le_of_not_mem htext (by simpa using ⟨hword, hbody⟩)
      simp only [List.length_append, List.length_cons] at hlen
      simp only [Option.getD_some, List.length_append, List.length_cons, List.length_nil]
      omega

/-- Without a token at the front a colon there has no name. -/
theorem nameOf_of_readToken?_eq_none {cs : List Char} (h : readToken? cs = none) :
    nameOf cs = [] := by
  unfold nameOf
  split
  · next rest =>
    simpa [readToken?, readMark] using h
  · rfl

/-- The colon of a token has its name after it, and reaches to the end of its constraint. -/
theorem colon_of_readToken? {cs : List Char} {t : Token} (h : readToken? cs = some t) :
    nameOf (cs.drop t.lead.length) = t.name ∧
      reach (cs.drop t.lead.length) = 1 + t.name.length + (t.constraint.getD []).length := by
  unfold readToken? at h
  obtain ⟨slash, cs₁, h1⟩ : ∃ b r, readMark '/' cs = (b, r) := ⟨_, _, rfl⟩
  obtain ⟨dot, cs₂, h2⟩ : ∃ b r, readMark '.' cs₁ = (b, r) := ⟨_, _, rfl⟩
  simp only [h1, h2] at h
  split at h
  · next cs₃ =>
    split at h
    · cases h
    · next hname =>
      simp only [Option.some.injEq] at h
      have hcs : cs = t.lead ++ ':' :: cs₃ := by
        rw [eq_of_readMark h1, eq_of_readMark h2, ← h]
        simp [Token.lead]
      rw [hcs, List.drop_left' rfl, nameOf, reach, ← h]
      exact ⟨rfl, if_neg (by simpa using hname)⟩
  · cases h

/-! ### Within a token -/

theorem Token.colon_not_mem_lead (t : Token) : ':' ∉ t.lead := by
  unfold Token.lead
  split <;> split <;> simp

theorem Token.Proper.colon_not_mem_name {t : Token} (h : t.Proper) : ':' ∉ t.name := by
  intro hmem
  have := h.name_word ':' hmem
  revert this
  decide

theorem exists_of_getElem?_append {a b : List Char} {c : Char} {i : Nat} (hc : c ∉ a)
    (h : (a ++ b)[i]? = some c) : ∃ j, i = a.length + j ∧ b[j]? = some c := by
  rcases Nat.lt_or_ge i a.length with hlt | hge
  · rw [List.getElem?_append_left hlt] at h
    exact absurd (List.mem_of_getElem? h) hc
  · rw [List.getElem?_append_right hge] at h
    exact ⟨i - a.length, by omega, h⟩

/-- A character that does not stand in what follows parts the text before it. -/
theorem exists_of_getElem?_before {a b : List Char} {c : Char} {i : Nat} (hc : c ∉ b)
    (h : (a ++ b)[i]? = some c) : ∃ front back, a = front ++ c :: back ∧ i = front.length := by
  rcases Nat.lt_or_ge i a.length with hlt | hge
  · rw [List.getElem?_append_left hlt, List.getElem?_eq_getElem hlt, Option.some.injEq] at h
    refine ⟨a.take i, a.drop (i + 1), ?_, (List.length_take_of_le (Nat.le_of_lt hlt)).symm⟩
    rw [← h, ← List.drop_eq_getElem_cons, List.take_append_drop]
  · rw [List.getElem?_append_right hge] at h
    exact absurd (List.mem_of_getElem? h) hc

/-- A colon of a token is its own, or it stands in the constraint. -/
theorem Token.Proper.colon_cases {t : Token} (h : t.Proper) {i : Nat}
    (hi : t.text[i]? = some ':') :
    i = t.lead.length ∨ ∃ front back marks,
      t.text = (t.lead ++ (':' :: t.name ++ '(' :: front)) ++ (':' :: back ++ ')' :: marks) ∧
        i = (t.lead ++ (':' :: t.name ++ '(' :: front)).length ∧ ')' ∉ front ∧
        (t.constraint.getD []).length = front.length + back.length + 3 := by
  generalize hmarks : (if t.optional then ['?'] else []) ++ (if t.rest then ['*'] else []) = marks
  have htext : t.text = t.lead ++ (':' :: t.name ++ (t.constraint.getD [] ++ marks)) := by
    rw [← hmarks, Token.text]
    simp
  have hcolon : ':' ∉ marks := by
    rw [← hmarks]
    split <;> split <;> simp
  rw [htext] at hi ⊢
  obtain ⟨j, rfl, hj⟩ := exists_of_getElem?_append t.colon_not_mem_lead hi
  cases j with
  | zero => exact Or.inl rfl
  | succ j =>
    rw [List.cons_append, List.getElem?_cons_succ] at hj
    obtain ⟨m, rfl, hm⟩ := exists_of_getElem?_append h.colon_not_mem_name hj
    cases hc : t.constraint with
    | none =>
      rw [hc] at hm
      exact absurd (List.mem_of_getElem? hm) hcolon
    | some constraint =>
      obtain ⟨body, rfl, hbody, -⟩ := h.constraint_closed constraint hc
      rw [hc, Option.getD_some, List.append_assoc, List.singleton_append] at hm
      cases m with
      | zero => cases hm
      | succ m =>
        rw [List.cons_append, List.getElem?_cons_succ] at hm
        obtain ⟨front, back, rfl, rfl⟩ := exists_of_getElem?_before (by simpa using hcolon) hm
        rw [List.mem_append, not_or] at hbody
        refine Or.inr ⟨front, back, marks, by simp, ?_, hbody.1, ?_⟩
        · simp only [List.length_append, List.length_cons]
          omega
        · simp only [Option.getD_some, List.length_append, List.length_cons, List.length_nil]
          omega

/-- A colon and a name that are read in another mode than that of a class. -/
theorem Token.Proper.after_name {t : Token} (ht : t.Proper) {r : Reading}
    (hr : ¬ r.mode.IsClass) : r.after (':' :: t.name) = { r with mode := .plain } := by
  have hcolon : r.mode.next ':' = .plain := by
    cases hmode : r.mode with
    | plain => rfl
    | escaped => rfl
    | inClass depth scan =>
      rw [hmode] at hr
      exact absurd trivial hr
  rw [Reading.after_of_not_mem, Mode.after_cons, hcolon,
    Mode.after_plain fun c hc => isWord_ordinary (ht.name_word c hc)]
  intro c hc
  rcases List.mem_cons.mp hc with rfl | hc
  · decide
  · constructor <;> rintro rfl <;> exact absurd (ht.name_word _ hc) (by decide)

/-- Unless the colon is in a class, its constraint opens a group. -/
theorem depth_in_constraint {t : Token} (ht : t.Proper) {r : Reading} (hr : ¬ r.mode.IsClass)
    {front : List Char} (hfront : ')' ∉ front) :
    (r.after (':' :: t.name ++ '(' :: front)).depth ≠ 0 := by
  obtain ⟨opened, hopened⟩ := Reading.after_of_unclosed .plain hfront
  have hopening : ({ r with mode := .plain } : Reading).next '(' =
      ⟨.plain, r.depth + 1, r.stray⟩ := if_pos ⟨rfl, rfl⟩
  rw [Reading.after_append, ht.after_name hr, Reading.after_cons, hopening, hopened]
  dsimp only
  omega

/-- No constraint after a colon in a class goes on over the place. -/
def Clear (text : List Char) (n : Nat) : Prop :=
  ∀ k < n, (readingAt text k).mode.IsClass → k + reach (text.drop k) ≤ n

theorem Clear.not_overlooked {text : List Char} {n : Nat} (h : Clear text n) :
    ¬ Overlooked text n := by
  rintro ⟨k, hk, hclass, hreach⟩
  have := h k hk hclass
  omega

theorem Clear.trans {text : List Char} {m n : Nat} (h : Clear text m) (hle : m ≤ n)
    (hbetween : ∀ k, m ≤ k → k < n → k + reach (text.drop k) ≤ n) : Clear text n := by
  intro k hk hclass
  rcases Nat.lt_or_ge k m with hlt | hge
  · exact (h k hlt hclass).trans hle
  · exact hbetween k hge hk

section

variable {text before rest : List Char} {t : Token}

theorem colon_of_nameOf (htext : text = before ++ (t.text ++ rest)) {i : Nat}
    (hi : i < t.text.length) (hname : nameOf (text.drop (before.length + i)) ≠ []) :
    t.text[i]? = some ':' := by
  by_contra hcolon
  apply hname
  apply nameOf_eq_nil
  rw [List.head?_drop, htext, List.getElem?_append_right (Nat.le_add_right _ _),
    Nat.add_sub_cancel_left, List.getElem?_append_left hi]
  exact hcolon

/-- A colon with a name within a token is that of the token, or one in its constraint. -/
theorem nameOf_cases (htext : text = before ++ (t.text ++ rest)) (ht : t.Proper) {k : Nat}
    (hle : before.length ≤ k) (hlt : k < before.length + t.text.length)
    (hname : nameOf (text.drop k) ≠ []) :
    k = before.length + t.lead.length ∨
      (¬ (readingAt text (before.length + t.lead.length)).mode.IsClass → ¬ IsToken text k) ∧
        before.length + t.lead.length < k ∧
        k + reach (text.drop k) ≤ before.length + t.lead.length + 1 + t.name.length +
          (t.constraint.getD []).length := by
  obtain ⟨i, rfl⟩ : ∃ i, k = before.length + i := ⟨k - before.length, by omega⟩
  rcases ht.colon_cases (colon_of_nameOf htext (by omega) hname) with
    rfl | ⟨front, back, marks, hsplit, rfl, hfront, hlen⟩
  · exact Or.inl rfl
  · refine Or.inr ⟨?_, ?_, ?_⟩
    · intro hclass htoken
      have hatColon : text = (before ++ t.lead) ++ ((':' :: t.name ++ '(' :: front) ++
          (':' :: back ++ ')' :: marks ++ rest)) := by
        rw [htext, hsplit]
        simp
      have hinside : text = (before ++ (t.lead ++ (':' :: t.name ++ '(' :: front))) ++
          (':' :: back ++ ')' :: marks ++ rest) := by
        rw [htext, hsplit]
        simp
      have hq := readingAt_eq hatColon (List.length_append).symm
      have hk := readingAt_eq hinside (List.length_append).symm
      rw [Reading.after_append] at hq
      rw [Reading.after_append, Reading.after_append] at hk
      rw [hq] at hclass
      have hdepth := htoken.2.1
      rw [hk] at hdepth
      exact depth_in_constraint ht hclass hfront hdepth
    · simp only [List.length_append, List.length_cons]
      omega
    · have hdrop : text.drop (before.length + (t.lead ++ (':' :: t.name ++ '(' :: front)).length) =
          (':' :: back) ++ ')' :: (marks ++ rest) := by
        rw [htext, hsplit, List.append_assoc, ← List.append_assoc before, ← List.length_append,
          List.drop_left' rfl]
        simp
      have hreach := reach_le (':' :: back) (marks ++ rest)
      rw [hdrop]
      simp only [List.length_append, List.length_cons] at hreach ⊢
      omega

/-- **What a token takes along.**  It leaves the places behind it clear, and no token but itself is
    visible in it. -/
theorem places_of_token (htext : text = before ++ (t.text ++ rest))
    (hread : readToken? (t.text ++ rest) = some t) (hclear : Clear text before.length) :
    Clear text (before.length + t.text.length) ∧
      ∀ k, before.length ≤ k → k < before.length + t.text.length →
        (Visible text k ↔ k = before.length + t.lead.length ∧ IsToken text k) := by
  obtain ⟨-, ht⟩ := eq_of_readToken? hread
  obtain ⟨-, hreach⟩ := colon_of_readToken? hread
  have hdrop : text.drop (before.length + t.lead.length) = (t.text ++ rest).drop t.lead.length := by
    rw [htext, ← List.drop_drop, List.drop_left' rfl]
  rw [← hdrop] at hreach
  have hlen : t.lead.length + 1 + t.name.length + (t.constraint.getD []).length ≤
      t.text.length := by
    simp only [Token.text, List.length_append, List.length_cons]
    omega
  have hbetween : ∀ k, before.length ≤ k → k < before.length + t.text.length →
      k + reach (text.drop k) ≤ before.length + t.text.length := by
    intro k hle hlt
    by_cases hname : nameOf (text.drop k) = []
    · rw [reach_eq_zero hname]
      omega
    · rcases nameOf_cases htext ht hle hlt hname with rfl | ⟨-, -, hinside⟩
      · omega
      · omega
  have hat : Clear text (before.length + t.lead.length) := by
    apply hclear.trans (Nat.le_add_right _ _)
    intro k hle hlt
    by_cases hname : nameOf (text.drop k) = []
    · rw [reach_eq_zero hname]
      omega
    · rcases nameOf_cases htext ht hle (by omega) hname with rfl | ⟨-, hlater, -⟩
      · omega
      · omega
  refine ⟨hclear.trans (Nat.le_add_right _ _) hbetween, ?_⟩
  intro k hle hlt
  constructor
  · rintro ⟨htoken, hvisible⟩
    refine ⟨?_, htoken⟩
    rcases nameOf_cases htext ht hle hlt htoken.2.2 with rfl | ⟨hinside, hlater, hend⟩
    · rfl
    · by_cases hclass : (readingAt text (before.length + t.lead.length)).mode.IsClass
      · -- The colon is in a class and takes the constraint along.
        have hpos := reach_pos htoken.2.2
        exact absurd ⟨_, hlater, hclass, by omega⟩ hvisible
      · exact absurd htoken (hinside hclass)
  · rintro ⟨rfl, htoken⟩
    exact ⟨htoken, hat.not_overlooked⟩

end

/-! ### Substitution by passages -/

/-- What substitution goes by: a character that is copied, or a token that gets a wrapper. -/
inductive Passage where
  | copied (c : Char)
  | token (t : Token) (literalLead : Bool)

namespace Passage

def source : Passage → List Char
  | .copied c => [c]
  | .token t _ => t.text

def part : Passage → Part
  | .copied c => .copied c
  | .token t literalLead => wrap t literalLead

end Passage

/-- The passages of a text that is gone by from a place on.  The visible places of the text are the
    colons of the tokens. -/
inductive Parted (text : List Char) : List Char → List Passage → Prop where
  | done : Parted text text []
  | copied {before : List Char} {c : Char} {more : List Passage}
    (hidden : ¬ Visible text before.length) (rest : Parted text (before ++ [c]) more) :
    Parted text before (.copied c :: more)
  | token {before after : List Char} {t : Token} {literalLead : Bool} {more : List Passage}
    (split : text = before ++ (t.text ++ after)) (read : readToken? (t.text ++ after) = some t)
    (lead : literalLead = false → Mode.plain.after before = .plain)
    (visible : ∀ k, before.length ≤ k → k < before.length + t.text.length →
      (Visible text k ↔ k = before.length + t.lead.length))
    (rest : Parted text (before ++ t.text) more) :
    Parted text before (.token t literalLead :: more)

theorem Parted.source {text before : List Char} {passages : List Passage}
    (h : Parted text before passages) : text = before ++ passages.flatMap Passage.source := by
  induction h with
  | done => simp
  | copied _ _ ih => simpa [Passage.source] using ih
  | token _ _ _ _ _ ih => simpa [Passage.source] using ih

theorem Parted.copies {text before cs : List Char} {more : List Passage}
    (hidden : ∀ k, before.length ≤ k → k < before.length + cs.length → ¬ Visible text k)
    (h : Parted text (before ++ cs) more) :
    Parted text before (cs.map .copied ++ more) := by
  induction cs generalizing before with
  | nil => simpa using h
  | cons c cs ih =>
    refine .copied (hidden _ (Nat.le_refl _) (by simp)) (ih ?_ (by simpa using h))
    intro k hle hlt
    simp only [List.length_append, List.length_cons, List.length_nil] at hle hlt
    exact hidden k (by omega) (by simp only [List.length_cons]; omega)

/-- The scan takes a token for one exactly if its colon is one. -/
theorem isToken_iff_shallow {text before rest : List Char} {ps : List (Nat × Piece)} {t : Token}
    (hps : pieces text = some ps) (htext : text = before ++ (t.text ++ rest))
    (hread : readToken? (t.text ++ rest) = some t) :
    utf8Length before + utf8Length t.lead ∈ shallowOffsets 0 ps ↔
      IsToken text (before.length + t.lead.length) := by
  obtain ⟨-, ht⟩ := eq_of_readToken? hread
  obtain ⟨hname, -⟩ := colon_of_readToken? hread
  have hcolon : text = (before ++ t.lead) ++ ':' :: (t.name ++ t.constraint.getD [] ++
      (if t.optional then ['?'] else []) ++ (if t.rest then ['*'] else []) ++ rest) := by
    rw [htext]
    simp [Token.text]
  have hdrop : text.drop (before.length + t.lead.length) = (t.text ++ rest).drop t.lead.length := by
    rw [htext, ← List.drop_drop, List.drop_left' rfl]
  rw [IsToken, hdrop, hname, readingAt_eq hcolon (List.length_append).symm, ← utf8Length_append,
    mem_shallowOffsets_iff (by decide) (hcolon ▸ hps)]
  simp [ht.name_ne_nil]

/-- **Substitution goes by the visible tokens.** -/
theorem parted_partsFrom {text : List Char} {ps : List (Nat × Piece)} (hps : pieces text = some ps)
    (before after : List Char) (htext : text = before ++ after) (hclear : Clear text before.length) :
    ∃ passages, Parted text before passages ∧
      partsFrom (shallowOffsets 0 ps) (utf8Length before) 0 0 after =
        passages.map Passage.part := by
  induction before, after using scan_induction with
  | done before =>
    rw [List.append_nil] at htext
    subst htext
    exact ⟨[], .done, rfl⟩
  | copied before c after hread ih =>
    -- Nothing begins here.
    have hname : nameOf (text.drop before.length) = [] := by
      rw [htext, List.drop_left' rfl]
      exact nameOf_of_readToken?_eq_none hread
    have hclear' : Clear text (before ++ [c]).length := by
      rw [List.length_append]
      apply hclear.trans (Nat.le_add_right _ _)
      intro k hle hlt
      obtain rfl : k = before.length := by simp at hlt; omega
      rw [reach_eq_zero hname]
      simp
    obtain ⟨passages, hparted, hparts⟩ := ih (by simpa using htext) hclear'
    refine ⟨.copied c :: passages, .copied (fun hvisible => hvisible.1.2.2 hname) hparted, ?_⟩
    rw [partsFrom_copied _ hread, List.map_cons, ← hparts]
    simp [Passage.part]
  | token before t rest hread ih =>
    obtain ⟨hclear', hvisible⟩ := places_of_token htext hread hclear
    have hrest' : text = (before ++ t.text) ++ rest := by rw [htext, List.append_assoc]
    obtain ⟨passages, hparted, hparts⟩ := ih hrest' (by rwa [List.length_append])
    rw [utf8Length_append] at hparts
    have hshallow := isToken_iff_shallow hps htext hread
    rw [partsFrom_read hread, hparts]
    by_cases htoken : IsToken text (before.length + t.lead.length)
    · rw [if_pos (hshallow.mpr htoken)]
      refine ⟨.token t (utf8Length before ∉ shallowOffsets 0 ps) :: passages, ?_, rfl⟩
      refine .token htext hread ?_ ?_ hparted
      · intro hlead
        simp only [decide_eq_false_iff_not, not_not] at hlead
        exact after_of_mem_shallowOffsets hps htext hlead
      · intro k hle hlt
        rw [hvisible k hle hlt]
        constructor
        · exact fun h => h.1
        · rintro rfl
          exact ⟨rfl, htoken⟩
    · rw [if_neg (hshallow.not.mpr htoken)]
      refine ⟨t.text.map .copied ++ passages, hparted.copies ?_, ?_⟩
      · intro k hle hlt hv
        obtain ⟨rfl, h⟩ := (hvisible k hle hlt).mp hv
        exact htoken h
      · rw [List.map_append, List.map_map]
        rfl

/-- The parts of a substituted text come from its passages. -/
theorem parted_substitute {text : List Char} {parts : List Part} (h : substitute text = some parts) :
    ∃ passages, Parted text [] passages ∧ passages.flatMap Passage.source = text ∧
      parts = passages.map Passage.part := by
  simp only [substitute, Option.map_eq_some_iff] at h
  obtain ⟨ps, hps, rfl⟩ := h
  obtain ⟨passages, hparted, hparts⟩ := parted_partsFrom hps [] text rfl
    fun k hk => absurd hk (Nat.not_lt_zero k)
  exact ⟨passages, hparted, hparted.source.symm, hparts⟩

end RequestRouter.Spec
