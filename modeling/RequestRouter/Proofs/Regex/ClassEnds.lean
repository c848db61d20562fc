/-
  RequestRouter/Proofs/Regex/ClassEnds.lean
  =========================================
  **A class ends before the end of its text.**

  In a class a slash is an item like any other, and a reader of items may take the slash of the
  loose end.  Then it has come past the last closing bracket (`pastSlash`), and the class is never
  closed.  So a class that can be read before the loose end has taken nothing of it, and is read
  before the strict end as well (`readClass_follows`).
-/
import RequestRouter.Proofs.Regex.Ends

namespace RequestRouter.Regex

open RequestRouter.Unicode

variable {stop cs cs' : List Char} {flags : Flags} {extended : Bool}

/-! ### Items -/

/-- What is left once the slash of the ends has been taken as an item of a class: no class ends
    there. -/
def pastSlash : List Char := ['?', ')', '$']

/-- An item of a class is the same, unless it is the slash of the ends. -/
theorem readClassItem_follows (hstop : StrictEnd stop) (h : SameUpTo stop cs cs') {p : Primitive}
    {left : List Char} (hread : readClassItem flags cs = .ok (p, left)) :
    left = pastSlash ∨
      ∃ left', readClassItem flags cs' = .ok (p, left') ∧ SameUpTo stop left left' := by
  cases cs with
  | nil => cases hread
  | cons c cs =>
    rcases h.of_cons with ⟨heq, -⟩ | ⟨u, rfl, hu⟩
    · rw [heq] at hread
      cases hread
      exact .inl rfl
    by_cases hslash : c = '\\'
    · subst hslash
      cases cs with
      | nil => cases hread
      | cons d cs =>
        rcases hu.of_cons with ⟨heq, -⟩ | ⟨v, rfl, hv⟩
        · rw [heq] at hread
          cases hread
          exact .inl rfl
        · obtain ⟨⟨-, left'⟩, hread', rfl, hleft⟩ := readEscape_follows hstop hv d _ hread
          exact .inr ⟨left', hread', hleft⟩
    · have hliteral : ∀ cs, readClassItem flags (c :: cs) = .ok (.literal c false, cs) := by
        intro cs
        unfold readClassItem
        split
        · next heq => cases heq
        · next heq => exact absurd (List.cons.inj heq).1 hslash
        · next heq =>
          obtain ⟨rfl, rfl⟩ := List.cons.inj heq
          rfl
      rw [hliteral] at hread ⊢
      cases hread
      exact .inr ⟨u, rfl, hu⟩

theorem peekSpaced_of_ne (h : (cs.dropWhile isSpace).head? ≠ some '#') :
    peekSpaced true cs = (cs.dropWhile isSpace).head? := by
  unfold peekSpaced
  simp only [Bool.not_true, Bool.false_eq_true, if_false]
  split
  · next heq =>
    rw [heq] at h
    exact absurd rfl h
  · rfl

theorem peekSpaced_mark {rest : List Char} (h : cs.dropWhile isSpace = '#' :: rest) :
    peekSpaced true cs = (rest.dropWhile isSpace).head? := by
  unfold peekSpaced
  rw [h]
  rfl

/-- Looking ahead gives a character in both texts or in none, unless it is at the ends. -/
theorem peekSpaced_sameUpTo (hstop : StrictEnd stop) (h : SameUpTo stop cs cs') {c : Char}
    (hc : c ≠ '/' ∧ c ≠ ')') :
    (peekSpaced extended cs == some c) = (peekSpaced extended cs' == some c) := by
  have hhead : ∀ {cs cs' : List Char}, SameUpTo stop cs cs' →
      (cs.head? == some c) = (cs'.head? == some c) := by
    intro cs cs' h
    rcases h.head_cases hstop c hc with ⟨t, t', rfl, rfl, -⟩ | ⟨hne, hne'⟩
    · rfl
    · rw [beq_eq_false_iff_ne.mpr hne, beq_eq_false_iff_ne.mpr hne']
  cases extended with
  | false => exact hhead h
  | true =>
    have hblanks := h.dropWhile hstop (p := isSpace) (by decide) (by decide)
    rcases hblanks.head_cases hstop '#' (by decide) with ⟨t, t', ht, ht', hsame⟩ | ⟨hne, hne'⟩
    · rw [peekSpaced_mark ht, peekSpaced_mark ht']
      exact hhead (hsame.dropWhile hstop (by decide) (by decide))
    · rw [peekSpaced_of_ne hne, peekSpaced_of_ne hne']
      exact hhead hblanks

/-- The end of a range after its dash. -/
def rangeLast (flags : Flags) (first : Primitive) (cs : List Char) :
    Except Error (CharSet × List Char) := do
  let (last, left) ← readClassItem flags cs
  let a ← rangeEnd flags first
  let b ← rangeEnd flags last
  if a ≤ b then .ok (.between a b, left) else .error .badClassItem

/-- What follows the first item of a range, or an item by itself. -/
def afterItem (flags : Flags) (first : Primitive) (cs : List Char) :
    Except Error (CharSet × List Char) :=
  match cs with
  | [] => .error .unclosedClass
  | '-' :: rest =>
    if peekSpaced flags.extended rest == some ']' || peekSpaced flags.extended rest == some '-' then do
      .ok (← itemSet flags first, '-' :: rest)
    else rangeLast flags first (skip flags.extended rest)
  | left => do .ok (← itemSet flags first, left)

theorem afterItem_of_ne {first : Primitive} (hdash : cs.head? ≠ some '-') (hne : cs ≠ []) :
    afterItem flags first cs = itemSet flags first >>= fun set => .ok (set, cs) := by
  unfold afterItem
  split
  · exact absurd rfl hne
  · exact absurd rfl hdash
  · rfl

theorem readRange_eq_bind (cs : List Char) :
    readRange flags cs =
      readClassItem flags cs >>= fun item =>
        afterItem flags item.1 (skip flags.extended item.2) := by
  refine congrArg (readClassItem flags cs >>= ·) (funext fun item => ?_)
  obtain ⟨first, left⟩ := item
  simp only
  generalize skip flags.extended left = rest
  split
  · rfl
  · next rest =>
    simp only [afterItem]
    cases skip flags.extended rest <;> rfl
  · next hne hdash =>
    refine (afterItem_of_ne (fun hhead => ?_) hne).symm
    obtain ⟨tail, htail⟩ := List.head?_eq_some_iff.mp hhead
    exact hdash tail htail

theorem rangeLast_follows (hstop : StrictEnd stop) (h : SameUpTo stop cs cs') {first : Primitive}
    {set : CharSet} {left : List Char} (hread : rangeLast flags first cs = .ok (set, left)) :
    left = pastSlash ∨
      ∃ left', rangeLast flags first cs' = .ok (set, left') ∧ SameUpTo stop left left' := by
  obtain ⟨⟨last, left⟩, hlast, hread⟩ := except_bind_ok hread
  obtain ⟨a, ha, hread⟩ := except_bind_ok hread
  obtain ⟨b, hb, hread⟩ := except_bind_ok hread
  split at hread
  · next hle =>
    cases hread
    rcases readClassItem_follows hstop h hlast with rfl | ⟨left', hlast', hleft⟩
    · exact .inl rfl
    · refine .inr ⟨left', ?_, hleft⟩
      unfold rangeLast
      rw [hlast']
      simp only [bind, Except.bind, ha, hb]
      exact if_pos hle
  · cases hread

theorem afterItem_follows (hstop : StrictEnd stop) (h : SameUpTo stop cs cs') {first : Primitive}
    {set : CharSet} {left : List Char} (hread : afterItem flags first cs = .ok (set, left)) :
    left = pastSlash ∨
      ∃ left', afterItem flags first cs' = .ok (set, left') ∧ SameUpTo stop left left' := by
  rcases h.head_cases hstop '-' (by decide) with ⟨t, t', rfl, rfl, ht⟩ | ⟨hdash, hdash'⟩
  · unfold afterItem at hread ⊢
    simp only at hread ⊢
    rw [← peekSpaced_sameUpTo hstop ht (by decide), ← peekSpaced_sameUpTo hstop ht (by decide)]
    split at hread
    · next hpeek =>
      obtain ⟨set', hset, hread⟩ := except_bind_ok hread
      cases hread
      rw [if_pos hpeek, hset]
      exact .inr ⟨_, rfl, h⟩
    · next hpeek =>
      rw [if_neg hpeek]
      exact rangeLast_follows hstop (ht.skip hstop flags.extended) hread
  · cases cs with
    | nil => cases hread
    | cons c cs =>
      rw [afterItem_of_ne hdash (by simp)] at hread
      rw [afterItem_of_ne hdash' (h.ne_nil hstop (by simp))]
      obtain ⟨set', hset, hread⟩ := except_bind_ok hread
      cases hread
      rw [hset]
      exact .inr ⟨_, rfl, h⟩

theorem readRange_follows (hstop : StrictEnd stop) (h : SameUpTo stop cs cs') {set : CharSet}
    {left : List Char} (hread : readRange flags cs = .ok (set, left)) :
    left = pastSlash ∨
      ∃ left', readRange flags cs' = .ok (set, left') ∧ SameUpTo stop left left' := by
  rw [readRange_eq_bind] at hread ⊢
  obtain ⟨⟨first, left₁⟩, hfirst, hread⟩ := except_bind_ok hread
  rcases readClassItem_follows hstop h hfirst with rfl | ⟨left₁', hfirst', hleft⟩
  · have hskip : skip flags.extended pastSlash = pastSlash := by cases flags.extended <;> decide
    simp only [hskip] at hread
    obtain ⟨set', -, hread⟩ := except_bind_ok hread
    cases hread
    exact .inl rfl
  · rw [hfirst']
    exact afterItem_follows hstop (hleft.skip hstop flags.extended) hread

/-! ### Steps of a class -/

/-- A caret after an opening bracket, and what is left after it. -/
def afterCaret (extended : Bool) (cs : List Char) : Bool × List Char :=
  match cs with
  | '^' :: rest => (true, skip extended rest)
  | _ => (false, cs)

theorem afterCaret_of_ne (h : cs.head? ≠ some '^') : afterCaret extended cs = (false, cs) := by
  unfold afterCaret
  split
  · exact absurd rfl h
  · rfl

theorem afterCaret_sameUpTo (hstop : StrictEnd stop) (h : SameUpTo stop cs cs') (extended : Bool) :
    SameRead stop (afterCaret extended cs) (afterCaret extended cs') := by
  rcases h.head_cases hstop '^' (by decide) with ⟨t, t', rfl, rfl, ht⟩ | ⟨hhead, hhead'⟩
  · exact ⟨rfl, ht.skip hstop extended⟩
  · rw [afterCaret_of_ne hhead, afterCaret_of_ne hhead']
    exact ⟨rfl, h⟩

/-- The characters that are literal because they come first in a class, and what is left. -/
def literalsFirst (extended : Bool) (run : List Char × List Char) : List Char × List Char :=
  match run.1, run.2 with
  | [], ']' :: rest => ([']'], skip extended rest)
  | _, _ => run

theorem literalsFirst_of_ne {run : List Char × List Char} (h : run.2.head? ≠ some ']') :
    literalsFirst extended run = run := by
  unfold literalsFirst
  split
  · next heq =>
    rw [heq] at h
    exact absurd rfl h
  · rfl

theorem literalsFirst_sameRead (hstop : StrictEnd stop) {run run' : List Char × List Char}
    (h : SameRead stop run run') :
    SameRead stop (literalsFirst extended run) (literalsFirst extended run') := by
  obtain ⟨dashes, left⟩ := run
  obtain ⟨dashes', left'⟩ := run'
  obtain ⟨rfl, hleft⟩ : dashes = dashes' ∧ SameUpTo stop left left' := h
  rcases hleft.head_cases hstop ']' (by decide) with ⟨t, t', rfl, rfl, ht⟩ | ⟨hhead, hhead'⟩
  · cases dashes with
    | nil => exact ⟨rfl, ht.skip hstop extended⟩
    | cons d dashes => exact ⟨rfl, hleft⟩
  · rw [literalsFirst_of_ne hhead, literalsFirst_of_ne hhead']
    exact ⟨rfl, hleft⟩

/-- What a class starts with: whether it is a complement, the characters that are literal because they
    come first, and what is left. -/
def classOpening (extended : Bool) (cs : List Char) : Bool × List Char × List Char :=
  let caret := afterCaret extended (skip extended cs)
  (caret.1, literalsFirst extended (takeSpaced (· == '-') extended caret.2.length caret.2))

theorem openClass_eq_opening (cs : List Char) :
    openClass flags cs =
      if (classOpening flags.extended cs).2.2.isEmpty then .error .unclosedClass
      else .ok ((classOpening flags.extended cs).1,
        (classOpening flags.extended cs).2.1.map fun c => ⟨.ofChar c, 0⟩,
        (classOpening flags.extended cs).2.2) :=
  rfl

theorem classOpening_sameRead (hstop : StrictEnd stop) (h : SameUpTo stop cs cs') (extended : Bool) :
    SameRead₂ stop (classOpening extended cs) (classOpening extended cs') := by
  have hcaret := afterCaret_sameUpTo hstop (h.skip hstop extended) extended
  exact ⟨hcaret.1, literalsFirst_sameRead hstop
    (takeSpaced_of_stops hstop (by decide) (by decide) hcaret.2 extended)⟩

theorem openClass_follows (hstop : StrictEnd stop) (h : SameUpTo stop cs cs') :
    Follows (SameRead₂ stop) (openClass flags cs) (openClass flags cs') := by
  have hopening := classOpening_sameRead hstop h flags.extended
  rw [openClass_eq_opening, openClass_eq_opening]
  generalize classOpening flags.extended cs = found at hopening ⊢
  generalize classOpening flags.extended cs' = found' at hopening ⊢
  obtain ⟨negated, first, left⟩ := found
  obtain ⟨negated', first', left'⟩ := found'
  obtain ⟨rfl, rfl, hleft⟩ : negated = negated' ∧ first = first' ∧ SameUpTo stop left left' := hopening
  cases left with
  | nil => exact follows_error
  | cons c left =>
    have hne := hleft.ne_nil hstop (by simp)
    cases left' with
    | nil => exact absurd rfl hne
    | cons c' left' => exact follows_ok ⟨rfl, rfl, hleft⟩

theorem caretOf_sameUpTo (hstop : StrictEnd stop) (h : SameUpTo stop cs cs') :
    SameRead stop (caretOf cs) (caretOf cs') := by
  rcases h.head_cases hstop '^' (by decide) with ⟨t, t', rfl, rfl, ht⟩ | ⟨hhead, hhead'⟩
  · exact ⟨rfl, ht⟩
  · rw [caretOf_of_ne hhead, caretOf_of_ne hhead']
    exact ⟨rfl, h⟩

theorem namedClass?_of_ne {c : Char} {left : List Char} (hcolon : cs.dropWhile (· != ':') = c :: left)
    (h : left.head? ≠ some ']') : namedClass? cs = none := by
  unfold namedClass?
  rw [hcolon]
  split
  · next heq =>
    rw [(List.cons.inj heq).2] at h
    exact absurd rfl h
  · rfl

theorem namedClass?_of_notMem (h : ':' ∉ cs) : namedClass? cs = none := by
  have hcolon : cs.dropWhile (· != ':') = [] := by
    rw [List.dropWhile_eq_nil_iff]
    exact fun c hc => bne_iff_ne.mpr fun heq => h (heq ▸ hc)
  unfold namedClass?
  rw [hcolon]

theorem namedClass?_sameUpTo (hstop : StrictEnd stop) (h : SameUpTo stop cs cs') :
    Option.Rel (SameRead stop) (namedClass? cs) (namedClass? cs') := by
  by_cases hmem : ':' ∈ cs
  · cases hrun : cs.dropWhile (· != ':') with
    | nil =>
      rw [List.dropWhile_eq_nil_iff] at hrun
      exact absurd (hrun ':' hmem) (by decide)
    | cons d left =>
      obtain ⟨rfl, left', hrun', hleft⟩ := @takeSpaced_upTo _ _ _ false hstop h ':' d (by decide)
        (cs.takeWhile (· != ':')) left (by rw [takeSpaced_length, hrun])
      rw [takeSpaced_length] at hrun'
      obtain ⟨hname, hcolon⟩ := Prod.mk.inj hrun'
      rcases hleft.head_cases hstop ']' (by decide) with ⟨t, t', rfl, rfl, ht⟩ | ⟨hhead, hhead'⟩
      · unfold namedClass?
        rw [hrun, hcolon, hname]
        cases asciiClass? (cs.takeWhile (· != ':')) with
        | none => exact .none
        | some set => exact .some ⟨rfl, ht⟩
      · rw [namedClass?_of_ne hrun hhead, namedClass?_of_ne hcolon hhead']
        exact .none
  · have hmem' : ':' ∉ cs' := fun hc => hmem ((h.mem_iff hstop (by decide)).mpr hc)
    rw [namedClass?_of_notMem hmem, namedClass?_of_notMem hmem']
    exact .none

theorem readAsciiClass?_of_ne (h : cs.head? ≠ some ':') : readAsciiClass? cs = none := by
  unfold readAsciiClass?
  split
  · exact absurd rfl h
  · rfl

theorem readAsciiClass?_sameUpTo (hstop : StrictEnd stop) (h : SameUpTo stop cs cs') :
    Option.Rel (SameRead₂ stop) (readAsciiClass? cs) (readAsciiClass? cs') := by
  rcases h.head_cases hstop ':' (by decide) with ⟨t, t', rfl, rfl, ht⟩ | ⟨hhead, hhead'⟩
  · have hcaret := caretOf_sameUpTo hstop ht
    have hnamed := namedClass?_sameUpTo hstop hcaret.2
    rw [readAsciiClass?_eq, readAsciiClass?_eq]
    generalize namedClass? (caretOf t).2 = found at hnamed ⊢
    generalize namedClass? (caretOf t').2 = found' at hnamed ⊢
    cases hnamed with
    | none => exact .none
    | some hsame => exact .some ⟨hsame.1, hcaret.1, hsame.2⟩
  · rw [readAsciiClass?_of_ne hhead, readAsciiClass?_of_ne hhead']
    exact .none

/-- The same step, up to the ends of what is left. -/
inductive SameStep (stop : List Char) : ClassStep → ClassStep → Prop
  | closed (part : ClassPart) : SameStep stop (.closed part) (.closed part)
  | more (state : ClassState) {left left' : List Char} (h : SameUpTo stop left left') :
    SameStep stop (.more state left) (.more state left')

theorem closeBracket_follows (h : SameUpTo stop cs cs') (state : ClassState) :
    Follows (SameStep stop) (closeBracket flags state cs) (closeBracket flags state cs') := by
  unfold closeBracket
  generalize closeOperator flags state = closed
  obtain ⟨part, frames⟩ := closed
  cases frames with
  | nil => exact follows_error
  | cons frame frames =>
    cases frame with
    | operator op left => exact follows_error
    | bracket negated outer =>
      refine follows_bind fun set => ?_
      cases frames with
      | nil => exact follows_ok (.closed _)
      | cons frame frames => exact follows_ok (.more _ h)

/-- The operator that starts with `c`, and what is left after it. -/
def readOperator? (c : Char) (rest : List Char) : Option (ClassOperator × List Char) :=
  match c, rest with
  | '&', '&' :: left => some (.intersection, left)
  | '-', '-' :: left => some (.difference, left)
  | '~', '~' :: left => some (.symmetricDifference, left)
  | _, _ => none

theorem readOperator?_of_ne {c : Char} (h : cs.head? ≠ some c) : readOperator? c cs = none := by
  unfold readOperator?
  split
  case h_4 => rfl
  all_goals exact absurd rfl h

theorem readOperator?_of_notMem {c : Char} (hc : c ∉ ['&', '-', '~']) : readOperator? c cs = none := by
  unfold readOperator?
  split
  case h_4 => rfl
  all_goals exact absurd (by decide) hc

theorem readOperator?_sameUpTo (hstop : StrictEnd stop) (h : SameUpTo stop cs cs') (c : Char) :
    Option.Rel (SameRead stop) (readOperator? c cs) (readOperator? c cs') := by
  by_cases hc : c ∈ ['&', '-', '~']
  · have hends : c ≠ '/' ∧ c ≠ ')' := by
      constructor <;> (rintro rfl; exact absurd hc (by decide))
    rcases h.head_cases hstop c hends with ⟨t, t', rfl, rfl, ht⟩ | ⟨hhead, hhead'⟩
    · simp only [List.mem_cons, List.not_mem_nil, or_false] at hc
      rcases hc with rfl | rfl | rfl
      all_goals exact .some ⟨rfl, ht⟩
    · rw [readOperator?_of_ne hhead, readOperator?_of_ne hhead']
      exact .none
  · rw [readOperator?_of_notMem hc, readOperator?_of_notMem hc]
    exact .none

/-- What an item does that is no blank, no comment and no bracket. -/
def plainStep (flags : Flags) (state : ClassState) (c : Char) (rest : List Char) :
    Except Error ClassStep :=
  match readOperator? c rest with
  | some (op, left) => .ok (.more (openOperator flags op state) left)
  | none => do
    let (set, left) ← readRange flags (c :: rest)
    .ok (.more { state with items := ⟨set, 0⟩ :: state.items } left)

/-- What an opening bracket in a class does. -/
def bracketStep (flags : Flags) (state : ClassState) (rest : List Char) : Except Error ClassStep :=
  match readAsciiClass? rest with
  | some (set, negated, left) => do
    let set ← negateIf flags negated (foldIf flags set)
    .ok (.more { state with items := ⟨set, 0⟩ :: state.items } left)
  | none => do
    let (negated, first, left) ← openClass flags rest
    .ok (.more ⟨first.reverse, .bracket negated state.items :: state.frames⟩ left)

theorem classStep_eq (state : ClassState) (c : Char) (rest : List Char) :
    classStep flags state c rest =
      if flags.extended && isSpace c then .ok (.more state rest)
      else if flags.extended && c == '#' then .ok (.more state (skipIgnored true rest))
      else if c = '[' then bracketStep flags state rest
      else if c = ']' then closeBracket flags state rest
      else plainStep flags state c rest := by
  have hplain : plainStep flags state c rest =
      (match c, rest with
      | '&', '&' :: left => .ok (.more (openOperator flags .intersection state) left)
      | '-', '-' :: left => .ok (.more (openOperator flags .difference state) left)
      | '~', '~' :: left => .ok (.more (openOperator flags .symmetricDifference state) left)
      | _, _ => do
        let (set, left) ← readRange flags (c :: rest)
        .ok (.more { state with items := ⟨set, 0⟩ :: state.items } left)) := by
    split
    case h_4 hand hdash htilde =>
      have hnone : readOperator? c rest = none := by
        unfold readOperator?
        split
        · exact absurd rfl (hand _ rfl)
        · exact absurd rfl (hdash _ rfl)
        · exact absurd rfl (htilde _ rfl)
        · rfl
      unfold plainStep
      rw [hnone]
    all_goals rfl
  rw [hplain]
  rfl

theorem bracketStep_follows (hstop : StrictEnd stop) (h : SameUpTo stop cs cs') (state : ClassState) :
    Follows (SameStep stop) (bracketStep flags state cs) (bracketStep flags state cs') := by
  have hnamed := readAsciiClass?_sameUpTo hstop h
  unfold bracketStep
  generalize readAsciiClass? cs = found at hnamed ⊢
  generalize readAsciiClass? cs' = found' at hnamed ⊢
  cases hnamed with
  | none =>
    refine (openClass_follows hstop h).bind ?_
    rintro ⟨negated, first, left⟩ ⟨-, -, left'⟩ ⟨rfl, rfl, hleft⟩
    exact follows_ok (.more _ hleft)
  | @some a b hsame =>
    obtain ⟨set, negated, left⟩ := a
    obtain ⟨set', negated', left'⟩ := b
    obtain ⟨rfl, rfl, hleft⟩ : set = set' ∧ negated = negated' ∧ SameUpTo stop left left' := hsame
    exact follows_bind fun closed => follows_ok (.more _ hleft)

/-- An item that is no blank, no comment and no bracket is the same, unless it ends in the slash of the
    ends. -/
theorem plainStep_follows (hstop : StrictEnd stop) {c : Char} {t : List Char} {state : ClassState}
    {step : ClassStep} (hstep : plainStep flags state c (t ++ looseEnd) = .ok step) :
    (∃ state', step = .more state' pastSlash) ∨
      ∃ step', plainStep flags state c (t ++ stop) = .ok step' ∧ SameStep stop step step' := by
  have hoperator := readOperator?_sameUpTo hstop (.before t) c
  unfold plainStep at hstep ⊢
  generalize readOperator? c (t ++ looseEnd) = found at hoperator hstep
  generalize readOperator? c (t ++ stop) = found' at hoperator ⊢
  cases hoperator with
  | @some a b hsame =>
    obtain ⟨op, left⟩ := a
    obtain ⟨op', left'⟩ := b
    obtain ⟨rfl, hleft⟩ : op = op' ∧ SameUpTo stop left left' := hsame
    cases hstep
    exact .inr ⟨_, rfl, .more _ hleft⟩
  | none =>
    obtain ⟨⟨set, left⟩, hrange, hstep⟩ := except_bind_ok hstep
    cases hstep
    rcases readRange_follows hstop (.before (c :: t)) hrange with rfl | ⟨left', hrange', hleft⟩
    · exact .inl ⟨_, rfl⟩
    · refine .inr ⟨_, ?_, .more _ hleft⟩
      rw [List.cons_append] at hrange'
      simp only [hrange', bind, Except.bind]

theorem classStep_follows (hstop : StrictEnd stop) {c : Char} {t : List Char} {state : ClassState}
    {step : ClassStep} (hstep : classStep flags state c (t ++ looseEnd) = .ok step) :
    (∃ state', step = .more state' pastSlash) ∨
      ∃ step', classStep flags state c (t ++ stop) = .ok step' ∧ SameStep stop step step' := by
  have h : SameUpTo stop (t ++ looseEnd) (t ++ stop) := .before t
  rw [classStep_eq] at hstep ⊢
  split at hstep
  · next hspace =>
    rw [if_pos hspace]
    cases hstep
    exact .inr ⟨_, rfl, .more _ h⟩
  · next hspace =>
    rw [if_neg hspace]
    split at hstep
    · next hcomment =>
      rw [if_pos hcomment]
      cases hstep
      exact .inr ⟨_, rfl, .more _ (skipIgnored_sameUpTo hstop true t)⟩
    · next hcomment =>
      rw [if_neg hcomment]
      split at hstep
      · next hopen =>
        rw [if_pos hopen]
        exact .inr (bracketStep_follows hstop h state _ hstep)
      · next hopen =>
        rw [if_neg hopen]
        split at hstep
        · next hclose =>
          rw [if_pos hclose]
          exact .inr (closeBracket_follows h state _ hstep)
        · next hclose =>
          rw [if_neg hclose]
          exact plainStep_follows hstop hstep

/-- A class that is read ends before the ends of the texts. -/
theorem readClassFrom_follows (hstop : StrictEnd stop) {t : List Char} {state : ClassState}
    {taken : Nat} (htaken : taken ≤ t.length) {part : ClassPart} {left : List Char}
    (h : readClassFrom flags state taken (t ++ looseEnd) = .ok (part, left)) :
    ∃ left', readClassFrom flags state taken (t ++ stop) = .ok (part, left') ∧
      SameUpTo stop left left' := by
  induction t generalizing state taken with
  | nil => exact absurd (mem_of_readClassFrom h) (by decide)
  | cons c t ih =>
    cases taken with
    | succ taken => exact ih (Nat.le_of_succ_le_succ htaken) h
    | zero =>
      rw [List.cons_append, readClassFrom] at h
      rw [List.cons_append, readClassFrom]
      split at h
      · cases h
      · next hstep =>
        cases h
        rcases classStep_follows hstop hstep with ⟨state', heq⟩ | ⟨step', hstep', hsame⟩
        · cases heq
        · cases hsame
          rw [hstep']
          exact ⟨_, rfl, .before t⟩
      · next state' left' hstep =>
        rcases classStep_follows hstop hstep with ⟨state'', heq⟩ | ⟨step', hstep', hsame⟩
        · cases heq
          -- what is read further is behind the slash of the ends
          have hlength : (t ++ looseEnd).length - pastSlash.length = (t ++ ['/']).length := by
            simp [looseEnd, pastSlash]
          have hsplit : t ++ looseEnd = (t ++ ['/']) ++ pastSlash := by simp [looseEnd, pastSlash]
          rw [hlength, hsplit, readClassFrom_taken] at h
          exact absurd (mem_of_readClassFrom h) (by decide)
        · rw [hstep']
          cases hsame with
          | more _ hleft =>
            cases hleft with
            | ended =>
              have hnothing := readClassFrom_taken flags state' (t ++ looseEnd) []
              rw [List.append_nil] at hnothing
              rw [List.length_nil, Nat.sub_zero, hnothing] at h
              cases h
            | before u =>
              simp only [List.length_append, Nat.add_sub_add_right] at h ⊢
              exact ih (Nat.sub_le _ _) h

theorem readClass_follows (hstop : StrictEnd stop) (h : SameUpTo stop cs cs') :
    Follows (SameRead stop) (readClass flags cs) (readClass flags cs') := by
  refine (openClass_follows hstop h).bind ?_
  rintro ⟨negated, first, left⟩ ⟨-, -, left'⟩ ⟨rfl, rfl, hleft⟩
  rintro ⟨part, left₁⟩ hread
  cases hleft with
  | ended => cases hread
  | before t =>
    obtain ⟨left₁', hread', hsame⟩ := readClassFrom_follows hstop (Nat.zero_le _) hread
    exact ⟨_, hread', rfl, hsame⟩

end RequestRouter.Regex
