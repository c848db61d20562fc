/-
  RequestRouter/Proofs/Regex/Surroundings.lean
  ============================================
  **A reader that succeeds does not see a closing parenthesis or a letter behind its text.**

  The reader looks ahead: for the end of a class, of a name in braces, of a count, for a question mark
  after a repetition.  A text that is an expression on its own has all these ends inside it, so a
  closing parenthesis or a letter after it changes nothing: each reader that succeeds on a text
  succeeds on the text with such a character and more appended, with the same result (`Carries`).
  None of them asks whether the text holds parentheses itself.
-/
import Mathlib.Data.List.TakeWhile
import RequestRouter.Proofs.Regex.Reading
import RequestRouter.Proofs.Text.Case

namespace RequestRouter.Regex

open RequestRouter.Unicode

/-- A character that a reader sees nothing in when it looks ahead: a closing parenthesis or an ASCII
    letter. -/
def Unnoticed (c : Char) : Prop := c = ')' ∨ c.isAlpha = true

/-- What the readers look for in the character behind their text. -/
structure Unnoticed.Facts (c : Char) : Prop where
  space : isSpace c = false
  digit : ('0' ≤ c && c ≤ '9') = false
  marks : c ∉ ['?', '^', '-', ']', '\x7b', '\x7d']

theorem Unnoticed.facts {c : Char} (h : Unnoticed c) : Facts c := by
  rcases h with rfl | h
  · exact ⟨by decide, by decide, by decide⟩
  · exact ⟨Text.forall_isAlpha (P := fun c => isSpace c = false) (by decide +kernel) h,
      Text.forall_isAlpha (P := fun c => ('0' ≤ c && c ≤ '9') = false) (by decide) h,
      Text.forall_isAlpha (P := fun c => c ∉ ['?', '^', '-', ']', '\x7b', '\x7d']) (by decide) h⟩

variable {α : Type} {stop : Char} {more : List Char} {flags : Flags}

/-- Where the reader succeeds on a text, it gives the same when `stop` follows. -/
def Carries (stop : Char) (more : List Char) (reader : List Char → Except Error (α × List Char)) :
    Prop :=
  ∀ {cs a left}, reader cs = .ok (a, left) →
    reader (cs ++ stop :: more) = .ok (a, left ++ stop :: more)

theorem except_bind_ok {β : Type} {x : Except Error α} {f : α → Except Error β} {b : β}
    (h : (x >>= f) = .ok b) : ∃ a, x = .ok a ∧ f a = .ok b := by
  cases x with
  | error e => cases h
  | ok a => exact ⟨a, rfl, h⟩

/-! ### Runs of characters -/

@[simp] theorem skip_false (cs : List Char) : skip false cs = cs := rfl

theorem takeSpaced_eq (p : Char → Bool) {n : Nat} {cs : List Char} (h : cs.length ≤ n) :
    takeSpaced p false n cs = (cs.takeWhile p, cs.dropWhile p) := by
  induction n generalizing cs with
  | zero =>
    obtain rfl := List.length_eq_zero_iff.mp (Nat.le_zero.mp h)
    rfl
  | succ n ih =>
    cases cs with
    | nil => rfl
    | cons c cs =>
      rw [takeSpaced]
      by_cases hp : p c = true
      · have hmore := ih (Nat.le_of_succ_le_succ h)
        simp [hp, skip, hmore]
      · simp [hp]

theorem takeSpaced_length (p : Char → Bool) (cs : List Char) :
    takeSpaced p false cs.length cs = (cs.takeWhile p, cs.dropWhile p) :=
  takeSpaced_eq p (Nat.le_refl _)

/-- A run that ends before the end of the text, or that the character behind it ends. -/
theorem takeWhile_carries {p : Char → Bool} {cs : List Char}
    (h : cs.dropWhile p ≠ [] ∨ p stop = false) :
    (cs ++ stop :: more).takeWhile p = cs.takeWhile p ∧
      (cs ++ stop :: more).dropWhile p = cs.dropWhile p ++ stop :: more := by
  induction cs with
  | nil =>
    have hp : p stop = false := h.resolve_left (by simp)
    simp [hp]
  | cons c cs ih =>
    by_cases hp : p c = true
    · rw [List.dropWhile_cons_of_pos hp] at h
      simp [hp, ih h]
    · simp [hp]

theorem readGreed_of_ne {cs : List Char} (h : cs.head? ≠ some '?') : readGreed cs = (true, cs) := by
  unfold readGreed
  split
  · exact absurd rfl h
  · rfl

theorem readGreed_carries (hstop : Unnoticed stop) (cs : List Char) :
    readGreed (cs ++ stop :: more) = ((readGreed cs).1, (readGreed cs).2 ++ stop :: more) := by
  by_cases hmark : cs.head? = some '?'
  · obtain ⟨cs, rfl⟩ := List.head?_eq_some_iff.mp hmark
    rfl
  · have hmark' : (cs ++ stop :: more).head? ≠ some '?' := by
      cases cs with
      | nil =>
        intro heq
        cases heq
        exact hstop.facts.marks (by simp)
      | cons c cs => exact hmark
    rw [readGreed_of_ne hmark, readGreed_of_ne hmark']

/-! ### Counts -/

theorem readCount_carries (hstop : Unnoticed stop) : Carries stop more (readCount false) := by
  intro cs count left h
  have hspace : isSpace stop = false := hstop.facts.space
  have hdigit : ('0' ≤ stop && stop ≤ '9') = false := hstop.facts.digit
  unfold readCount at h ⊢
  simp only [takeSpaced_length] at h ⊢
  rw [(takeWhile_carries (.inr hspace)).2, (takeWhile_carries (.inr hdigit)).1,
    (takeWhile_carries (.inr hdigit)).2, (takeWhile_carries (.inr hspace)).2]
  split at h
  · next hempty =>
    cases h
    rw [if_pos hempty]
  · next hempty =>
    split at h
    · next hsmall =>
      cases h
      rw [if_neg hempty, if_pos hsmall]
    · cases h

theorem readCounts_carries (hstop : Unnoticed stop) {least : Nat} {most : Option Nat}
    {cs left : List Char} (h : readCounts false cs = .ok (least, most, left)) :
    readCounts false (cs ++ stop :: more) = .ok (least, most, left ++ stop :: more) := by
  obtain ⟨⟨first, left₁⟩, hfirst, h⟩ := except_bind_ok h
  unfold readCounts
  simp only [skip, Bool.false_eq_true, if_false] at hfirst h ⊢
  rw [readCount_carries hstop hfirst]
  simp only [bind, Except.bind]
  cases first with
  | none => cases h
  | some n =>
    simp only at h ⊢
    split at h
    · cases h
      rfl
    · split at h
      · cases h
        rfl
      · next rest _ hbrace =>
        obtain ⟨⟨second, left₂⟩, hsecond, h⟩ := except_bind_ok h
        simp only [List.cons_append]
        split
        · next left hleft =>
          cases rest with
          | nil =>
            obtain rfl := (List.cons.inj hleft).1
            exact absurd hstop.facts.marks (by simp)
          | cons d rest => exact absurd (congrArg (· :: rest) (List.cons.inj hleft).1) (hbrace rest)
        · rw [readCount_carries hstop hsecond]
          simp only at h ⊢
          split at h
          · next most left heq =>
            obtain ⟨rfl, rfl⟩ := Prod.mk.inj heq
            simp only [List.cons_append]
            split at h
            · next hle =>
              cases h
              rw [if_pos hle]
            · cases h
          · cases h
    · cases h

/-! ### Escapes -/

theorem takeHex_carries {n : Nat} : Carries stop more (takeHex false n) := by
  intro cs digits left h
  induction n generalizing cs digits with
  | zero =>
    cases h
    rfl
  | succ n ih =>
    cases cs with
    | nil => cases h
    | cons c cs =>
      rw [takeHex] at h
      rw [List.cons_append, takeHex]
      split at h
      · cases h
      · next hdigit =>
        obtain ⟨⟨digits', left'⟩, hmore, h⟩ := except_bind_ok h
        cases h
        rw [skip_false] at hmore
        rw [if_neg hdigit, skip_false, ih hmore]
        rfl

theorem readHex_carries {digits : Nat} : Carries stop more (readHex false digits) := by
  intro cs p left h
  cases cs with
  | nil => cases h
  | cons c cs =>
    unfold readHex at h ⊢
    simp only [skip_false, List.cons_append, takeSpaced_length] at h ⊢
    by_cases hbrace : c = '\x7b'
    · subst hbrace
      have hclosed : cs.dropWhile (Number.isDigitIn 16) ≠ [] := by
        intro hnil
        simp only [hnil] at h
        cases hds : cs.takeWhile (Number.isDigitIn 16) with
        | nil =>
          rw [hds] at h
          cases h
        | cons d ds =>
          rw [hds] at h
          cases h
      have hrun := @takeWhile_carries stop more (Number.isDigitIn 16) cs (.inl hclosed)
      simp only [hrun.1, hrun.2] at h ⊢
      generalize cs.takeWhile (Number.isDigitIn 16) = ds at h ⊢
      generalize cs.dropWhile (Number.isDigitIn 16) = tail at h ⊢
      split at h
      · cases h
      · next ds' left' hne heq =>
        obtain ⟨rfl, rfl⟩ := Prod.mk.inj heq
        obtain ⟨c, hc, h⟩ := except_bind_ok h
        cases h
        simp only [List.cons_append, hc]
        cases ds with
        | nil => exact absurd rfl hne
        | cons d ds => rfl
      · cases h
    · split at h
      · next heq => cases heq
      · next heq => exact absurd (List.cons.inj heq).1 hbrace
      · obtain ⟨⟨ds, left'⟩, hds, h⟩ := except_bind_ok h
        obtain ⟨c', hc, h⟩ := except_bind_ok h
        cases h
        split
        · next heq => cases heq
        · next heq => exact absurd (List.cons.inj heq).1 hbrace
        · have hmore := (takeHex_carries : Carries stop more _) hds
          rw [List.cons_append] at hmore
          simp only [hmore, bind, Except.bind, hc]

theorem readProperty_carries {negated : Bool} : Carries stop more (readProperty false negated) := by
  intro cs p left h
  cases cs with
  | nil => cases h
  | cons c cs =>
    unfold readProperty at h ⊢
    simp only [skip_false, List.cons_append, takeSpaced_length] at h ⊢
    by_cases hbrace : c = '\x7b'
    · subst hbrace
      simp only at h ⊢
      cases htail : cs.dropWhile (· != '\x7d') with
      | nil =>
        rw [htail] at h
        cases h
      | cons d tail =>
        have hrun := @takeWhile_carries stop more (· != '\x7d') cs (.inl (by simp [htail]))
        rw [htail] at h
        simp only [hrun.1, hrun.2, htail, List.cons_append]
        simp only at h
        split at h
        · cases h
        · next heq =>
          cases h
          rfl
    · by_cases hslash : c = '\\'
      · subst hslash
        cases h
      · split at h
        · next heq => cases heq
        · next heq => exact absurd (List.cons.inj heq).1 hbrace
        · cases h
        · next heq =>
          obtain ⟨rfl, rfl⟩ := List.cons.inj heq
          split at h
          · cases h
          · cases h
            rfl

/-- A choice of results in a row makes the same choice when every result is mapped. -/
theorem ite_ok_map {β : Type} (f : α → β) {p : Prop} [Decidable p] {a found : α}
    {e : Except Error α} {e' : Except Error β} (h : (if p then .ok a else e) = .ok found)
    (hlater : e = .ok found → e' = .ok (f found)) :
    (if p then .ok (f a) else e') = .ok (f found) := by
  split at h
  · next hp =>
    cases h
    exact if_pos hp
  · next hp =>
    rw [if_neg hp]
    exact hlater h

/-- The braces after `\b` hold a kind of boundary or something else, whatever follows. -/
theorem readBoundaryKind_carries {unicode : Bool} {cs : List Char}
    {found : Option (Assertion × List Char)} (h : readBoundaryKind false unicode cs = .ok found) :
    readBoundaryKind false unicode (cs ++ stop :: more) =
      .ok (found.map (Prod.map id (· ++ stop :: more))) := by
  have hchoice := @ite_ok_map _ _ (Option.map (Prod.map id (· ++ stop :: more)) :
    Option (Assertion × List Char) → Option (Assertion × List Char))
  cases cs with
  | nil => cases h
  | cons c cs =>
    unfold readBoundaryKind at h ⊢
    simp only [skip_false, List.cons_append, takeSpaced_length] at h ⊢
    refine hchoice h fun h => ?_
    have hclosed : (c :: cs).dropWhile (fun c => c.isAlpha || c == '-') ≠ [] := by
      intro hnil
      rw [hnil] at h
      cases h
    have hrun := @takeWhile_carries stop more (fun c => c.isAlpha || c == '-') (c :: cs)
      (.inl hclosed)
    rw [List.cons_append] at hrun
    rw [hrun.1, hrun.2]
    generalize (c :: cs).takeWhile (fun c => c.isAlpha || c == '-') = kind at h ⊢
    generalize (c :: cs).dropWhile (fun c => c.isAlpha || c == '-') = tail at h ⊢
    split at h
    · next heq =>
      obtain ⟨rfl, rfl⟩ := Prod.mk.inj heq
      -- the four kinds are tried one after the other
      exact hchoice h fun h => hchoice h fun h => hchoice h fun h => hchoice h fun h => nomatch h
    · cases h

/-- A word boundary, and a kind of it if one follows in braces. -/
theorem readBoundary_carries (hstop : Unnoticed stop) {unicode : Bool} :
    Carries stop more fun cs =>
      match cs with
      | '\x7b' :: inner => do
        match ← readBoundaryKind false unicode inner with
        | some (a, left) => .ok (.look a, left)
        | none => .ok (.look (.boundary unicode), cs)
      | _ => .ok (Primitive.look (.boundary unicode), cs) := by
  intro cs p left h
  cases cs with
  | nil =>
    cases h
    simp only [List.nil_append]
    split
    · next heq =>
      obtain rfl := (List.cons.inj heq).1
      exact absurd hstop.facts.marks (by simp)
    · rfl
  | cons c cs =>
    by_cases hbrace : c = '\x7b'
    · subst hbrace
      obtain ⟨found, hfound, h⟩ := except_bind_ok h
      simp only [List.cons_append, readBoundaryKind_carries hfound, bind, Except.bind]
      cases found with
      | none =>
        cases h
        rfl
      | some found =>
        cases h
        rfl
    · simp only at h
      split at h
      · next heq => exact absurd (List.cons.inj heq).1 hbrace
      · cases h
        simp only [List.cons_append]
        split
        · next heq => exact absurd (List.cons.inj heq).1 hbrace
        · rfl

theorem readEscape_carries (hstop : Unnoticed stop) (hextended : flags.extended = false) :
    Carries stop more (readEscape flags) := by
  intro cs p left h
  cases cs with
  | nil => cases h
  | cons c cs =>
    rw [List.cons_append]
    unfold readEscape at h ⊢
    simp only [hextended] at h ⊢
    split at h
    · exact readHex_carries h
    · exact readHex_carries h
    · exact readHex_carries h
    · exact readProperty_carries h
    · exact readProperty_carries h
    case h_23 => exact readBoundary_carries hstop h
    case h_24 =>
      split at h
      · next hliteral =>
        cases h
        rw [if_pos hliteral]
      · cases h
    all_goals
      cases h
      rfl

/-! ### Classes -/

/-- No named class has a bracket in its name. -/
theorem asciiClass?_eq_none {name : List Char} (h : ']' ∈ name) : asciiClass? name = none := by
  unfold asciiClass?
  simp only
  rw [List.lookup_eq_none_iff]
  intro entry hentry
  rw [bne_iff_ne]
  intro heq
  have hname : name = entry.1.toList := by rw [← heq, String.toList_ofList]
  rw [hname] at h
  simp only [List.mem_cons, List.not_mem_nil, or_false] at hentry
  rcases hentry with rfl | rfl | rfl | rfl | rfl | rfl | rfl | rfl | rfl | rfl | rfl | rfl | rfl | rfl
  all_goals exact absurd h (by decide)

/-- Whether a caret comes first, and what is left without it. -/
def caretOf (cs : List Char) : Bool × List Char :=
  match cs with
  | '^' :: left => (true, left)
  | _ => (false, cs)

theorem caretOf_of_ne {cs : List Char} (h : cs.head? ≠ some '^') : caretOf cs = (false, cs) := by
  unfold caretOf
  split
  · exact absurd rfl h
  · rfl

theorem caretOf_carries (hstop : Unnoticed stop) (cs : List Char) :
    caretOf (cs ++ stop :: more) = ((caretOf cs).1, (caretOf cs).2 ++ stop :: more) := by
  by_cases hcaret : cs.head? = some '^'
  · obtain ⟨cs, rfl⟩ := List.head?_eq_some_iff.mp hcaret
    rfl
  · have hcaret' : (cs ++ stop :: more).head? ≠ some '^' := by
      cases cs with
      | nil =>
        intro heq
        cases heq
        exact hstop.facts.marks (by simp)
      | cons c cs => exact hcaret
    rw [caretOf_of_ne hcaret, caretOf_of_ne hcaret']

theorem mem_caretOf {cs : List Char} (h : ']' ∈ cs) : ']' ∈ (caretOf cs).2 := by
  unfold caretOf
  split
  · exact (List.mem_cons.mp h).resolve_left (by simp)
  · exact h

/-- The class that is named up to `:]`. -/
def namedClass? (cs : List Char) : Option (CharSet × List Char) :=
  match cs.dropWhile (· != ':') with
  | ':' :: ']' :: left => (asciiClass? (cs.takeWhile (· != ':'))).map fun set => (set, left)
  | _ => none

/-- In a text that holds the end of a class, a name that only ends behind the text is none. -/
theorem namedClass?_carries (hstop : Unnoticed stop) {cs : List Char} (hend : ']' ∈ cs) :
    namedClass? (cs ++ stop :: more) =
      (namedClass? cs).map fun (set, left) => (set, left ++ stop :: more) := by
  unfold namedClass?
  cases hcolon : cs.dropWhile (· != ':') with
  | nil =>
    have hall : ∀ c ∈ cs, (c != ':') = true := List.dropWhile_eq_nil_iff.mp hcolon
    -- without a colon the name would run over the end of the class
    have hname : asciiClass? ((cs ++ stop :: more).takeWhile (· != ':')) = none := by
      apply asciiClass?_eq_none
      rw [List.takeWhile_append_of_pos hall]
      exact List.mem_append_left _ hend
    rw [hname]
    split <;> rfl
  | cons d tail =>
    have hrun := @takeWhile_carries stop more (· != ':') cs (.inl (by simp [hcolon]))
    rw [hrun.1, hrun.2, hcolon, List.cons_append]
    cases tail with
    | nil =>
      split
      · next heq =>
        obtain rfl := (List.cons.inj (List.cons.inj heq).2).1
        exact absurd hstop.facts.marks (by simp)
      · split
        · next heq => simp at heq
        · rfl
    | cons e tail =>
      by_cases hnamed : d = ':' ∧ e = ']'
      · obtain ⟨rfl, rfl⟩ := hnamed
        simp only [List.cons_append]
        cases asciiClass? (cs.takeWhile (· != ':')) <;> rfl
      · split
        · next heq =>
          have htail := List.cons.inj heq
          exact absurd ⟨htail.1, (List.cons.inj htail.2).1⟩ hnamed
        · split
          · next heq =>
            have htail := List.cons.inj heq
            exact absurd ⟨htail.1, (List.cons.inj htail.2).1⟩ hnamed
          · rfl

theorem readAsciiClass?_eq (cs : List Char) :
    readAsciiClass? (':' :: cs) =
      (namedClass? (caretOf cs).2).map fun (set, left) => (set, (caretOf cs).1, left) := by
  change (match (caretOf cs).2.dropWhile (· != ':') with
    | ':' :: ']' :: left =>
      (asciiClass? ((caretOf cs).2.takeWhile (· != ':'))).map fun set => (set, (caretOf cs).1, left)
    | _ => none) = _
  unfold namedClass?
  split
  · rw [Option.map_map]
    rfl
  · rfl

theorem readAsciiClass?_carries (hstop : Unnoticed stop) {cs : List Char} (hend : ']' ∈ cs) :
    readAsciiClass? (cs ++ stop :: more) =
      (readAsciiClass? cs).map fun (set, negated, left) => (set, negated, left ++ stop :: more) := by
  cases cs with
  | nil => cases hend
  | cons c cs =>
    rw [List.cons_append]
    by_cases hcolon : c = ':'
    · subst hcolon
      have hend' : ']' ∈ (caretOf cs).2 := mem_caretOf ((List.mem_cons.mp hend).resolve_left (by simp))
      rw [readAsciiClass?_eq, readAsciiClass?_eq, caretOf_carries hstop,
        namedClass?_carries hstop hend', Option.map_map, Option.map_map]
      rfl
    · have hnone : ∀ cs, readAsciiClass? (c :: cs) = none := by
        intro cs
        unfold readAsciiClass?
        split
        · next heq => exact absurd (List.cons.inj heq).1 hcolon
        · rfl
      rw [hnone, hnone]
      rfl

/-- The characters that are literal because they come first in a class, and what is left. -/
def firstLiterals (dashes left : List Char) : List Char × List Char :=
  match dashes, left with
  | [], ']' :: left => ([']'], left)
  | _, _ => (dashes, left)

theorem firstLiterals_of_ne {dashes left : List Char}
    (h : ¬ (dashes = [] ∧ left.head? = some ']')) : firstLiterals dashes left = (dashes, left) := by
  unfold firstLiterals
  split
  · exact absurd ⟨rfl, rfl⟩ h
  · rfl

theorem firstLiterals_carries {dashes left : List Char} (h : left ≠ []) :
    firstLiterals dashes (left ++ stop :: more) =
      ((firstLiterals dashes left).1, (firstLiterals dashes left).2 ++ stop :: more) := by
  obtain ⟨c, left, rfl⟩ := List.exists_cons_of_ne_nil h
  by_cases hfirst : dashes = [] ∧ c = ']'
  · obtain ⟨rfl, rfl⟩ := hfirst
    rfl
  · have hfirst' : ∀ cs : List Char, ¬ (dashes = [] ∧ (c :: cs).head? = some ']') := by
      simpa using hfirst
    rw [List.cons_append, firstLiterals_of_ne (hfirst' _), firstLiterals_of_ne (hfirst' _)]
    rfl

/-- What a class starts with. -/
def classStart (cs : List Char) : List Char × List Char :=
  firstLiterals ((caretOf cs).2.takeWhile (· == '-')) ((caretOf cs).2.dropWhile (· == '-'))

theorem classStart_carries (hstop : Unnoticed stop) {cs : List Char} (h : (classStart cs).2 ≠ []) :
    classStart (cs ++ stop :: more) = ((classStart cs).1, (classStart cs).2 ++ stop :: more) := by
  have hdash : (stop == '-') = false := by
    rw [beq_eq_false_iff_ne]
    rintro rfl
    exact absurd hstop.facts.marks (by simp)
  have hrun := @takeWhile_carries stop more (· == '-') (caretOf cs).2 (.inr hdash)
  unfold classStart at h ⊢
  rw [caretOf_carries hstop, hrun.1, hrun.2]
  apply firstLiterals_carries
  intro hnil
  rw [hnil, firstLiterals_of_ne (by simp)] at h
  exact h rfl

theorem openClass_eq (hextended : flags.extended = false) (cs : List Char) :
    openClass flags cs =
      if (classStart cs).2.isEmpty then .error .unclosedClass
      else .ok ((caretOf cs).1, (classStart cs).1.map fun c => ⟨.ofChar c, 0⟩,
        (classStart cs).2) := by
  have hrun := takeSpaced_length (· == '-') (caretOf cs).2
  have hstart : classStart cs =
      firstLiterals (takeSpaced (· == '-') false (caretOf cs).2.length (caretOf cs).2).1
        (takeSpaced (· == '-') false (caretOf cs).2.length (caretOf cs).2).2 := by
    rw [hrun]
    rfl
  rw [hstart]
  unfold openClass
  rw [hextended]
  rfl

theorem openClass_carries (hstop : Unnoticed stop) (hextended : flags.extended = false)
    {cs left : List Char} {negated : Bool} {first : List ClassPart}
    (h : openClass flags cs = .ok (negated, first, left)) :
    openClass flags (cs ++ stop :: more) = .ok (negated, first, left ++ stop :: more) := by
  rw [openClass_eq hextended] at h ⊢
  split at h
  · cases h
  · next hempty =>
    have hne : (classStart cs).2 ≠ [] := by simpa using hempty
    cases h
    rw [caretOf_carries hstop, classStart_carries hstop hne, if_neg (by simp)]

theorem readClassItem_carries (hstop : Unnoticed stop) (hextended : flags.extended = false) :
    Carries stop more (readClassItem flags) := by
  intro cs p left h
  cases cs with
  | nil => cases h
  | cons c cs =>
    rw [List.cons_append]
    unfold readClassItem at h ⊢
    split at h
    · next heq => cases heq
    · next heq =>
      obtain ⟨rfl, rfl⟩ := List.cons.inj heq
      exact readEscape_carries hstop hextended h
    · next hslash heq =>
      obtain ⟨rfl, rfl⟩ := List.cons.inj heq
      cases h
      split
      · next heq => cases heq
      · next heq => exact absurd (List.cons.inj heq).1 hslash
      · next heq =>
        obtain ⟨rfl, rfl⟩ := List.cons.inj heq
        rfl

/-- The end of a range after its dash, or the item before the dash by itself. -/
def readRangeEnd (flags : Flags) (first : Primitive) (rest : List Char) :
    Except Error (CharSet × List Char) :=
  if rest.head? == some ']' || rest.head? == some '-' then do
    .ok (← itemSet flags first, '-' :: rest)
  else
    match rest with
    | [] => .error .unclosedClass
    | rest => do
      let (last, left) ← readClassItem flags rest
      let a ← rangeEnd flags first
      let b ← rangeEnd flags last
      if a ≤ b then .ok (.between a b, left) else .error .badClassItem

theorem readRange_eq (hextended : flags.extended = false) (cs : List Char) :
    readRange flags cs = (do
      let (first, left) ← readClassItem flags cs
      match left with
      | [] => .error .unclosedClass
      | '-' :: rest => readRangeEnd flags first rest
      | left => .ok (← itemSet flags first, left)) := by
  unfold readRange peekSpaced
  simp only [hextended, skip_false, Bool.not_false, if_true]
  rfl

theorem readRangeEnd_carries (hstop : Unnoticed stop) (hextended : flags.extended = false)
    (first : Primitive) : Carries stop more (readRangeEnd flags first) := by
  intro cs set left h
  cases cs with
  | nil => cases h
  | cons c cs =>
    have hhead : (c :: cs ++ stop :: more).head? = (c :: cs).head? := rfl
    unfold readRangeEnd at h ⊢
    rw [hhead]
    by_cases hdash : ((c :: cs).head? == some ']' || (c :: cs).head? == some '-') = true
    · rw [if_pos hdash] at h ⊢
      obtain ⟨set', hset, h⟩ := except_bind_ok h
      cases h
      rw [hset]
      rfl
    · rw [if_neg hdash] at h ⊢
      obtain ⟨⟨last, left'⟩, hlast, h⟩ := except_bind_ok h
      obtain ⟨a, ha, h⟩ := except_bind_ok h
      obtain ⟨b, hb, h⟩ := except_bind_ok h
      have hlast' := (readClassItem_carries hstop hextended : Carries stop more _) hlast
      rw [List.cons_append] at hlast' ⊢
      simp only [hlast', bind, Except.bind, ha, hb]
      split at h
      · next hle =>
        cases h
        rw [if_pos hle]
      · cases h

theorem readRange_carries (hstop : Unnoticed stop) (hextended : flags.extended = false) :
    Carries stop more (readRange flags) := by
  intro cs set left h
  rw [readRange_eq hextended] at h ⊢
  obtain ⟨⟨first, left₁⟩, hfirst, h⟩ := except_bind_ok h
  rw [readClassItem_carries hstop hextended hfirst]
  simp only [bind, Except.bind]
  cases left₁ with
  | nil => cases h
  | cons c left₁ =>
    by_cases hdash : c = '-'
    · subst hdash
      exact readRangeEnd_carries hstop hextended first h
    · simp only [List.cons_append] at h ⊢
      split at h
      · next heq => cases heq
      · next heq => exact absurd (List.cons.inj heq).1 hdash
      · obtain ⟨set', hset, h⟩ := except_bind_ok h
        cases h
        split
        · next heq => cases heq
        · next heq => exact absurd (List.cons.inj heq).1 hdash
        · rw [hset]
          rfl

/-- A range and a single item are followed by something, if only the end of the class. -/
theorem ne_nil_of_readRange (hextended : flags.extended = false) {c : Char} {rest : List Char}
    {found : CharSet × List Char} (h : readRange flags (c :: rest) = .ok found) : rest ≠ [] := by
  rintro rfl
  rw [readRange_eq hextended] at h
  obtain ⟨⟨first, left⟩, hfirst, h⟩ := except_bind_ok h
  unfold readClassItem at hfirst
  split at hfirst
  · next heq => cases heq
  · next heq =>
    obtain ⟨-, rfl⟩ := List.cons.inj heq
    cases hfirst
  · next heq =>
    obtain ⟨-, rfl⟩ := List.cons.inj heq
    cases hfirst
    cases h

/-- The step with more text behind what it leaves. -/
def ClassStep.before (behind : List Char) : ClassStep → ClassStep
  | .closed part => .closed part
  | .more state left => .more state (left ++ behind)

theorem closeBracket_before {state : ClassState} {left : List Char} {step : ClassStep}
    (h : closeBracket flags state left = .ok step) (behind : List Char) :
    closeBracket flags state (left ++ behind) = .ok (step.before behind) := by
  unfold closeBracket at h ⊢
  generalize closeOperator flags state = closed at h ⊢
  obtain ⟨part, frames⟩ := closed
  simp only at h ⊢
  split at h
  · obtain ⟨set, hset, h⟩ := except_bind_ok h
    rw [hset]
    split at h
    · cases h
      rfl
    · next hframes =>
      cases h
      simp only [bind, Except.bind]
      rfl
  · cases h

theorem classStep_carries (hstop : Unnoticed stop) (hextended : flags.extended = false)
    {state : ClassState} {c : Char} {rest : List Char} {step : ClassStep}
    (h : classStep flags state c rest = .ok step) (hend : c = '[' → ']' ∈ rest) :
    classStep flags state c (rest ++ stop :: more) = .ok (step.before (stop :: more)) := by
  unfold classStep at h ⊢
  simp only [hextended, Bool.false_and, Bool.false_eq_true, if_false] at h ⊢
  split at h
  · next hopen =>
    rw [if_pos hopen, readAsciiClass?_carries hstop (hend hopen)]
    split at h
    · next hnamed =>
      obtain ⟨set, hset, h⟩ := except_bind_ok h
      cases h
      rw [hnamed]
      simp only [Option.map_some, hset, bind, Except.bind]
      rfl
    · next hnamed =>
      obtain ⟨⟨negated, first, left⟩, hfirst, h⟩ := except_bind_ok h
      cases h
      rw [hnamed]
      simp only [Option.map_none, openClass_carries hstop hextended hfirst, bind, Except.bind]
      rfl
  · next hopen =>
    rw [if_neg hopen]
    split at h
    · next hclose =>
      rw [if_pos hclose]
      exact closeBracket_before h _
    · next hclose =>
      rw [if_neg hclose]
      split at h
      · cases h
        rfl
      · cases h
        rfl
      · cases h
        rfl
      · next hand hdash htilde =>
        obtain ⟨⟨set, left⟩, hrange, h⟩ := except_bind_ok h
        cases h
        have hrange' := (readRange_carries hstop hextended : Carries stop more _) hrange
        -- no operator arises from what is put behind: its second character would be in the text
        obtain ⟨d, rest, rfl⟩ :=
          List.exists_cons_of_ne_nil (ne_nil_of_readRange hextended hrange)
        rw [List.cons_append] at hrange' ⊢
        split
        · next heq => exact absurd (List.cons.inj heq).1 (fun hd => hand rest rfl (by rw [hd]))
        · next heq => exact absurd (List.cons.inj heq).1 (fun hd => hdash rest rfl (by rw [hd]))
        · next heq => exact absurd (List.cons.inj heq).1 (fun hd => htilde rest rfl (by rw [hd]))
        · rw [List.cons_append] at hrange'
          rw [hrange']
          rfl

/-- Only a closing bracket ends a class. -/
theorem eq_of_closed {state : ClassState} {c : Char} {rest : List Char} {part : ClassPart}
    (h : classStep flags state c rest = .ok (.closed part)) : c = ']' := by
  unfold classStep at h
  split at h
  · cases h
  · split at h
    · cases h
    · split at h
      · split at h
        · obtain ⟨set, -, h⟩ := except_bind_ok h
          cases h
        · obtain ⟨found, -, h⟩ := except_bind_ok h
          cases h
      · split at h
        · assumption
        · split at h
          · cases h
          · cases h
          · cases h
          · obtain ⟨found, -, h⟩ := except_bind_ok h
            cases h

theorem mem_of_readClassFrom {state : ClassState} {taken : Nat} {cs : List Char}
    {found : ClassPart × List Char} (h : readClassFrom flags state taken cs = .ok found) :
    ']' ∈ cs := by
  induction cs generalizing state taken with
  | nil => cases taken <;> cases h
  | cons c cs ih =>
    cases taken with
    | succ taken => exact List.mem_cons_of_mem _ (ih h)
    | zero =>
      rw [readClassFrom] at h
      split at h
      · cases h
      · next hstep =>
        rw [eq_of_closed hstep]
        exact List.mem_cons_self
      · exact List.mem_cons_of_mem _ (ih h)

theorem readClassFrom_carries (hstop : Unnoticed stop) (hextended : flags.extended = false)
    {state : ClassState} {taken : Nat} : Carries stop more (readClassFrom flags state taken) := by
  intro cs part left h
  induction cs generalizing state taken with
  | nil => cases taken <;> cases h
  | cons c cs ih =>
    rw [List.cons_append]
    cases taken with
    | succ taken => exact ih h
    | zero =>
      rw [readClassFrom] at h ⊢
      split at h
      · cases h
      · next hstep =>
        cases h
        rw [classStep_carries hstop hextended hstep fun hc =>
          absurd (hc.symm.trans (eq_of_closed hstep)) (by decide)]
        rfl
      · next state' left' hstep =>
        rw [classStep_carries hstop hextended hstep fun _ => mem_of_readClassFrom h]
        simp only [ClassStep.before, List.length_append, Nat.add_sub_add_right]
        exact ih h

theorem readClass_carries (hstop : Unnoticed stop) (hextended : flags.extended = false) :
    Carries stop more (readClass flags) := by
  intro cs part left h
  obtain ⟨⟨negated, first, left₁⟩, hopen, h⟩ := except_bind_ok h
  unfold readClass
  rw [openClass_carries hstop hextended hopen]
  exact readClassFrom_carries hstop hextended h

theorem readPrimitive_carries (hstop : Unnoticed stop) (hextended : flags.extended = false) {c : Char} :
    Carries stop more (readPrimitive flags c) := by
  intro cs p left h
  unfold readPrimitive at h ⊢
  split at h
  · exact readEscape_carries hstop hextended h
  all_goals
    cases h
    rfl

end RequestRouter.Regex
