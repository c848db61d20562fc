/-
  RequestRouter/Proofs/Regex/Ends.lean
  ====================================
  **What a reader takes of a text does not depend on how the text ends.**

  Two pattern texts may differ in their ends only: the one asks for its last slash, or for none
  (`StrictEnd`), the other leaves a slash there that may be missing (`looseEnd`).  A reader that
  comes to the ends stops at both, or a comment takes both, or the reader looks for a mark that the
  loose end does not hold and fails.  So a reader that succeeds before the loose end succeeds before
  the other, with the same result, and leaves texts of the same kind (`Follows`, `SameRead`).  The
  one exception is a backslash right before the ends, which makes an escape of the slash or the
  parenthesis behind it.
-/
import RequestRouter.Proofs.Regex.Grouping

namespace RequestRouter.Regex

open RequestRouter.Unicode

/-! ### Readings that go the same way -/

/-- Every result of the one reading has its like in the other. -/
def Follows {α β : Type} (R : α → β → Prop) (x : Except Error α) (y : Except Error β) : Prop :=
  ∀ a, x = .ok a → ∃ b, y = .ok b ∧ R a b

section Follows

variable {α β γ δ : Type} {R : α → β → Prop} {S : γ → δ → Prop}

theorem follows_ok {a : α} {b : β} (h : R a b) : Follows R (.ok a) (.ok b) := by
  intro _ ha
  cases ha
  exact ⟨b, rfl, h⟩

theorem follows_error {e : Error} {y : Except Error β} : Follows R (.error e : Except Error α) y :=
  fun _ ha => nomatch ha

theorem Follows.bind {x : Except Error α} {y : Except Error β} {f : α → Except Error γ}
    {g : β → Except Error δ} (h : Follows R x y) (hmore : ∀ a b, R a b → Follows S (f a) (g b)) :
    Follows S (x >>= f) (y >>= g) := by
  intro c hc
  obtain ⟨a, ha, hc⟩ := except_bind_ok hc
  obtain ⟨b, hb, hab⟩ := h a ha
  obtain ⟨d, hd, hcd⟩ := hmore a b hab c hc
  refine ⟨d, ?_, hcd⟩
  rw [hb]
  exact hd

theorem follows_ite {p : Prop} [Decidable p] {x x' : Except Error α} {y y' : Except Error β}
    (h : Follows R x y) (h' : Follows R x' y') :
    Follows R (if p then x else x') (if p then y else y') := by
  split
  · exact h
  · exact h'

/-- Two readings that start with the same one. -/
theorem follows_bind {x : Except Error α} {f : α → Except Error γ} {g : α → Except Error δ}
    (h : ∀ a, Follows S (f a) (g a)) : Follows S (x >>= f) (x >>= g) := by
  intro c hc
  obtain ⟨a, rfl, hc⟩ := except_bind_ok hc
  exact h a c hc

end Follows

/-! ### Texts that differ in their ends -/

/-- The end of a pattern text whose last slash may be left out. -/
def looseEnd : List Char := ['/', '?', ')', '$']

/-- The ends of pattern texts that ask for their last slash, or for none. -/
inductive StrictEnd : List Char → Prop
  | bare : StrictEnd [')', '$']
  | slash : StrictEnd ['/', ')', '$']

/-- The texts are the same up to their ends, or both have been read to their end. -/
inductive SameUpTo (stop : List Char) : List Char → List Char → Prop
  | ended : SameUpTo stop [] []
  | before (cs : List Char) : SameUpTo stop (cs ++ looseEnd) (cs ++ stop)

/-- The same has been read, and what is left are texts that differ only in their ends. -/
def SameRead {α : Type} (stop : List Char) (x y : α × List Char) : Prop :=
  x.1 = y.1 ∧ SameUpTo stop x.2 y.2

theorem SameRead.exists_eq {α : Type} {stop : List Char} {x y : α × List Char} (h : SameRead stop x y) :
    ∃ a left left', x = (a, left) ∧ y = (a, left') ∧ SameUpTo stop left left' :=
  ⟨x.1, x.2, y.2, rfl, by rw [h.1], h.2⟩

/-- The same two things have been read, and what is left are texts that differ only in their ends. -/
def SameRead₂ {α β : Type} (stop : List Char) (x y : α × β × List Char) : Prop :=
  x.1 = y.1 ∧ SameRead stop x.2 y.2

variable {α : Type} {stop cs cs' : List Char} {flags : Flags} {extended : Bool}

/-- A first character is the start of the ends, or comes before them. -/
theorem SameUpTo.of_cons {c : Char} (h : SameUpTo stop (c :: cs) cs') :
    (c :: cs = looseEnd ∧ cs' = stop) ∨ ∃ u, cs' = c :: u ∧ SameUpTo stop cs u := by
  generalize hx : c :: cs = x at h
  cases h with
  | ended => cases hx
  | before t =>
    cases t with
    | nil => exact .inl ⟨rfl, rfl⟩
    | cons d t =>
      obtain ⟨rfl, rfl⟩ := List.cons.inj hx
      exact .inr ⟨_, rfl, .before t⟩

/-- A character that neither end starts with starts both texts or none. -/
theorem SameUpTo.head_cases (hstop : StrictEnd stop) (h : SameUpTo stop cs cs') (c : Char)
    (hc : c ≠ '/' ∧ c ≠ ')') :
    (∃ t t', cs = c :: t ∧ cs' = c :: t' ∧ SameUpTo stop t t') ∨
      (cs.head? ≠ some c ∧ cs'.head? ≠ some c) := by
  cases cs with
  | nil =>
    generalize hx : ([] : List Char) = x at h
    cases h with
    | ended => exact .inr ⟨nofun, nofun⟩
    | before t => simp [looseEnd] at hx
  | cons d cs =>
    rcases h.of_cons with ⟨heq, rfl⟩ | ⟨u, rfl, hu⟩
    · rw [heq]
      refine .inr ⟨fun hhead => hc.1 (Option.some.inj hhead).symm, fun hhead => ?_⟩
      cases hstop with
      | bare => exact hc.2 (Option.some.inj hhead).symm
      | slash => exact hc.1 (Option.some.inj hhead).symm
    · by_cases hd : d = c
      · subst hd
        exact .inl ⟨_, _, rfl, rfl, hu⟩
      · exact .inr ⟨fun hhead => hd (Option.some.inj hhead), fun hhead => hd (Option.some.inj hhead)⟩

theorem SameUpTo.ne_nil (hstop : StrictEnd stop) (h : SameUpTo stop cs cs') (hne : cs ≠ []) :
    cs' ≠ [] := by
  cases h with
  | ended => exact hne
  | before cs => cases hstop <;> simp

theorem SameUpTo.mem_iff (hstop : StrictEnd stop) (h : SameUpTo stop cs cs') {c : Char}
    (hc : c ∉ looseEnd) : c ∈ cs ↔ c ∈ cs' := by
  cases h with
  | ended => exact Iff.rfl
  | before t =>
    have hc' : c ∉ stop := by
      cases hstop with
      | bare => exact fun h => hc (by simp only [looseEnd, List.mem_cons] at h ⊢; tauto)
      | slash => exact fun h => hc (by simp only [looseEnd, List.mem_cons] at h ⊢; tauto)
    rw [List.mem_append, List.mem_append, or_iff_left hc, or_iff_left hc']

/-! ### Blanks and runs -/

theorem skipIgnored_comment {cs : List Char} (h : '\n' ∉ cs) : skipIgnored true cs = [] := by
  induction cs with
  | nil => rfl
  | cons c cs ih =>
    rw [List.mem_cons, not_or] at h
    have hc : (c != '\n') = true := by simpa using Ne.symm h.1
    rw [skipIgnored, if_pos rfl, hc]
    exact ih h.2

theorem skipIgnored_sameUpTo (hstop : StrictEnd stop) (inComment : Bool) (cs : List Char) :
    SameUpTo stop (skipIgnored inComment (cs ++ looseEnd)) (skipIgnored inComment (cs ++ stop)) := by
  induction cs generalizing inComment with
  | nil =>
    cases inComment with
    | true =>
      rw [List.nil_append, List.nil_append, skipIgnored_comment (by decide),
        skipIgnored_comment (by cases hstop <;> decide)]
      exact .ended
    | false =>
      have hloose : skipIgnored false looseEnd = looseEnd := by decide
      have hstrict : skipIgnored false stop = stop := by cases hstop <;> decide
      rw [List.nil_append, List.nil_append, hloose, hstrict]
      exact .before []
  | cons c cs ih =>
    rw [List.cons_append, List.cons_append, skipIgnored, skipIgnored]
    split
    · exact ih _
    · split
      · exact ih _
      · split
        · exact ih _
        · exact .before (c :: cs)

theorem SameUpTo.skip (hstop : StrictEnd stop) (h : SameUpTo stop cs cs') (extended : Bool) :
    SameUpTo stop (skip extended cs) (skip extended cs') := by
  cases extended with
  | false => exact h
  | true =>
    cases h with
    | ended => exact .ended
    | before cs => exact skipIgnored_sameUpTo hstop false cs

theorem length_skip_le (extended : Bool) (cs : List Char) : (skip extended cs).length ≤ cs.length := by
  have hignored : ∀ inComment, (skipIgnored inComment cs).length ≤ cs.length := by
    induction cs with
    | nil => intro; exact Nat.le_refl _
    | cons c cs ih =>
      intro inComment
      rw [skipIgnored, List.length_cons]
      split
      · exact (ih _).trans (Nat.le_succ _)
      · split
        · exact (ih _).trans (Nat.le_succ _)
        · split
          · exact (ih _).trans (Nat.le_succ _)
          · exact Nat.le_refl _
  unfold skip
  split
  · exact hignored false
  · exact Nat.le_refl _

theorem takeSpaced_nil (p : Char → Bool) (extended : Bool) (n : Nat) :
    takeSpaced p extended n [] = ([], []) := by
  cases n <;> rfl

theorem takeSpaced_of_neg {p : Char → Bool} {c : Char} {cs : List Char} (hp : p c = false) (n : Nat) :
    takeSpaced p extended n (c :: cs) = ([], c :: cs) := by
  cases n with
  | zero => rfl
  | succ n => rw [takeSpaced, hp]; rfl

/-- A run that takes every character of the loose end leaves nothing. -/
theorem takeSpaced_looseEnd {p : Char → Bool} (hp : ∀ c ∈ looseEnd, p c = true) {n : Nat}
    (hn : looseEnd.length ≤ n) : (takeSpaced p extended n looseEnd).2 = [] := by
  obtain ⟨n, rfl⟩ := Nat.exists_eq_add_of_le' hn
  have hskip : ∀ cs ∈ [['?', ')', '$'], [')', '$'], ['$'], []], skip extended cs = cs := by
    cases extended <;> decide
  simp only [looseEnd, List.forall_mem_cons, List.length_cons, List.length_nil] at hp hskip ⊢
  simp only [takeSpaced, hp, hskip, if_true, takeSpaced_nil]

/-- A run that the ends stop, or that stops before them. -/
theorem takeSpaced_sameUpTo (hstop : StrictEnd stop) {p : Char → Bool}
    (h : SameUpTo stop cs cs') {n n' : Nat} (hn : cs.length ≤ n) (hn' : cs'.length ≤ n')
    (hp : (p '/' = false ∧ p ')' = false) ∨
      ((∀ c ∈ looseEnd, p c = true) ∧ (takeSpaced p extended n cs).2 ≠ [])) :
    SameRead stop (takeSpaced p extended n cs) (takeSpaced p extended n' cs') := by
  induction n generalizing cs cs' n' with
  | zero =>
    cases h with
    | ended =>
      rw [takeSpaced_nil, takeSpaced_nil]
      exact ⟨rfl, .ended⟩
    | before cs => simp [looseEnd] at hn
  | succ n ih =>
    cases h with
    | ended =>
      rw [takeSpaced_nil, takeSpaced_nil]
      exact ⟨rfl, .ended⟩
    | before cs =>
      cases cs with
      | nil =>
        rcases hp with ⟨hslash, hclose⟩ | ⟨hall, hne⟩
        · have hstrict : takeSpaced p extended n' stop = ([], stop) := by
            cases hstop with
            | bare => exact takeSpaced_of_neg hclose n'
            | slash => exact takeSpaced_of_neg hslash n'
          rw [List.nil_append, List.nil_append, hstrict, looseEnd, takeSpaced_of_neg hslash]
          exact ⟨rfl, .before []⟩
        · exact absurd (takeSpaced_looseEnd hall hn) hne
      | cons c cs =>
        obtain ⟨n', rfl⟩ := Nat.exists_eq_add_of_le' (Nat.le_trans (Nat.le_add_left 1 _) hn')
        rw [List.cons_append, takeSpaced] at hp ⊢
        rw [List.cons_append, takeSpaced]
        split
        · next hc =>
          rw [if_pos hc] at hp
          have hmore := ih ((SameUpTo.before cs).skip hstop extended)
            ((length_skip_le _ _).trans (Nat.le_of_succ_le_succ hn))
            ((length_skip_le _ _).trans (Nat.le_of_succ_le_succ hn')) hp
          exact ⟨congrArg (c :: ·) hmore.1, hmore.2⟩
        · exact ⟨rfl, .before (c :: cs)⟩

/-- What is left of a run starts with a character that ends it. -/
theorem head_takeSpaced {p : Char → Bool} {n : Nat} (hn : cs.length ≤ n) {d : Char} {left : List Char}
    (h : (takeSpaced p extended n cs).2 = d :: left) : p d = false := by
  induction n generalizing cs with
  | zero =>
    obtain rfl := List.length_eq_zero_iff.mp (Nat.le_zero.mp hn)
    cases h
  | succ n ih =>
    cases cs with
    | nil => cases h
    | cons c cs =>
      rw [takeSpaced] at h
      split at h
      · exact ih ((length_skip_le _ _).trans (Nat.le_of_succ_le_succ hn)) h
      · next hp =>
        cases h
        simpa using hp

/-- A run that stops at both ends. -/
theorem takeSpaced_of_stops (hstop : StrictEnd stop) {p : Char → Bool} (hslash : p '/' = false)
    (hclose : p ')' = false) (h : SameUpTo stop cs cs') (extended : Bool) :
    SameRead stop (takeSpaced p extended cs.length cs) (takeSpaced p extended cs'.length cs') :=
  takeSpaced_sameUpTo hstop h (Nat.le_refl _) (Nat.le_refl _) (.inl ⟨hslash, hclose⟩)

/-- The text up to a character that is found and that the ends do not hold. -/
theorem takeSpaced_upTo (hstop : StrictEnd stop) (h : SameUpTo stop cs cs') {c d : Char}
    (hc : c ∉ looseEnd) {name left : List Char}
    (hrun : takeSpaced (· != c) extended cs.length cs = (name, d :: left)) :
    d = c ∧ ∃ left', takeSpaced (· != c) extended cs'.length cs' = (name, c :: left') ∧
      SameUpTo stop left left' := by
  obtain rfl : d = c := by simpa using head_takeSpaced (Nat.le_refl _) (congrArg Prod.snd hrun)
  refine ⟨rfl, ?_⟩
  have hmarks : ∀ e ∈ looseEnd, (e != d) = true := fun e he =>
    bne_iff_ne.mpr fun heq => hc (heq ▸ he)
  obtain ⟨name', left', left₂, hname, hrun', hleft⟩ := (takeSpaced_sameUpTo hstop h (Nat.le_refl _)
    (Nat.le_refl cs'.length) (.inr ⟨hmarks, fun hnil => by rw [hrun] at hnil; cases hnil⟩)).exists_eq
  rw [hrun] at hname
  cases hname
  rw [hrun']
  rcases hleft.of_cons with ⟨heq, -⟩ | ⟨u, rfl, hu⟩
  · have hd : d = '/' := (List.cons.inj heq).1
    subst hd
    exact absurd (by decide) hc
  · exact ⟨u, rfl, hu⟩

theorem SameUpTo.dropWhile (hstop : StrictEnd stop) (h : SameUpTo stop cs cs') {p : Char → Bool}
    (hslash : p '/' = false) (hclose : p ')' = false) :
    SameUpTo stop (cs.dropWhile p) (cs'.dropWhile p) := by
  have hrun := takeSpaced_of_stops hstop hslash hclose h false
  rw [takeSpaced_length, takeSpaced_length] at hrun
  exact hrun.2

/-! ### Code points and properties -/

theorem takeHex_follows (hstop : StrictEnd stop) (h : SameUpTo stop cs cs') (n : Nat) :
    Follows (SameRead stop) (takeHex extended n cs) (takeHex extended n cs') := by
  induction n generalizing cs cs' with
  | zero => exact follows_ok ⟨rfl, h⟩
  | succ n ih =>
    cases h with
    | ended => exact follows_error
    | before cs =>
      cases cs with
      | nil => exact follows_error
      | cons c cs =>
        rw [List.cons_append, List.cons_append, takeHex, takeHex]
        split
        · exact follows_error
        · refine (ih ((SameUpTo.before cs).skip hstop extended)).bind ?_
          rintro ⟨digits, left⟩ ⟨-, left'⟩ ⟨rfl, hleft⟩
          exact follows_ok ⟨rfl, hleft⟩

theorem readHex_of_ne {digits : Nat} (h : (skip extended cs).head? ≠ some '\x7b')
    (hne : skip extended cs ≠ []) :
    readHex extended digits cs = (do
      let (ds, left) ← takeHex extended digits (skip extended cs)
      .ok (.literal (← charOfHex ds) (digits == 2), left)) := by
  unfold readHex
  split
  · next heq => exact absurd heq hne
  · next heq =>
    rw [heq] at h
    exact absurd rfl h
  · rfl

theorem readHex_follows (hstop : StrictEnd stop) (h : SameUpTo stop cs cs') (digits : Nat) :
    Follows (SameRead stop) (readHex extended digits cs) (readHex extended digits cs') := by
  have hskip := h.skip hstop extended
  rcases hskip.head_cases hstop '\x7b' (by decide) with
    ⟨t, t', ht, ht', hsame⟩ | ⟨hhead, hhead'⟩
  · obtain ⟨ds, left, left', hrun, hrun', hleft⟩ := (takeSpaced_of_stops hstop
      (p := Number.isDigitIn 16) (by decide) (by decide) (hsame.skip hstop extended) extended).exists_eq
    unfold readHex
    rw [ht, ht']
    simp only
    rw [hrun, hrun']
    cases ds with
    | nil => exact follows_error
    | cons d ds =>
      rcases hleft.head_cases hstop '\x7d' (by decide) with
        ⟨u, u', rfl, rfl, hu⟩ | ⟨hclose, -⟩
      · exact follows_bind fun c => follows_ok ⟨rfl, hu.skip hstop extended⟩
      · intro p hp
        split at hp
        · cases hp
        · next heq =>
          rw [(Prod.mk.inj heq).2] at hclose
          exact absurd rfl hclose
        · cases hp
  · by_cases hne : skip extended cs = []
    · unfold readHex
      rw [hne]
      exact follows_error
    · rw [readHex_of_ne hhead hne, readHex_of_ne hhead' ?_]
      · refine (takeHex_follows hstop hskip digits).bind ?_
        rintro ⟨ds, left⟩ ⟨-, left'⟩ ⟨rfl, hleft⟩
        exact follows_bind fun c => follows_ok ⟨rfl, hleft⟩
      · exact hskip.ne_nil hstop hne

theorem byName?_slash : Property.byName? ['/'] = none := by decide +kernel

/-- The property that was asked for, if there is one, and what is left. -/
def askedProperty (negated : Bool) (asked : Option CharSet) (left : List Char) :
    Except Error (Primitive × List Char) :=
  match asked with
  | none => .error .unknownProperty
  | some set => .ok (.property set negated, left)

theorem askedProperty_follows {negated : Bool} (asked : Option CharSet)
    {left left' : List Char} (h : SameUpTo stop left left') :
    Follows (SameRead stop) (askedProperty negated asked left) (askedProperty negated asked left') := by
  cases asked with
  | none => exact follows_error
  | some found => exact follows_ok ⟨rfl, h⟩

/-- A property with a name of one letter. -/
theorem readProperty_letter {negated : Bool} {c : Char} {rest : List Char}
    (hskip : skip extended cs = c :: rest) (hbrace : c ≠ '\x7b') (hslash : c ≠ '\\') :
    readProperty extended negated cs =
      askedProperty negated (Property.byName? [c]) (skip extended rest) := by
  unfold readProperty
  rw [hskip]
  split
  · next heq => cases heq
  · next heq => exact absurd (List.cons.inj heq).1 hbrace
  · next heq => exact absurd (List.cons.inj heq).1 hslash
  · next heq =>
    obtain ⟨rfl, rfl⟩ := List.cons.inj heq
    rfl

theorem readProperty_follows (hstop : StrictEnd stop) (h : SameUpTo stop cs cs') (negated : Bool) :
    Follows (SameRead stop) (readProperty extended negated cs) (readProperty extended negated cs') := by
  have hskip := h.skip hstop extended
  rcases hskip.head_cases hstop '\x7b' (by decide) with
    ⟨t, t', ht, ht', hsame⟩ | ⟨hhead, -⟩
  · unfold readProperty
    rw [ht, ht']
    simp only
    cases hrun : takeSpaced (· != '\x7d') extended (skip extended t).length (skip extended t) with
    | mk name left =>
      cases left with
      | nil => exact follows_error
      | cons d left =>
        obtain ⟨-, left', hrun', hleft⟩ := takeSpaced_upTo hstop (hsame.skip hstop extended) (by decide)
          hrun
        rw [hrun']
        exact askedProperty_follows _ hleft
  · cases hx : skip extended cs with
    | nil =>
      unfold readProperty
      rw [hx]
      exact follows_error
    | cons c rest =>
      rw [hx] at hskip hhead
      have hbrace : c ≠ '\x7b' := fun hc => hhead (congrArg some hc)
      by_cases hslash : c = '\\'
      · subst hslash
        unfold readProperty
        rw [hx]
        exact follows_error
      · rw [readProperty_letter hx hbrace hslash]
        rcases hskip.of_cons with ⟨heq, -⟩ | ⟨u, hu, hrest⟩
        · obtain ⟨rfl, -⟩ := List.cons.inj heq
          rw [byName?_slash]
          exact follows_error
        · rw [readProperty_letter hu hbrace hslash]
          exact askedProperty_follows _ (hrest.skip hstop extended)

/-! ### Escapes -/

theorem readBoundaryKind_follows (hstop : StrictEnd stop) (h : SameUpTo stop cs cs') (unicode : Bool) :
    Follows (Option.Rel (SameRead stop)) (readBoundaryKind extended unicode cs)
      (readBoundaryKind extended unicode cs') := by
  have hskip := h.skip hstop extended
  unfold readBoundaryKind
  cases hx : skip extended cs with
  | nil => exact follows_error
  | cons c rest =>
    rw [hx] at hskip
    rcases hskip.of_cons with ⟨heq, hx'⟩ | ⟨u, hx', -⟩
    · obtain ⟨rfl, -⟩ := List.cons.inj heq
      rw [hx']
      cases hstop <;> exact follows_ok .none
    · rw [hx'] at hskip ⊢
      refine follows_ite (follows_ok .none) ?_
      obtain ⟨kind, left, left', hrun, hrun', hleft⟩ := (takeSpaced_of_stops hstop
        (p := fun c => c.isAlpha || c == '-') (by decide) (by decide) hskip extended).exists_eq
      rw [hrun, hrun']
      rcases hleft.head_cases hstop '\x7d' (by decide) with ⟨t, t', rfl, rfl, ht⟩ | ⟨hclose, -⟩
      · have hkind : ∀ a : Assertion, Follows (Option.Rel (SameRead stop)) (.ok (some (a, t)))
            (.ok (some (a, t'))) := fun a => follows_ok (.some ⟨rfl, ht⟩)
        -- the four kinds are tried one after the other
        exact follows_ite (hkind _) (follows_ite (hkind _) (follows_ite (hkind _)
          (follows_ite (hkind _) follows_error)))
      · intro found hfound
        split at hfound
        · next heq =>
          rw [(Prod.mk.inj heq).2] at hclose
          exact absurd rfl hclose
        · cases hfound

/-- A word boundary, or a kind of it that follows in braces. -/
theorem readBoundary_follows (hstop : StrictEnd stop) (h : SameUpTo stop cs cs') :
    Follows (SameRead stop) (readEscape flags ('b' :: cs)) (readEscape flags ('b' :: cs')) := by
  rcases h.head_cases hstop '\x7b' (by decide) with ⟨t, t', rfl, rfl, ht⟩ | ⟨hhead, hhead'⟩
  · refine (readBoundaryKind_follows hstop ht flags.unicode).bind ?_
    rintro _ _ (@⟨⟨a, left⟩, ⟨-, left'⟩, ⟨rfl, hleft⟩⟩ | _)
    · exact follows_ok ⟨rfl, hleft⟩
    · exact follows_ok ⟨rfl, h⟩
  · have hplain : ∀ {cs : List Char}, cs.head? ≠ some '\x7b' →
        readEscape flags ('b' :: cs) = .ok (.look (.boundary flags.unicode), cs) := by
      intro cs hne
      unfold readEscape
      simp only
      split
      · exact absurd rfl hne
      · rfl
    rw [hplain hhead, hplain hhead']
    exact follows_ok ⟨rfl, h⟩

/-- An escape whose first character comes before the ends. -/
theorem readEscape_follows (hstop : StrictEnd stop) (h : SameUpTo stop cs cs') (c : Char) :
    Follows (SameRead stop) (readEscape flags (c :: cs)) (readEscape flags (c :: cs')) := by
  by_cases hboundary : c = 'b'
  · subst hboundary
    exact readBoundary_follows hstop h
  · unfold readEscape
    simp only
    split
    case h_1 => exact readHex_follows hstop h 2
    case h_2 => exact readHex_follows hstop h 4
    case h_3 => exact readHex_follows hstop h 8
    case h_4 => exact readProperty_follows hstop h false
    case h_5 => exact readProperty_follows hstop h true
    case h_23 => exact absurd rfl hboundary
    case h_24 => exact follows_ite (follows_ok ⟨rfl, h⟩) follows_error
    all_goals exact follows_ok ⟨rfl, h⟩

theorem readPrimitive_follows (hstop : StrictEnd stop) (h : SameUpTo stop cs cs') {c : Char}
    (hescape : c = '\\' → cs ≠ looseEnd) :
    Follows (SameRead stop) (readPrimitive flags c cs) (readPrimitive flags c cs') := by
  unfold readPrimitive
  split
  · cases cs with
    | nil => exact follows_error
    | cons d cs =>
      rcases h.of_cons with ⟨heq, -⟩ | ⟨u, rfl, hu⟩
      · exact absurd heq (hescape rfl)
      · exact readEscape_follows hstop hu d
  all_goals exact follows_ok ⟨rfl, h⟩

/-! ### Repetitions -/

theorem readGreed_sameUpTo (hstop : StrictEnd stop) (h : SameUpTo stop cs cs') :
    SameRead stop (readGreed cs) (readGreed cs') := by
  rcases h.head_cases hstop '?' (by decide) with ⟨t, t', rfl, rfl, ht⟩ | ⟨hhead, hhead'⟩
  · exact ⟨rfl, ht⟩
  · rw [readGreed_of_ne hhead, readGreed_of_ne hhead']
    exact ⟨rfl, h⟩

theorem readCount_follows (hstop : StrictEnd stop) (h : SameUpTo stop cs cs') :
    Follows (SameRead stop) (readCount extended cs) (readCount extended cs') := by
  obtain ⟨digits, left, left', hrun, hrun', hleft⟩ := (takeSpaced_of_stops hstop
    (p := fun c => '0' ≤ c && c ≤ '9') (by decide) (by decide)
    (h.dropWhile hstop (p := isSpace) (by decide) (by decide)) extended).exists_eq
  unfold readCount
  simp only
  rw [hrun, hrun']
  have hspaces := takeSpaced_of_stops hstop (p := isSpace) (by decide) (by decide) hleft extended
  exact follows_ite (follows_ok ⟨rfl, hspaces.2⟩)
    (follows_ite (follows_ok ⟨rfl, hspaces.2⟩) follows_error)

/-- The most rounds, after the comma, to the closing brace. -/
def readMost (extended : Bool) (least : Nat) (cs : List Char) :
    Except Error (Nat × Option Nat × List Char) :=
  match cs with
  | '\x7d' :: left => .ok (least, none, left)
  | rest => do
    match ← readCount extended rest with
    | (some most, '\x7d' :: left) =>
      if least ≤ most then .ok (least, some most, left) else .error .badCount
    | _ => .error .badCount

theorem readMost_of_ne {least : Nat} (h : cs.head? ≠ some '\x7d') :
    readMost extended least cs = (do
      match ← readCount extended cs with
      | (some most, '\x7d' :: left) =>
        if least ≤ most then .ok (least, some most, left) else .error .badCount
      | _ => .error .badCount) := by
  unfold readMost
  split
  · exact absurd rfl h
  · rfl

theorem readMost_follows (hstop : StrictEnd stop) (h : SameUpTo stop cs cs') (least : Nat) :
    Follows (SameRead₂ stop) (readMost extended least cs) (readMost extended least cs') := by
  rcases h.head_cases hstop '\x7d' (by decide) with ⟨t, t', rfl, rfl, ht⟩ | ⟨hhead, hhead'⟩
  · exact follows_ok ⟨rfl, rfl, ht⟩
  · rw [readMost_of_ne hhead, readMost_of_ne hhead']
    refine (readCount_follows hstop h).bind ?_
    rintro ⟨most, left⟩ ⟨-, left'⟩ ⟨rfl, hleft⟩
    cases most with
    | none => exact follows_error
    | some most =>
      rcases SameUpTo.head_cases hstop hleft '\x7d' (by decide) with ⟨t, t', rfl, rfl, ht⟩ | ⟨hclose, -⟩
      · exact follows_ite (follows_ok ⟨rfl, rfl, ht⟩) follows_error
      · intro found hfound
        split at hfound
        · next heq =>
          rw [(Prod.mk.inj heq).2] at hclose
          exact absurd rfl hclose
        · cases hfound

theorem readCounts_follows (hstop : StrictEnd stop) (h : SameUpTo stop cs cs') :
    Follows (SameRead₂ stop) (readCounts extended cs) (readCounts extended cs') := by
  refine (readCount_follows hstop (h.skip hstop extended)).bind ?_
  rintro ⟨least, left⟩ ⟨-, left'⟩ ⟨rfl, hleft⟩
  cases least with
  | none => exact follows_error
  | some least =>
    rcases SameUpTo.head_cases hstop hleft '\x7d' (by decide) with ⟨t, t', rfl, rfl, ht⟩ | ⟨hclose, -⟩
    · exact follows_ok ⟨rfl, rfl, ht⟩
    · rcases SameUpTo.head_cases hstop hleft ',' (by decide) with ⟨t, t', rfl, rfl, ht⟩ | ⟨hcomma, -⟩
      · exact readMost_follows hstop (ht.skip hstop extended) least
      · intro found hfound
        simp only at hfound
        split at hfound
        · exact absurd rfl hclose
        · exact absurd rfl hcomma
        · cases hfound

/-! ### Groups -/

theorem readGroupName_follows (hstop : StrictEnd stop) (h : SameUpTo stop cs cs') :
    Follows (SameRead stop) (readGroupName cs) (readGroupName cs') := by
  unfold readGroupName
  cases hrun : cs.dropWhile (· != '>') with
  | nil => exact follows_error
  | cons d left =>
    obtain ⟨-, left', hrun', hleft⟩ := @takeSpaced_upTo _ _ _ false hstop h '>' d (by decide)
      (cs.takeWhile (· != '>')) left (by rw [takeSpaced_length, hrun])
    rw [takeSpaced_length] at hrun'
    obtain ⟨hname, hclose⟩ := Prod.mk.inj hrun'
    rw [hname, hclose]
    cases cs.takeWhile (· != '>') with
    | nil => exact follows_error
    | cons c name => exact follows_ite (follows_ok ⟨rfl, hleft⟩) follows_error

theorem openNamed_follows (hstop : StrictEnd stop) (h : SameUpTo stop cs cs') (state : ParserState) :
    Follows (SameRead stop) (state.openNamed cs) (state.openNamed cs') := by
  refine (readGroupName_follows hstop h).bind ?_
  rintro ⟨name, left⟩ ⟨-, left'⟩ ⟨rfl, hleft⟩
  exact follows_ite follows_error (follows_ok ⟨rfl, hleft⟩)

/-- Flags are followed by the same character, from which on the texts differ only in their ends. -/
theorem readFlags_follows (h : SameUpTo stop cs cs') (seen : List Char) :
    Follows (fun x y => x.1 = y.1 ∧ x.2.1 = y.2.1 ∧
        ∃ c t t', x.2.2 = c :: t ∧ y.2.2 = c :: t' ∧ SameUpTo stop t t')
      (readFlags flags seen cs) (readFlags flags seen cs') := by
  induction cs generalizing flags seen cs' with
  | nil => exact follows_error
  | cons c cs ih =>
    rcases h.of_cons with ⟨heq, -⟩ | ⟨u, rfl, hu⟩
    · -- a slash is no flag
      obtain ⟨rfl, -⟩ := List.cons.inj heq
      intro found hfound
      rw [readFlags] at hfound
      simp [Flags.set?] at hfound
    · rw [readFlags, readFlags]
      refine follows_ite (follows_ite follows_error (follows_ok ⟨rfl, rfl, c, cs, u, rfl, rfl, hu⟩)) ?_
      refine follows_ite follows_error (follows_ite (ih hu _) ?_)
      cases flags.set? c ('-' ∉ seen) with
      | none => exact follows_error
      | some flags => exact ih hu _

/-- The flags in an opening parenthesis, of a group or for what follows. -/
def openFlags (state : ParserState) (cs : List Char) : Except Error (ParserState × List Char) := do
  let (flags, seen, left) ← readFlags state.flags [] cs
  match left with
  | ':' :: left => .ok (state.openGroup .plain flags, left)
  | _ :: left =>
    if seen.isEmpty then .error .nothingToRepeat
    else .ok ({ state with flags := flags }.add none, left)
  | [] => .error .badFlags

theorem openFlags_follows (h : SameUpTo stop cs cs') (state : ParserState) :
    Follows (SameRead stop) (openFlags state cs) (openFlags state cs') := by
  refine (readFlags_follows h []).bind ?_
  rintro ⟨flags, seen, _⟩ ⟨-, -, _⟩ ⟨rfl, rfl, c, t, t', rfl, rfl, ht⟩
  by_cases hcolon : c = ':'
  · subst hcolon
    exact follows_ok ⟨rfl, ht⟩
  · simp only
    exact follows_ite follows_error (follows_ok ⟨rfl, ht⟩)

/-- What a question mark after an opening parenthesis does with the text after it. -/
def openMarked (state : ParserState) (cs : List Char) : Except Error (ParserState × List Char) :=
  match cs with
  | 'P' :: '<' :: rest => state.openNamed rest
  | '=' :: _ => .error .lookAround
  | '!' :: _ => .error .lookAround
  | '<' :: '=' :: _ => .error .lookAround
  | '<' :: '!' :: _ => .error .lookAround
  | '<' :: rest => state.openNamed rest
  | rest => openFlags state rest

theorem readOpening_marked {state : ParserState} (h : skip state.flags.extended cs = '?' :: cs') :
    state.readOpening cs = openMarked state cs' := by
  unfold ParserState.readOpening
  rw [h]
  split
  case h_7 hnamed heq hbang hequals hangled hangle hmark =>
    cases hmark
    unfold openMarked
    split
    case h_7 => rfl
    all_goals simp_all
  case h_6 hequals hbang heq =>
    cases heq
    unfold openMarked
    split <;> simp_all
  case h_8 hmark => exact absurd rfl (hmark _)
  all_goals
    next heq =>
    cases heq
    rfl

theorem readOpening_plain {state : ParserState} (h : (skip state.flags.extended cs).head? ≠ some '?') :
    state.readOpening cs = .ok (state.openKeeping, skip state.flags.extended cs) := by
  unfold ParserState.readOpening
  generalize skip state.flags.extended cs = x at h ⊢
  split
  case h_8 => rfl
  all_goals exact absurd rfl h

theorem openMarked_flags {state : ParserState} (hnamed : ∀ rest, cs ≠ 'P' :: '<' :: rest)
    (hequals : cs.head? ≠ some '=') (hbang : cs.head? ≠ some '!') (hangle : cs.head? ≠ some '<') :
    openMarked state cs = openFlags state cs := by
  unfold openMarked
  split
  case h_1 => exact absurd rfl (hnamed _)
  case h_7 => rfl
  all_goals simp at hequals hbang hangle

theorem openMarked_angle {state : ParserState} (hequals : cs.head? ≠ some '=')
    (hbang : cs.head? ≠ some '!') : openMarked state ('<' :: cs) = state.openNamed cs := by
  unfold openMarked
  split
  case h_6 heq =>
    cases heq
    rfl
  all_goals simp_all

theorem openMarked_follows (hstop : StrictEnd stop) (h : SameUpTo stop cs cs') (state : ParserState) :
    Follows (SameRead stop) (openMarked state cs) (openMarked state cs') := by
  rcases h.head_cases hstop '=' (by decide) with ⟨t, t', rfl, rfl, -⟩ | ⟨hequals, hequals'⟩
  · exact follows_error
  rcases h.head_cases hstop '!' (by decide) with ⟨t, t', rfl, rfl, -⟩ | ⟨hbang, hbang'⟩
  · exact follows_error
  rcases h.head_cases hstop '<' (by decide) with ⟨t, t', rfl, rfl, ht⟩ | ⟨hangle, hangle'⟩
  · rcases ht.head_cases hstop '=' (by decide) with ⟨u, u', rfl, rfl, -⟩ | ⟨hequals, hequals'⟩
    · exact follows_error
    rcases ht.head_cases hstop '!' (by decide) with ⟨u, u', rfl, rfl, -⟩ | ⟨hbang, hbang'⟩
    · exact follows_error
    rw [openMarked_angle hequals hbang, openMarked_angle hequals' hbang']
    exact openNamed_follows hstop ht state
  have hflags : (∀ rest, cs ≠ 'P' :: '<' :: rest) → (∀ rest, cs' ≠ 'P' :: '<' :: rest) →
      Follows (SameRead stop) (openMarked state cs) (openMarked state cs') := by
    intro hnamed hnamed'
    rw [openMarked_flags hnamed hequals hbang hangle, openMarked_flags hnamed' hequals' hbang' hangle']
    exact openFlags_follows h state
  rcases h.head_cases hstop 'P' (by decide) with ⟨t, t', rfl, rfl, ht⟩ | ⟨hp, hp'⟩
  · rcases ht.head_cases hstop '<' (by decide) with ⟨u, u', rfl, rfl, hu⟩ | ⟨hnamed, hnamed'⟩
    · exact openNamed_follows hstop hu state
    · exact hflags (fun rest heq => hnamed (by cases heq; rfl))
        (fun rest heq => hnamed' (by cases heq; rfl))
  · exact hflags (fun rest heq => hp (by rw [heq]; rfl)) (fun rest heq => hp' (by rw [heq]; rfl))

theorem readOpening_follows (hstop : StrictEnd stop) (h : SameUpTo stop cs cs') (state : ParserState) :
    Follows (SameRead stop) (state.readOpening cs) (state.readOpening cs') := by
  have hskip := h.skip hstop state.flags.extended
  rcases hskip.head_cases hstop '?' (by decide) with ⟨t, t', ht, ht', hsame⟩ | ⟨hhead, hhead'⟩
  · rw [readOpening_marked ht, readOpening_marked ht']
    exact openMarked_follows hstop hsame state
  · rw [readOpening_plain hhead, readOpening_plain hhead']
    exact follows_ok ⟨rfl, hskip⟩

end RequestRouter.Regex
