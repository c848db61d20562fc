/-
  RequestRouter/Proofs/Spec/Literals.lean
  =======================================
  **Reading loses nothing, and rewriting writes only bare dots and stars anew.**

  A character of a text is bare if it belongs to no escape and to no class and no group is open before
  it.  Said without the reader's counter: no stretch of the text that ends there opens more groups
  than it closes (`InGroup`), where only parentheses count that are read in the plain mode.  The
  counter stops at zero, so that a parenthesis that closes nothing is forgotten; that is why all
  stretches are asked and not only the whole text (`depth_le_iff`).

  `written` is what a text becomes character by character.  The pieces of a text tile it, and `spell`
  writes `written` of it, whatever offsets are handed in.  Each offset at which a group opens comes
  back as the offset of the same parenthesis.  An offset at which none opens is waited for in vain and
  holds up those behind it; substitution hands in none.
-/
import Mathlib.Data.List.Induction
import RequestRouter.Proofs.Spec.Places

namespace RequestRouter.Spec

open RequestRouter.Text

/-! ### Groups that are open -/

/-- How often a character is read in the plain mode, the first one in mode `m`. -/
def plainCount (d : Char) (m : Mode) : List Char → Nat
  | [] => 0
  | c :: cs => (if m = .plain ∧ c = d then 1 else 0) + plainCount d (m.next c) cs

/-- A stretch that ends here opens more groups than it closes. -/
def InGroup (before : List Char) : Prop :=
  ∃ a b, before = a ++ b ∧
    plainCount ')' (Mode.plain.after a) b < plainCount '(' (Mode.plain.after a) b

/-- What comes next belongs to no escape, no class and no group. -/
def Bare (before : List Char) : Prop := Mode.plain.after before = .plain ∧ ¬ InGroup before

theorem plainCount_concat (d : Char) (m : Mode) (cs : List Char) (c : Char) :
    plainCount d m (cs ++ [c]) =
      plainCount d m cs + (if m.after cs = .plain ∧ c = d then 1 else 0) := by
  induction cs generalizing m with
  | nil => exact (Nat.add_zero _).trans (Nat.zero_add _).symm
  | cons e cs ih => rw [List.cons_append, plainCount, ih, plainCount, Nat.add_assoc, Mode.after_cons]

/-- A text that is one character longer ends in its empty end and in the longer ends of the text. -/
theorem forall_ends_concat {P : List Char → List Char → Prop} {before : List Char} {c : Char} :
    (∀ a b, before ++ [c] = a ++ b → P a b) ↔
      P (before ++ [c]) [] ∧ ∀ a b, before = a ++ b → P a (b ++ [c]) := by
  constructor
  · intro h
    refine ⟨h _ _ (List.append_nil _).symm, ?_⟩
    rintro a b rfl
    exact h a (b ++ [c]) (List.append_assoc a b [c])
  · rintro ⟨hwhole, hlonger⟩ a b hab
    rcases List.eq_nil_or_concat b with rfl | ⟨b, d, rfl⟩
    · rw [List.append_nil] at hab
      rwa [← hab]
    · rw [List.concat_eq_append, ← List.append_assoc] at hab
      obtain ⟨hbefore, hcd⟩ := List.append_inj' hab rfl
      obtain rfl : c = d := by simpa using hcd
      rw [List.concat_eq_append]
      exact hlonger a b hbefore

/-- A parenthesis that is read in the plain mode counts. -/
theorem Reading.depth_next (r : Reading) (c : Char) :
    (r.next c).depth = r.depth + (if r.mode = .plain ∧ c = '(' then 1 else 0) -
      (if r.mode = .plain ∧ c = ')' then 1 else 0) := by
  unfold next
  split
  · next hopen => simp [hopen.2]
  · split <;> rfl

/-- **The counter is the largest excess** of opening over closing parentheses in a stretch that ends
    here. -/
theorem depth_le_iff (before : List Char) (n : Nat) :
    (Reading.start.after before).depth ≤ n ↔
      ∀ a b, before = a ++ b →
        plainCount '(' (Mode.plain.after a) b ≤ plainCount ')' (Mode.plain.after a) b + n := by
  induction before using List.reverseRecOn generalizing n with
  | nil =>
    constructor
    · intro _ a b hab
      obtain ⟨rfl, rfl⟩ := List.append_eq_nil_iff.mp hab.symm
      exact Nat.zero_le _
    · exact fun _ => Nat.zero_le n
  | append_singleton before c ih =>
    have hmode : (Reading.start.after before).mode = Mode.plain.after before :=
      Reading.mode_after _ _
    have hnext : Reading.start.after (before ++ [c]) = (Reading.start.after before).next c := by
      rw [Reading.after_append]
      rfl
    -- The character counts in every stretch alike, since each of them brings it to the same mode.
    have hstretch : ∀ d a b, before = a ++ b →
        plainCount d (Mode.plain.after a) (b ++ [c]) = plainCount d (Mode.plain.after a) b +
          (if Mode.plain.after before = .plain ∧ c = d then 1 else 0) := by
      rintro d a b rfl
      rw [plainCount_concat, Mode.after_append]
    have hopens := hstretch '('
    have hcloses := hstretch ')'
    rw [forall_ends_concat, hnext, Reading.depth_next, hmode, Nat.sub_le_iff_le_add]
    generalize (if Mode.plain.after before = .plain ∧ c = '(' then 1 else 0) = opens at hopens ⊢
    generalize (if Mode.plain.after before = .plain ∧ c = ')' then 1 else 0) = closes at hcloses ⊢
    constructor
    · intro h
      refine ⟨Nat.zero_le _, ?_⟩
      intro a b hab
      have := (ih (n + closes - opens)).mp (by omega) a b hab
      rw [hopens a b hab, hcloses a b hab]
      omega
    · rintro ⟨-, h⟩
      -- The stretch of the character alone: it opens no more than it closes and `n`.
      have hlast := h before [] (List.append_nil _).symm
      rw [hopens before [] (List.append_nil _).symm, hcloses before [] (List.append_nil _).symm,
        plainCount, plainCount] at hlast
      have hdepth : (Reading.start.after before).depth ≤ n + closes - opens := by
        refine (ih _).mpr fun a b hab => ?_
        have := h a b hab
        rw [hopens a b hab, hcloses a b hab] at this
        omega
      omega

theorem bare_iff (before : List Char) :
    Bare before ↔ (Reading.start.after before).mode = .plain ∧
      (Reading.start.after before).depth = 0 := by
  have hmode : (Reading.start.after before).mode = Mode.plain.after before :=
    Reading.mode_after _ _
  rw [Bare, hmode, ← Nat.le_zero, depth_le_iff]
  simp only [InGroup, not_exists, not_and, Nat.not_lt, Nat.add_zero]

instance : DecidablePred Bare := fun before => decidable_of_iff _ (bare_iff before).symm

/-! ### A text rewritten character by character -/

/-- What a character becomes after a text. -/
def writtenAs (before : List Char) (c : Char) : List Char :=
  if Bare before ∧ c = '.' then ['\\', '.']
  else if Bare before ∧ c = '*' then ['(', '.', '*', ')']
  else [c]

/-- What a text becomes after another. -/
def written (before : List Char) : List Char → List Char
  | [] => []
  | c :: cs => writtenAs before c ++ written (before ++ [c]) cs

theorem written_append (before a b : List Char) :
    written before (a ++ b) = written before a ++ written (before ++ a) b := by
  induction a generalizing before with
  | nil => simp [written]
  | cons c a ih => simp [written, ih]

theorem writtenAs_of_ne {before : List Char} {c : Char} (h : Bare before → c ≠ '.' ∧ c ≠ '*') :
    writtenAs before c = [c] := by
  rw [writtenAs, if_neg fun hdot => (h hdot.1).1 hdot.2, if_neg fun hstar => (h hstar.1).2 hstar.2]

/-- What is not bare stays as it is. -/
theorem written_eq_self {before cs : List Char}
    (h : ∀ k < cs.length, Mode.plain.after (before ++ cs.take k) ≠ .plain) :
    written before cs = cs := by
  induction cs generalizing before with
  | nil => rfl
  | cons c cs ih =>
    have hfirst : ¬ Bare before := fun hbare => h 0 (by simp) (by simpa using hbare.1)
    rw [written, writtenAs_of_ne fun hbare => absurd hbare hfirst, ih]
    · rfl
    · intro k hk
      have := h (k + 1) (by simpa using hk)
      rwa [List.take_succ_cons, List.append_cons] at this

/-- A piece is rewritten by its characters. -/
theorem Piece.Whole.written {p : Piece} (h : p.Whole) {before : List Char} {depth : Nat}
    (hmode : Mode.plain.after before = .plain)
    (hdepth : (Reading.start.after before).depth = depth) :
    Spec.written before p.text = textOf (p.rewritten depth) := by
  -- The characters behind the first one of an escape or a class are not read in the plain mode.
  have hverbatim : ∀ c more, p = .verbatim (c :: more) → c ≠ '.' ∧ c ≠ '*' →
      Spec.written before p.text = textOf (p.rewritten depth) := by
    rintro c more rfl hc
    have hmore : Spec.written (before ++ [c]) more = more := by
      apply written_eq_self
      intro k hk
      have := h.after_take (Nat.succ_ne_zero k) (Nat.succ_lt_succ hk)
      rwa [← List.append_cons, Mode.after_append, hmode, ← List.take_succ_cons]
    rw [Piece.text, Spec.written, writtenAs_of_ne fun _ => hc, hmore]
    simp [Piece.rewritten, Piece.text]
  cases h with
  | @char c hc =>
    have hbare : Bare before ↔ depth = 0 := by
      rw [bare_iff, Reading.mode_after, hdepth]
      exact and_iff_right hmode
    rw [Piece.text, Spec.written, Spec.written, List.append_nil, writtenAs, Piece.rewritten]
    simp only [hbare, Piece.char.injEq]
    split
    · rfl
    · split <;> rfl
  | escape d => exact hverbatim _ _ rfl ⟨by decide, by decide⟩
  | @cls body _ => exact hverbatim _ _ rfl ⟨by decide, by decide⟩
  | opening =>
    rw [Piece.text, Spec.written, writtenAs_of_ne fun _ => ⟨by decide, by decide⟩]
    simp [Spec.written, Piece.text]
  | closing =>
    rw [Piece.text, Spec.written, writtenAs_of_ne fun _ => ⟨by decide, by decide⟩]
    simp [Spec.written, Piece.text]

/-- **What becomes of pieces is what becomes of their text.** -/
theorem written_textOf {ps : List Piece} (h : Standing ps) {before : List Char} {depth : Nat}
    (hmode : Mode.plain.after before = .plain)
    (hdepth : (Reading.start.after before).depth = depth) :
    written before (textOf ps) = textOf (rewritten depth ps) := by
  induction ps generalizing before depth with
  | nil => rfl
  | cons p ps ih =>
    rcases h.head with hp | ⟨rfl, rfl⟩
    · have hreading : Reading.start.after (before ++ p.text) =
          (⟨.plain, depth, (Reading.start.after before).stray⟩ : Reading).after p.text := by
        have hmode' : (Reading.start.after before).mode = .plain :=
          (Reading.mode_after _ _).trans hmode
        rw [Reading.after_append, ← hdepth, ← hmode']
      rw [textOf_cons, written_append, hp.written hmode hdepth, rewritten_cons, textOf_append]
      congr 1
      apply ih h.tail
      · rw [Mode.after_append, hmode, hp.after_text]
      · rw [hreading, hp.reading_text]
    · have hbackslash : Piece.rewritten depth (.char '\\') = [.char '\\'] := by
        simp [Piece.rewritten]
      rw [rewritten_cons, hbackslash, textOf_cons, textOf_nil, List.append_nil, Piece.text, written,
        writtenAs_of_ne fun _ => ⟨by decide, by decide⟩]
      rfl

/-! ### Offsets that are handed in -/

/-- A piece is written alike whatever offsets are handed in. -/
theorem fst_spellFrom_cons (depth out at_ : Nat) (p : Piece) (xs : List Nat)
    (more : List (Nat × Piece)) :
    ∃ ys, (spellFrom depth out xs ((at_, p) :: more)).1 =
      textOf (p.rewritten depth) ++ (spellFrom (p.depthAfter depth)
        (out + utf8Length (textOf (p.rewritten depth))) ys more).1 := by
  by_cases hhit : p = .opening ∧ xs.head? = some at_
  · obtain ⟨rfl, hhead⟩ := hhit
    obtain ⟨others, rfl⟩ := List.head?_eq_some_iff.mp hhead
    exact ⟨others, by rw [spellFrom_opening]⟩
  · exact ⟨xs, by rw [spellFrom_cons _ _ _ _ _ _ fun hp hx => hhit ⟨hp, hx⟩]⟩

theorem fst_spellFrom (depth out : Nat) (xs : List Nat) (ps : List (Nat × Piece)) :
    (spellFrom depth out xs ps).1 = textOf (rewritten depth (ps.map Prod.snd)) := by
  induction ps generalizing depth out xs with
  | nil => rfl
  | cons e ps ih =>
    obtain ⟨at_, p⟩ := e
    obtain ⟨ys, hys⟩ := fst_spellFrom_cons depth out at_ p xs ps
    rw [hys, ih, List.map_cons, rewritten_cons, textOf_append]

theorem snd_spellFrom_nil (depth out : Nat) (ps : List (Nat × Piece)) :
    (spellFrom depth out [] ps).2 = [] := by
  induction ps generalizing depth out with
  | nil => rfl
  | cons e ps ih =>
    obtain ⟨at_, p⟩ := e
    rw [spellFrom_cons _ _ _ _ _ _ fun _ => by simp]
    exact ih _ _

/-- Offsets behind the ones that are handed in do not change what becomes of those. -/
theorem snd_spellFrom_append (depth out : Nat) (xs ys : List Nat) (ps : List (Nat × Piece)) :
    ∃ zs, (spellFrom depth out (xs ++ ys) ps).2 = (spellFrom depth out xs ps).2 ++ zs := by
  induction ps generalizing depth out xs with
  | nil => exact ⟨ys, rfl⟩
  | cons e ps ih =>
    obtain ⟨at_, p⟩ := e
    cases xs with
    | nil => exact ⟨_, by rw [snd_spellFrom_nil]; rfl⟩
    | cons x others =>
      by_cases hhit : p = .opening ∧ x = at_
      · obtain ⟨rfl, rfl⟩ := hhit
        obtain ⟨zs, hzs⟩ := ih (Piece.opening.depthAfter depth)
          (out + utf8Length (textOf (Piece.opening.rewritten depth))) others
        rw [List.cons_append, spellFrom_opening, spellFrom_opening, hzs]
        exact ⟨zs, rfl⟩
      · have hmiss : ∀ tail, p = .opening → (x :: tail).head? ≠ some at_ := by
          intro tail hp hx
          exact hhit ⟨hp, by simpa using hx⟩
        obtain ⟨zs, hzs⟩ := ih (p.depthAfter depth)
          (out + utf8Length (textOf (p.rewritten depth))) (x :: others)
        rw [List.cons_append] at hzs ⊢
        rw [spellFrom_cons _ _ _ _ _ _ (hmiss _), spellFrom_cons _ _ _ _ _ _ (hmiss _), hzs]
        exact ⟨zs, rfl⟩

/-- A group of the text opens at the offset, after `a` and before `b`. -/
def OpensAt (text : List Char) (x : Nat) (a b : List Char) : Prop :=
  text = a ++ '(' :: b ∧ Mode.plain.after a = .plain ∧ x = utf8Length a

theorem OpensAt.isOpening {ps : List Piece} (hps : Standing ps) {x : Nat} {a b : List Char}
    (h : OpensAt (textOf ps) x a b) : IsOpening 0 ps x := by
  obtain ⟨htext, hplain, rfl⟩ := h
  obtain ⟨qs, rs, rfl, rfl, hrs⟩ := exists_append_of_plain hps htext.symm hplain
  obtain ⟨more, rfl, -⟩ := opening_of_textOf hps.of_append hrs
  exact ⟨qs, more, rfl, (Nat.zero_add _).symm⟩

/-- A parenthesis and what has become of it, by the text before and behind it. -/
theorem SameOpening.opensAt {ps : List Piece} (hps : Standing ps) {x y : Nat}
    (h : SameOpening 0 0 0 ps x y) :
    ∃ a b, OpensAt (textOf ps) x a b ∧
      OpensAt (written [] (textOf ps)) y (written [] a) (written (a ++ ['(']) b) := by
  obtain ⟨qs, more, rfl, rfl, rfl⟩ := h
  have hwhole := (hps.whole_of_append (List.cons_ne_nil _ _)).1
  have hplain : Mode.plain.after (textOf qs) = .plain := after_textOf hwhole
  have hqs : Standing qs := by
    have := standing_append hwhole (b := []) trivial
    rwa [List.append_nil] at this
  have hwritten : written [] (textOf qs) = textOf (rewritten 0 qs) := written_textOf hqs rfl rfl
  have hrewritten : ∀ p ∈ rewritten 0 qs, p.Whole := by
    have := hps.rewritten 0
    rw [rewritten_append, rewritten_cons, Piece.rewritten_opening] at this
    exact (this.whole_of_append (by simp)).1
  refine ⟨textOf qs, textOf more, ⟨textOf_append _ _, hplain, Nat.zero_add _⟩, ?_, ?_, ?_⟩
  · rw [textOf_append, written_append, textOf_cons, Piece.text, List.singleton_append, written,
      writtenAs_of_ne fun _ => ⟨by decide, by decide⟩, List.singleton_append, List.nil_append]
  · rw [hwritten]
    exact after_textOf hrewritten
  · rw [hwritten, Nat.zero_add]

/-- The offset of a piece is the length of the text of the pieces before it. -/
theorem offset_of_locate {offset o : Nat} {qs : List Piece} {p : Piece}
    {front back : List (Nat × Piece)} (h : locate offset qs = front ++ (o, p) :: back) :
    o = offset + utf8Length (textOf (front.map Prod.snd)) := by
  induction front generalizing offset qs with
  | nil =>
    cases qs with
    | nil => cases h
    | cons q qs =>
      simp only [locate_cons, List.nil_append, List.cons.injEq, Prod.mk.injEq] at h
      exact h.1.1.symm
  | cons e front ih =>
    cases qs with
    | nil => cases h
    | cons q qs =>
      simp only [locate_cons, List.cons_append, List.cons.injEq] at h
      obtain ⟨rfl, h⟩ := h
      rw [ih h, List.map_cons, textOf_cons, utf8Length_append, Nat.add_assoc]

/-- **Pieces tile the text that they are read from, and rewriting writes bare dots and stars anew and
    nothing else.**  The texts of the pieces make up the text, and each offset is the length of the
    pieces before it.  Whatever offsets are handed in, the text becomes `written`: a bare dot is
    escaped, a bare star is the group of any text, every other character is kept in its place.  The
    offsets in front at which groups open, in ascending order, come back each as the offset of the
    same parenthesis, whose text before and behind it is what has become of the text before and
    behind it. -/
theorem spell_written {text : List Char} {located : List (Nat × Piece)}
    (h : pieces text = some located) :
    textOf (located.map Prod.snd) = text ∧
      (∀ front offset p back, located = front ++ (offset, p) :: back →
        offset = utf8Length (textOf (front.map Prod.snd))) ∧
      ∀ xs ys : List Nat, xs.Pairwise (· < ·) → (∀ x ∈ xs, ∃ a b, OpensAt text x a b) →
        ∃ moved others, spell text (xs ++ ys) = some (written [] text, moved ++ others) ∧
          List.Forall₂ (fun x y => ∃ a b, OpensAt text x a b ∧
            OpensAt (written [] text) y (written [] a) (written (a ++ ['(']) b)) xs moved := by
  have hspell : ∀ offsets, spell text offsets = some (spellFrom 0 0 offsets located) := by
    intro offsets
    rw [spell, h, Option.map_some]
  obtain ⟨qs, hqs, rfl, rfl⟩ := pieces_eq_some_iff.mp h
  have hwritten : ∀ offsets, (spellFrom 0 0 offsets (locate 0 qs)).1 = written [] (textOf qs) := by
    intro offsets
    rw [fst_spellFrom, map_snd_locate, written_textOf hqs rfl rfl]
    rfl
  refine ⟨by rw [map_snd_locate], ?_, ?_⟩
  · intro front offset p back hlocated
    rw [offset_of_locate hlocated, Nat.zero_add]
  · intro xs ys hascending hopens
    have hopening : ∀ x ∈ xs, IsOpening 0 qs x := by
      intro x hx
      obtain ⟨a, b, hab⟩ := hopens x hx
      exact hab.isOpening hqs
    obtain ⟨-, hmoved⟩ := spellFrom_locate qs 0 0 0 xs hopening hascending
    obtain ⟨others, hothers⟩ := snd_spellFrom_append 0 0 xs ys (locate 0 qs)
    refine ⟨_, others, ?_, hmoved.imp fun x y hxy => hxy.opensAt hqs⟩
    rw [hspell, Option.some.injEq, ← hothers, ← hwritten (xs ++ ys)]

/-- A character of two octets, a parenthesis that closes nothing, an escape, a class with a parenthesis
    in it, and a group with a dot in it: one star and one dot are bare, and the second group moves. -/
theorem spell_written_mixed :
    ∃ located, pieces "é)\\.[.(](a.b)*.(c)".toList = some located ∧
      textOf (located.map Prod.snd) = "é)\\.[.(](a.b)*.(c)".toList ∧
      ∃ moved others, spell "é)\\.[.(](a.b)*.(c)".toList [9, 16] =
          some ("é)\\.[.(](a.b)(.*)\\.(c)".toList, moved ++ others) ∧
        List.Forall₂ (fun x y => ∃ a b, OpensAt "é)\\.[.(](a.b)*.(c)".toList x a b ∧
          OpensAt "é)\\.[.(](a.b)(.*)\\.(c)".toList y (written [] a) (written (a ++ ['(']) b))
          [9, 16] moved := by
  have hpieces : ∃ located, pieces "é)\\.[.(](a.b)*.(c)".toList = some located :=
    Option.isSome_iff_exists.mp (by decide)
  obtain ⟨located, hlocated⟩ := hpieces
  have hwritten : written [] "é)\\.[.(](a.b)*.(c)".toList = "é)\\.[.(](a.b)(.*)\\.(c)".toList := by
    decide +kernel
  obtain ⟨htile, -, hmoves⟩ := spell_written hlocated
  have hopens : ∀ x ∈ [9, 16], ∃ a b, OpensAt "é)\\.[.(](a.b)*.(c)".toList x a b := by
    intro x hx
    simp only [List.mem_cons, List.not_mem_nil, or_false] at hx
    rcases hx with rfl | rfl
    · exact ⟨"é)\\.[.(]".toList, "a.b)*.(c)".toList, by decide, by decide, by decide⟩
    · exact ⟨"é)\\.[.(](a.b)*.".toList, "c)".toList, by decide, by decide, by decide⟩
  have hmoved := hmoves [9, 16] [] (by decide) hopens
  rw [hwritten] at hmoved
  exact ⟨located, hlocated, htile, hmoved⟩

end RequestRouter.Spec
