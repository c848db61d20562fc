/-
  RequestRouter/Proofs/Spec/Substitution.lean
  ===========================================
  **Wrappers are groups of the substituted text.**

  A constraint ends at the first closing parenthesis on its line, wherever that one stands: escaped,
  in a class, or inside further groups.  So a token need not be made of whole pieces, and neither need
  its wrapper.  What holds is weaker and enough: a token and its wrapper leave the reader in the same
  mode (`after_wrap`).  Hence the reader goes through the substituted text as it went through the
  original one, and comes to the parenthesis of every wrapper in the plain mode
  (`wrappersPlain_partsFrom`): no wrapper ever opens inside a class or an escape.
-/
import Mathlib.Data.List.TakeWhile
import RequestRouter.Proofs.Spec.Lexing

namespace RequestRouter.Spec

open RequestRouter.Text RequestRouter.Unicode

/-! ### Tokens as they are read -/

theorem eq_of_readMark {mark : Char} {cs rest : List Char} {found : Bool}
    (h : readMark mark cs = (found, rest)) : cs = (if found then [mark] else []) ++ rest := by
  cases cs with
  | nil =>
    simp only [readMark, Prod.mk.injEq] at h
    obtain ⟨rfl, rfl⟩ := h
    rfl
  | cons c cs =>
    simp only [readMark] at h
    split at h
    · next hc =>
      simp only [Prod.mk.injEq] at h
      obtain ⟨rfl, rfl⟩ := h
      simp [hc]
    · simp only [Prod.mk.injEq] at h
      obtain ⟨rfl, rfl⟩ := h
      rfl

/-- The text up to the first closing parenthesis on the line. -/
theorem eq_of_upToClosing {cs text rest : List Char} (h : upToClosing cs = some (text, rest)) :
    cs = text ++ rest ∧ ∃ body, text = body ++ [')'] ∧ ')' ∉ body ∧ '\n' ∉ body := by
  induction cs generalizing text with
  | nil => simp [upToClosing] at h
  | cons c cs ih =>
    rw [upToClosing] at h
    split at h
    · next hc =>
      simp only [Option.some.injEq, Prod.mk.injEq] at h
      obtain ⟨rfl, rfl⟩ := h
      exact ⟨by simp [hc], [], rfl, by simp, by simp⟩
    · split at h
      · cases h
      · next hclosing hline =>
        simp only [Option.map_eq_some_iff, Prod.mk.injEq, Prod.exists] at h
        obtain ⟨text', rest', h, rfl, rfl⟩ := h
        obtain ⟨rfl, body, rfl, h1, h2⟩ := ih h
        refine ⟨rfl, c :: body, rfl, ?_, ?_⟩
        · simp [h1, Ne.symm hclosing]
        · simp [h2, Ne.symm hline]

theorem eq_of_readConstraint {cs rest : List Char} {constraint : Option (List Char)}
    (h : readConstraint cs = (constraint, rest)) :
    cs = constraint.getD [] ++ rest ∧
      ∀ text ∈ constraint, ∃ body, text = '(' :: body ++ [')'] ∧ ')' ∉ body ∧ '\n' ∉ body := by
  unfold readConstraint at h
  split at h
  · split at h
    · next text left hup =>
      simp only [Prod.mk.injEq] at h
      obtain ⟨rfl, rfl⟩ := h
      obtain ⟨rfl, body, rfl, h1, h2⟩ := eq_of_upToClosing hup
      refine ⟨by simp, ?_⟩
      intro text htext
      simp only [Option.mem_some_iff] at htext
      exact ⟨body, htext.symm, h1, h2⟩
    · simp only [Prod.mk.injEq] at h
      obtain ⟨rfl, rfl⟩ := h
      exact ⟨rfl, by simp⟩
  · simp only [Prod.mk.injEq] at h
    obtain ⟨rfl, rfl⟩ := h
    exact ⟨rfl, by simp⟩

/-- What holds of every token that is read: a name of word characters, and a constraint that ends
    with its first closing parenthesis. -/
structure Token.Proper (t : Token) : Prop where
  name_ne_nil : t.name ≠ []
  name_word : ∀ c ∈ t.name, isWord c = true
  constraint_closed : ∀ text ∈ t.constraint,
    ∃ body, text = '(' :: body ++ [')'] ∧ ')' ∉ body ∧ '\n' ∉ body

/-- A token that is read stands at the front of the text. -/
theorem eq_of_readToken? {cs : List Char} {t : Token} (h : readToken? cs = some t) :
    (∃ rest, cs = t.text ++ rest) ∧ t.Proper := by
  unfold readToken? at h
  obtain ⟨slash, cs₁, h1⟩ : ∃ b r, readMark '/' cs = (b, r) := ⟨_, _, rfl⟩
  obtain ⟨dot, cs₂, h2⟩ : ∃ b r, readMark '.' cs₁ = (b, r) := ⟨_, _, rfl⟩
  simp only [h1, h2] at h
  split at h
  · next cs₃ =>
    split at h
    · cases h
    · next hname =>
      obtain ⟨constraint, cs₄, h3⟩ :
        ∃ c r, readConstraint (cs₃.dropWhile isWord) = (c, r) := ⟨_, _, rfl⟩
      obtain ⟨optional, cs₅, h4⟩ : ∃ b r, readMark '?' cs₄ = (b, r) := ⟨_, _, rfl⟩
      obtain ⟨star, cs₆, h5⟩ : ∃ b r, readMark '*' cs₅ = (b, r) := ⟨_, _, rfl⟩
      simp only [h3, h4, h5, Option.some.injEq] at h
      subst h
      obtain ⟨hconstraint, hclosed⟩ := eq_of_readConstraint h3
      refine ⟨⟨cs₆, ?_⟩, ?_, ?_, hclosed⟩
      · have hsplit : cs₃ = cs₃.takeWhile isWord ++ (constraint.getD [] ++ cs₄) := by
          rw [← hconstraint, List.takeWhile_append_dropWhile]
        rw [eq_of_readMark h4, eq_of_readMark h5] at hsplit
        rw [eq_of_readMark h1, eq_of_readMark h2]
        conv => lhs; rw [hsplit]
        simp [Token.text, Token.lead]
      · simpa using hname
      · intro c hc
        exact List.mem_takeWhile_imp hc
  · cases h

theorem Token.text_ne_nil (t : Token) : t.text ≠ [] := by
  simp [Token.text]

/-- A text without a colon holds no token. -/
theorem readToken?_of_not_mem {cs : List Char} (h : ':' ∉ cs) : readToken? cs = none := by
  rw [Option.eq_none_iff_forall_ne_some]
  intro t hread
  obtain ⟨⟨rest, rfl⟩, -⟩ := eq_of_readToken? hread
  exact h (by simp [Token.text])

/-- **Induction along the scan for tokens.**  The scan goes on behind a character at which no token
    starts, and behind a token that it has read. -/
@[elab_as_elim]
theorem scan_induction {motive : List Char → List Char → Prop}
    (done : ∀ before, motive before [])
    (copied : ∀ before c after, readToken? (c :: after) = none → motive (before ++ [c]) after →
      motive before (c :: after))
    (token : ∀ before t rest, readToken? (t.text ++ rest) = some t → motive (before ++ t.text) rest →
      motive before (t.text ++ rest))
    (before after : List Char) : motive before after := by
  match after with
  | [] => exact done before
  | c :: after =>
    cases hread : readToken? (c :: after) with
    | none => exact copied before c after hread (scan_induction done copied token _ after)
    | some t =>
      obtain ⟨⟨rest, hrest⟩, -⟩ := eq_of_readToken? hread
      have hlength : rest.length < (c :: after).length := by
        have hpos := List.length_pos_iff.mpr t.text_ne_nil
        rw [hrest, List.length_append]
        omega
      rw [hrest] at hread ⊢
      exact token before t rest hread (scan_induction done copied token _ rest)
termination_by after.length
decreasing_by
  · exact Nat.lt_succ_self _
  · exact hlength

/-! ### Modes through a token and its wrapper -/

/-- A mode that closing parentheses, question marks and stars do not change: the plain mode, or that
    of a class whose first characters have been read. -/
inductive Mode.Settled : Mode → Prop where
  | plain : Settled .plain
  | inClass (depth : Nat) : Settled (.inClass depth .plain)

theorem Mode.settled_next_closing (m : Mode) : (m.next ')').Settled := by
  cases m with
  | plain => exact .plain
  | escaped => exact .plain
  | inClass depth scan =>
    have : (Mode.inClass depth scan).next ')' = .inClass depth .plain := by
      simp [next, nextInClass]
    rw [this]
    exact .inClass depth

theorem Mode.Settled.next {m : Mode} (h : m.Settled) {c : Char} (hc : c ∈ [')', '?', '*']) :
    m.next c = m := by
  simp only [List.mem_cons, List.not_mem_nil, or_false] at hc
  cases h with
  | plain => rcases hc with rfl | rfl | rfl <;> rfl
  | inClass depth => rcases hc with rfl | rfl | rfl <;> simp [Mode.next, nextInClass]

theorem Mode.Settled.after {m : Mode} (h : m.Settled) {cs : List Char}
    (hcs : ∀ c ∈ cs, c ∈ [')', '?', '*']) : m.after cs = m := by
  induction cs with
  | nil => rfl
  | cons c cs ih =>
    rw [after_cons, h.next (hcs c List.mem_cons_self)]
    exact ih fun d hd => hcs d (List.mem_cons_of_mem _ hd)

theorem isWord_ordinary {c : Char} (h : isWord c = true) : c ≠ '\\' ∧ c ≠ '[' := by
  constructor
  · rintro rfl
    revert h
    decide
  · rintro rfl
    revert h
    decide

/-- The mode after the name and the constraint of a token. -/
def Token.body (t : Token) : Mode := Mode.plain.after (t.constraint.getD [])

theorem Token.Proper.settled_body {t : Token} (h : t.Proper) : t.body.Settled := by
  unfold Token.body
  cases hc : t.constraint with
  | none => exact .plain
  | some text =>
    obtain ⟨body, rfl, -⟩ := h.constraint_closed text (by simp [hc])
    rw [Option.getD_some, List.cons_append, ← List.cons_append, Mode.after_append]
    exact Mode.settled_next_closing _

theorem Token.Proper.after_text {t : Token} (h : t.Proper) {m : Mode}
    (hlead : m.after t.lead = .plain) : m.after t.text = t.body := by
  have hname : Mode.plain.after (':' :: t.name) = .plain := by
    apply Mode.after_plain
    intro c hc
    rcases List.mem_cons.mp hc with rfl | hc
    · simp
    · exact isWord_ordinary (h.name_word c hc)
  have htext : t.text = t.lead ++ (':' :: t.name ++ (t.constraint.getD [] ++
      ((if t.optional then ['?'] else []) ++ (if t.rest then ['*'] else [])))) := by
    simp [Token.text]
  rw [htext, Mode.after_append, hlead, Mode.after_append, hname, Mode.after_append]
  apply h.settled_body.after
  intro c hc
  rcases List.mem_append.mp hc with hc | hc
  · split at hc <;> simp_all
  · split at hc <;> simp_all

/-- The wrapper of a token as a part, by what precedes it and what it holds. -/
theorem exists_wrap (t : Token) (literalLead : Bool) :
    ∃ key before inside, wrap t literalLead = .wrapper key before inside ∧
      key = ⟨String.ofList t.name, t.optional⟩ ∧
      before = (if literalLead then t.lead
        else if t.slash && !t.optional then ['/'] else []) ∧
      inside = (if t.optional && (!literalLead && t.slash) then ['/'] else []) ++
        ((if !literalLead && t.dot then ['\\', '.'] else []) ++
          captureOf t.constraint t.rest (!literalLead && t.dot)) := by
  unfold wrap
  cases ho : t.optional <;> cases literalLead <;> cases hs : t.slash <;>
    simp [Token.lead, hs]

theorem Token.after_captureOf (t : Token) (rest dot : Bool) :
    Mode.plain.after (captureOf t.constraint rest dot) = t.body := by
  unfold Token.body captureOf
  cases t.constraint with
  | some text => rfl
  | none => cases rest <;> cases dot <;> decide

/-- **A token and its wrapper leave the reader in the same mode**, and the parenthesis of the wrapper
    is read in the plain mode. -/
theorem after_wrap {t : Token} (ht : t.Proper) {m : Mode} {literalLead : Bool}
    (hlead : m.after t.lead = .plain) (hplain : literalLead = false → m = .plain)
    {key : Key} {before inside : List Char}
    (hwrap : wrap t literalLead = .wrapper key before inside) :
    m.after before = .plain ∧ m.after (Part.wrapper key before inside).text = m.after t.text := by
  obtain ⟨key', before', inside', h, -, hb, hi⟩ := exists_wrap t literalLead
  rw [h] at hwrap
  simp only [Part.wrapper.injEq] at hwrap
  obtain ⟨rfl, rfl, rfl⟩ := hwrap
  have hbefore : m.after before' = .plain := by
    rw [hb]
    cases literalLead with
    | true => exact hlead
    | false =>
      rw [hplain rfl]
      cases t.slash <;> cases t.optional <;> rfl
  have hinside : Mode.plain.after inside' = t.body := by
    rw [hi, Mode.after_append, Mode.after_append]
    have h1 : Mode.plain.after (if (t.optional && (!literalLead && t.slash)) = true
        then ['/'] else []) = .plain := by
      split <;> rfl
    have h2 : Mode.plain.after (if (!literalLead && t.dot) = true then ['\\', '.'] else []) =
        .plain := by
      split <;> rfl
    rw [h1, h2, t.after_captureOf]
  refine ⟨hbefore, ?_⟩
  rw [ht.after_text hlead]
  have htext : (Part.wrapper key' before' inside').text =
      before' ++ (['(', '?', ':'] ++ (inside' ++ (if key'.optional then [')', '?'] else [')']))) := by
    simp [Part.text]
  have hopen : Mode.plain.after ['(', '?', ':'] = .plain := rfl
  rw [htext, Mode.after_append, hbefore, Mode.after_append, hopen, Mode.after_append, hinside]
  apply ht.settled_body.after
  cases key'.optional <;> simp

/-! ### Places outside groups -/

theorem utf8Length_pos {cs : List Char} (h : cs ≠ []) : 0 < utf8Length cs := by
  cases cs with
  | nil => exact absurd rfl h
  | cons c cs =>
    have := c.utf8Size_pos
    rw [utf8Length_cons]
    omega

/-- Two starts of one text that take equally many octets are equal. -/
theorem eq_of_utf8Length {a b c d : List Char} (h : a ++ b = c ++ d)
    (hlen : utf8Length a = utf8Length c) : a = c := by
  rcases List.append_eq_append_iff.mp h with ⟨e, rfl, -⟩ | ⟨e, rfl, -⟩
  · by_cases he : e = []
    · simp [he]
    · have := utf8Length_pos he
      rw [utf8Length_append] at hlen
      omega
  · by_cases he : e = []
    · simp [he]
    · have := utf8Length_pos he
      rw [utf8Length_append] at hlen
      omega

theorem exists_of_mem_shallowOffsets {depth o : Nat} {ps : List (Nat × Piece)}
    (h : o ∈ shallowOffsets depth ps) : ∃ p, (o, p) ∈ ps := by
  induction ps generalizing depth with
  | nil => simp [shallowOffsets] at h
  | cons e ps ih =>
    obtain ⟨at_, p⟩ := e
    have hmore : ∀ {d}, o ∈ shallowOffsets d ps → ∃ q, (o, q) ∈ (at_, p) :: ps := by
      intro d hd
      obtain ⟨q, hq⟩ := ih hd
      exact ⟨q, List.mem_cons_of_mem _ hq⟩
    cases p with
    | opening => exact hmore h
    | closing => exact hmore h
    | verbatim text => exact hmore h
    | char c =>
      rw [shallowOffsets] at h
      split at h
      · rcases List.mem_cons.mp h with rfl | h
        · exact ⟨_, List.mem_cons_self⟩
        · exact hmore h
      · exact hmore h

theorem exists_append_of_mem_locate {offset o : Nat} {p : Piece} {ps : List Piece}
    (h : (o, p) ∈ locate offset ps) :
    ∃ a b, ps = a ++ p :: b ∧ o = offset + utf8Length (textOf a) := by
  induction ps generalizing offset with
  | nil => cases h
  | cons q ps ih =>
    rcases List.mem_cons.mp h with heq | h
    · simp only [Prod.mk.injEq] at heq
      obtain ⟨rfl, rfl⟩ := heq
      exact ⟨[], ps, rfl, rfl⟩
    · obtain ⟨a, b, rfl, rfl⟩ := ih h
      exact ⟨q :: a, b, rfl, by simp [Nat.add_assoc]⟩

/-- A plain character outside groups is met in the plain mode. -/
theorem after_of_mem_shallowOffsets {text a b : List Char} {ps : List (Nat × Piece)}
    (hps : pieces text = some ps) (hab : text = a ++ b)
    (h : utf8Length a ∈ shallowOffsets 0 ps) : Mode.plain.after a = .plain := by
  obtain ⟨qs, hqs, hq, rfl⟩ := pieces_eq_some_iff.mp hps
  obtain ⟨p, hp⟩ := exists_of_mem_shallowOffsets h
  obtain ⟨c, d, rfl, hlen⟩ := exists_append_of_mem_locate hp
  rw [Nat.zero_add] at hlen
  have heq : a ++ b = textOf c ++ textOf (p :: d) := by
    rw [← hab, ← hq, textOf_append]
  rw [eq_of_utf8Length heq hlen]
  exact after_textOf (hqs.whole_of_append (by simp)).1

/-! ### The reader among the parts -/

/-- The parenthesis of every wrapper is met in the plain mode, the first part in mode `m`. -/
def WrappersPlain (m : Mode) : List Part → Prop
  | [] => True
  | .copied c :: more => WrappersPlain (m.next c) more
  | .wrapper key before inside :: more =>
    m.after before = .plain ∧ WrappersPlain (m.after (Part.wrapper key before inside).text) more

/-- The reader goes through the parts as it goes through the text that they come from.  The
    characters taken by the token before bring it to the mode in which its wrapper leaves it. -/
theorem wrappersPlain_partsFrom {whole : List Char} {ps : List (Nat × Piece)}
    (hps : pieces whole = some ps) (text : List Char) (offset taken held : Nat) {m : Mode}
    (done : List Char) (hdone : whole = done ++ text) (hoffset : offset = utf8Length done)
    (hm : (Mode.plain.after done).after (text.take taken) = m) :
    WrappersPlain m (partsFrom (shallowOffsets 0 ps) offset taken held text) := by
  induction text generalizing offset taken held m done with
  | nil => simp [partsFrom, WrappersPlain]
  | cons c rest ih =>
    have h1 : whole = (done ++ [c]) ++ rest := by simp [hdone]
    have h2 : offset + c.utf8Size = utf8Length (done ++ [c]) := by simp [hoffset]
    have h3 : Mode.plain.after (done ++ [c]) = (Mode.plain.after done).next c := by simp
    have hnext : ∀ {taken held m}, (Mode.plain.after (done ++ [c])).after (rest.take taken) = m →
        WrappersPlain m
          (partsFrom (shallowOffsets 0 ps) (offset + c.utf8Size) taken held rest) := by
      intro taken held m hm
      exact ih _ _ _ _ h1 h2 hm
    cases taken with
    | succ taken =>
      rw [partsFrom]
      refine hnext ?_
      rw [h3, ← hm]
      rfl
    | zero =>
      have hcopied : ∀ held, WrappersPlain m (.copied c ::
          partsFrom (shallowOffsets 0 ps) (offset + c.utf8Size) 0 held rest) := by
        intro held
        refine hnext ?_
        rw [h3, ← hm]
        rfl
      cases held with
      | succ held => exact hcopied held
      | zero =>
        rw [partsFrom]
        split
        · exact hcopied 0
        · next token htoken =>
          obtain ⟨⟨left, htext⟩, hproper⟩ := eq_of_readToken? htoken
          split
          · next hcolon =>
            have hsource : Mode.plain.after done = m := by simpa using hm
            have hlead : m.after token.lead = .plain := by
              rw [← hsource, ← Mode.after_append]
              have hsplit : whole = (done ++ token.lead) ++ (':' :: token.name ++
                  token.constraint.getD [] ++ (if token.optional then ['?'] else []) ++
                  (if token.rest then ['*'] else []) ++ left) := by
                rw [hdone, htext]
                simp [Token.text]
              apply after_of_mem_shallowOffsets hps hsplit
              rw [utf8Length_append, ← hoffset]
              exact hcolon
            have hplain : decide (offset ∉ shallowOffsets 0 ps) = false → m = .plain := by
              intro h
              simp only [decide_eq_false_iff_not, not_not] at h
              rw [← hsource]
              exact after_of_mem_shallowOffsets hps hdone (hoffset ▸ h)
            obtain ⟨key, before, inside, hwrap, -⟩ :=
              exists_wrap token (decide (offset ∉ shallowOffsets 0 ps))
            obtain ⟨hbefore, hafter⟩ := after_wrap hproper hlead hplain hwrap
            rw [hwrap]
            refine ⟨hbefore, ?_⟩
            rw [hafter]
            refine hnext ?_
            have htake : c :: rest.take (token.text.length - 1) = token.text := by
              have hlen : token.text.length = token.text.length - 1 + 1 := by
                have := List.length_pos_iff.mpr token.text_ne_nil
                omega
              rw [← List.take_succ_cons, ← hlen, htext, List.take_left' rfl]
            rw [h3, ← Mode.after_cons, htake, hsource]
          · exact hcopied _

/-- A wrapper among parts has its parenthesis where the text before it leaves the plain mode. -/
theorem WrappersPlain.after_before {m : Mode} {front back : List Part} {key : Key}
    {before inside : List Char}
    (h : WrappersPlain m (front ++ .wrapper key before inside :: back)) :
    m.after (front.flatMap Part.text ++ before) = .plain := by
  induction front generalizing m with
  | nil => exact h.1
  | cons p front ih =>
    cases p with
    | copied c => exact ih h
    | wrapper key' before' inside' =>
      have := ih h.2
      rwa [List.flatMap_cons, List.append_assoc, Mode.after_append]

/-- **The parenthesis of a wrapper is a piece of the substituted text**, and what follows makes it a
    group without a capture of its own. -/
theorem opening_of_wrapper {text : List Char} {parts front back : List Part} {key : Key}
    {before inside : List Char} {ps : List Piece} (hparts : substitute text = some parts)
    (hsplit : parts = front ++ .wrapper key before inside :: back) (hstanding : Standing ps)
    (hps : textOf ps = parts.flatMap Part.text) :
    ∃ a b, ps = a ++ .opening :: .char '?' :: .char ':' :: b ∧
      textOf a = front.flatMap Part.text ++ before := by
  simp only [substitute, Option.map_eq_some_iff] at hparts
  obtain ⟨located, hlocated, rfl⟩ := hparts
  have hplain := wrappersPlain_partsFrom hlocated text 0 0 0 [] rfl rfl rfl
  rw [hsplit] at hplain
  have hafter := hplain.after_before
  have htext : (front.flatMap Part.text ++ before) ++ ('(' :: '?' :: ':' ::
      (inside ++ (if key.optional then [')', '?'] else [')']) ++ back.flatMap Part.text)) =
      textOf ps := by
    rw [hps, hsplit]
    simp [Part.text]
  obtain ⟨a, b, rfl, ha, hb⟩ := exists_append_of_plain hstanding htext hafter
  have hbs : Standing b := by
    refine (hstanding.whole_of_append ?_).2
    rintro rfl
    cases hb
  obtain ⟨b₁, rfl, hb₁⟩ := opening_of_textOf hbs hb
  obtain ⟨b₂, rfl, hb₂⟩ := char_of_textOf hbs.tail (by decide) hb₁
  obtain ⟨b₃, rfl, -⟩ := char_of_textOf hbs.tail.tail (by decide) hb₂
  exact ⟨a, b₃, rfl, ha⟩

/-! ### Parts that are copied -/

theorem flatMap_text_copied (cs : List Char) : (cs.map Part.copied).flatMap Part.text = cs := by
  induction cs with
  | nil => rfl
  | cons c cs ih => rw [List.map_cons, List.flatMap_cons, ih, Part.text, List.singleton_append]

theorem filterMap_key_copied (cs : List Char) : (cs.map Part.copied).filterMap Part.key? = [] := by
  induction cs with
  | nil => rfl
  | cons c cs ih => exact ih

theorem wrapperOffsets_copied (offset : Nat) (cs : List Char) :
    wrapperOffsets offset (cs.map .copied) = [] := by
  induction cs generalizing offset with
  | nil => rfl
  | cons c cs ih => exact ih _

/-! ### The offsets of wrappers -/

theorem wrapperOffsets_append (offset : Nat) (front back : List Part) :
    wrapperOffsets offset (front ++ back) =
      wrapperOffsets offset front ++
        wrapperOffsets (offset + utf8Length (front.flatMap Part.text)) back := by
  induction front generalizing offset with
  | nil => simp [wrapperOffsets]
  | cons p front ih =>
    cases p with
    | copied c => simp [wrapperOffsets, ih, Part.text, Nat.add_assoc]
    | wrapper key before inside => simp [wrapperOffsets, ih, Nat.add_assoc]

theorem length_wrapperOffsets (offset : Nat) (parts : List Part) :
    (wrapperOffsets offset parts).length = (parts.filterMap Part.key?).length := by
  induction parts generalizing offset with
  | nil => rfl
  | cons p parts ih =>
    cases p with
    | copied c => exact ih _
    | wrapper key before inside =>
      rw [wrapperOffsets, List.length_cons, ih]
      rfl

theorem le_of_mem_wrapperOffsets {offset w : Nat} {parts : List Part}
    (h : w ∈ wrapperOffsets offset parts) : offset ≤ w := by
  induction parts generalizing offset with
  | nil => cases h
  | cons p parts ih =>
    cases p with
    | copied c =>
      have := ih h
      omega
    | wrapper key before inside =>
      rcases List.mem_cons.mp h with rfl | h
      · omega
      · have := ih h
        omega

/-- Wrappers open one after the other. -/
theorem pairwise_wrapperOffsets (offset : Nat) (parts : List Part) :
    (wrapperOffsets offset parts).Pairwise (· < ·) := by
  induction parts generalizing offset with
  | nil => exact .nil
  | cons p parts ih =>
    cases p with
    | copied c => exact ih _
    | wrapper key before inside =>
      refine List.pairwise_cons.mpr ⟨?_, ih _⟩
      intro w hw
      have hle := le_of_mem_wrapperOffsets hw
      have hlt : utf8Length before < utf8Length (Part.wrapper key before inside).text := by
        simp only [Part.text, utf8Length_append]
        have := utf8Length_pos (List.cons_ne_nil '(' ['?', ':'])
        omega
      omega

/-- The offset of a wrapper, by the parts before it. -/
theorem getElem?_wrapperOffsets {parts front back : List Part} {key : Key}
    {before inside : List Char} (h : parts = front ++ .wrapper key before inside :: back) :
    (wrapperOffsets 0 parts)[(front.filterMap Part.key?).length]? =
      some (utf8Length (front.flatMap Part.text ++ before)) := by
  rw [h, wrapperOffsets_append, ← length_wrapperOffsets 0 front,
    List.getElem?_append_right (Nat.le_refl _), Nat.sub_self, wrapperOffsets,
    List.getElem?_cons_zero, Nat.zero_add, utf8Length_append]

theorem exists_of_mem_wrapperOffsets {offset w : Nat} {parts : List Part}
    (h : w ∈ wrapperOffsets offset parts) :
    ∃ front key before inside back, parts = front ++ .wrapper key before inside :: back ∧
      w = offset + utf8Length (front.flatMap Part.text ++ before) := by
  induction parts generalizing offset with
  | nil => cases h
  | cons p parts ih =>
    have hlater : ∀ offset', offset' = offset + utf8Length p.text →
        w ∈ wrapperOffsets offset' parts →
        ∃ front key before inside back, p :: parts = front ++ .wrapper key before inside :: back ∧
          w = offset + utf8Length (front.flatMap Part.text ++ before) := by
      rintro offset' rfl h
      obtain ⟨front, key, before, inside, back, rfl, rfl⟩ := ih h
      exact ⟨p :: front, key, before, inside, back, rfl, by simp [Nat.add_assoc]⟩
    cases p with
    | copied c => exact hlater _ (by simp [Part.text]) h
    | wrapper key before inside =>
      rcases List.mem_cons.mp h with rfl | h
      · exact ⟨[], key, before, inside, parts, rfl, rfl⟩
      · exact hlater _ rfl h

end RequestRouter.Spec
