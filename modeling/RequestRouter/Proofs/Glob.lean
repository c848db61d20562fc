/-
  RequestRouter/Proofs/Glob.lean
  ==============================
  **What a glob accepts: its language, read with stars that prefer a star of the text.**

  `Expands` is the language of a pattern as it is meant: every `*` stands for some run of
  characters, every `?` for one character, every other character for itself. `Reads` is the language
  of the scan. It differs in one place: where the text itself has a star, a star of the pattern
  stands for exactly that star.

  The scan goes back to the last star only. That this loses nothing against `Reads` is the usual
  argument for greedy matching: if what follows the last star can be read from some later place, it
  can be read after the scan has passed the next star as early as possible (`holds_of_reads_drop`).
-/
import RequestRouter.Glob
import RequestRouter.Proofs.Text.Case

namespace RequestRouter.Glob

/-! ### The language of a pattern -/

/-- The text is the pattern with a run for every `*` and a character for every `?`. -/
def Expands : List Char → List Char → Prop
  | [], text => text = []
  | p :: pattern, text =>
    if p = '*' then ∃ run rest, text = run ++ rest ∧ Expands pattern rest
    else ∃ c rest, text = c :: rest ∧ (p = '?' ∨ p = c) ∧ Expands pattern rest

/-- As `Expands`, but a `*` that meets a star of the text stands for that star alone. -/
def Reads : List Char → List Char → Prop
  | [], text => text = []
  | p :: pattern, text =>
    if p = '*' then
      if text.head? = some '*' then Reads pattern text.tail
      else ∃ run rest, text = run ++ rest ∧ Reads pattern rest
    else ∃ c rest, text = c :: rest ∧ (p = '?' ∨ p = c) ∧ Reads pattern rest

theorem reads_nil {text : List Char} : Reads [] text ↔ text = [] := Iff.rfl

theorem reads_star {pattern text : List Char} (h : text.head? ≠ some '*') :
    Reads ('*' :: pattern) text ↔ ∃ run rest, text = run ++ rest ∧ Reads pattern rest := by
  rw [Reads, if_pos rfl, if_neg h]

theorem reads_star_star {pattern text : List Char} :
    Reads ('*' :: pattern) ('*' :: text) ↔ Reads pattern text := by
  rw [Reads, if_pos rfl, if_pos List.head?_cons, List.tail_cons]

theorem reads_cons {p : Char} {pattern text : List Char} (h : p ≠ '*') :
    Reads (p :: pattern) text ↔
      ∃ c rest, text = c :: rest ∧ (p = '?' ∨ p = c) ∧ Reads pattern rest := by
  rw [Reads, if_neg h]

/-- A pattern character that is taken to match the next character of the text, a star included. -/
theorem reads_same {p c : Char} {pattern text : List Char} (h : p = '?' ∨ p = c) :
    Reads (p :: pattern) (c :: text) ↔ Reads pattern text := by
  by_cases hstar : p = '*'
  · subst hstar
    obtain rfl : '*' = c := h.resolve_left (by decide)
    exact reads_star_star
  · rw [reads_cons hstar]
    constructor
    · rintro ⟨c', rest, htext, -, hrest⟩
      obtain ⟨rfl, rfl⟩ := List.cons.inj htext
      exact hrest
    · intro hrest
      exact ⟨c, text, rfl, h, hrest⟩

/-- The end of a text is read by stars only. -/
theorem reads_end {pattern : List Char} :
    Reads pattern [] ↔ pattern.all (· == '*') = true := by
  induction pattern with
  | nil => simp [Reads]
  | cons p pattern ih =>
    by_cases hstar : p = '*'
    · subst hstar
      rw [reads_star (by simp), List.all_cons]
      constructor
      · rintro ⟨run, rest, htext, hrest⟩
        obtain ⟨-, rfl⟩ := List.append_eq_nil_iff.mp htext.symm
        simpa using ih.mp hrest
      · intro hall
        exact ⟨[], [], rfl, ih.mpr (by simpa using hall)⟩
    · rw [reads_cons hstar]
      simp [hstar]

/-- Characters of the pattern that are no wildcards stand for themselves. -/
theorem reads_literal {literal pattern text : List Char}
    (hliteral : ∀ c ∈ literal, c ≠ '*' ∧ c ≠ '?') :
    Reads (literal ++ pattern) text ↔ ∃ rest, text = literal ++ rest ∧ Reads pattern rest := by
  induction literal generalizing text with
  | nil => simp
  | cons c literal ih =>
    obtain ⟨⟨hstar, hmark⟩, hrest⟩ := List.forall_mem_cons.mp hliteral
    rw [List.cons_append, reads_cons hstar]
    constructor
    · rintro ⟨d, text, rfl, hsame, htail⟩
      obtain rfl : c = d := hsame.resolve_left hmark
      obtain ⟨rest, rfl, hreads⟩ := (ih hrest).mp htail
      exact ⟨rest, rfl, hreads⟩
    · rintro ⟨rest, rfl, hreads⟩
      exact ⟨c, literal ++ rest, rfl, .inr rfl, (ih hrest).mpr ⟨rest, rfl, hreads⟩⟩

/-- A star at the end accepts what is left of the text, but of texts that go on with a star only
    that star. -/
theorem reads_last_star {text : List Char} :
    Reads ['*'] text ↔ (text.head? = some '*' → text = ['*']) := by
  by_cases hhead : text.head? = some '*'
  · obtain ⟨text, rfl⟩ := List.head?_eq_some_iff.mp hhead
    rw [reads_star_star, reads_nil]
    simp
  · rw [reads_star hhead]
    constructor
    · intro _ hhead'
      exact absurd hhead' hhead
    · intro _
      exact ⟨text, [], by simp, rfl⟩

theorem expands_of_reads {pattern text : List Char} (h : Reads pattern text) :
    Expands pattern text := by
  induction pattern generalizing text with
  | nil => exact h
  | cons p pattern ih =>
    by_cases hstar : p = '*'
    · subst hstar
      rw [Expands, if_pos rfl]
      by_cases hhead : text.head? = some '*'
      · obtain ⟨text, rfl⟩ := List.head?_eq_some_iff.mp hhead
        exact ⟨['*'], text, rfl, ih (reads_star_star.mp h)⟩
      · obtain ⟨run, rest, htext, hrest⟩ := (reads_star hhead).mp h
        exact ⟨run, rest, htext, ih hrest⟩
    · rw [Expands, if_neg hstar]
      obtain ⟨c, rest, htext, hsame, hrest⟩ := (reads_cons hstar).mp h
      exact ⟨c, rest, htext, hsame, ih hrest⟩

/-- The two languages agree on texts without a star. -/
theorem reads_of_expands {pattern text : List Char} (hstars : '*' ∉ text)
    (h : Expands pattern text) : Reads pattern text := by
  induction pattern generalizing text with
  | nil => exact h
  | cons p pattern ih =>
    by_cases hstar : p = '*'
    · subst hstar
      have hhead : text.head? ≠ some '*' := fun hhead => hstars (List.mem_of_mem_head? hhead)
      rw [Expands, if_pos rfl] at h
      obtain ⟨run, rest, rfl, hrest⟩ := h
      have hrun : '*' ∉ rest := fun hmem => hstars (List.mem_append_right run hmem)
      exact (reads_star hhead).mpr ⟨run, rest, rfl, ih hrun hrest⟩
    · rw [Expands, if_neg hstar] at h
      obtain ⟨c, rest, rfl, hsame, hrest⟩ := h
      have hmem : '*' ∉ rest := fun hmem => hstars (List.mem_cons_of_mem c hmem)
      exact (reads_cons hstar).mpr ⟨c, rest, rfl, hsame, ih hmem hrest⟩

/-! ### The scan up to the next star -/

/-- What the progress of a scan says about the text: what follows a star is read at some place. -/
def Progress.Holds : Progress → Prop
  | .ended accepted => accepted = true
  | .star pattern text => ∃ k, Reads pattern (text.drop k)
  | .stuck => False

theorem holds_star {pattern text : List Char} (h : text.head? ≠ some '*') :
    (Progress.star pattern text).Holds ↔ Reads ('*' :: pattern) text := by
  rw [reads_star h]
  constructor
  · rintro ⟨k, hk⟩
    exact ⟨text.take k, text.drop k, (List.take_append_drop k text).symm, hk⟩
  · rintro ⟨run, rest, rfl, hrest⟩
    exact ⟨run.length, by rwa [List.drop_left]⟩

/-- Reading side by side decides the whole of the text. -/
theorem holds_advance {pattern text : List Char} :
    (advance pattern text).Holds ↔ Reads pattern text := by
  fun_induction advance pattern text with
  | case1 pattern => exact reads_end.symm
  | case2 c text => simp [Progress.Holds, Reads]
  | case3 p pattern c text hsame ih => rw [ih, reads_same hsame]
  | case4 pattern c text hsame =>
    apply holds_star
    intro hhead
    exact hsame (.inr (Option.some.inj hhead).symm)
  | case5 p pattern c text hsame hstar =>
    rw [reads_cons hstar]
    constructor
    · exact False.elim
    · rintro ⟨c', rest, htext, hsame', -⟩
      obtain ⟨rfl, rfl⟩ := List.cons.inj htext
      exact hsame hsame'

theorem eq_drop_of_drop_eq_cons {c e : Char} {text rest : List Char} {k : Nat}
    (h : (c :: text).drop k = e :: rest) : rest = text.drop k := by
  have htail := congrArg List.tail h
  rw [List.tail_drop, List.drop_succ_cons, List.tail_cons] at htail
  exact htail.symm

/-- A scan that does not get stuck loses nothing: what can be read further on in the text can be
    read from where the scan stands. -/
theorem holds_of_reads_drop {pattern text : List Char} (hstuck : advance pattern text ≠ .stuck)
    {k : Nat} (h : Reads pattern (text.drop k)) : (advance pattern text).Holds := by
  fun_induction advance pattern text generalizing k with
  | case1 pattern => rwa [List.drop_nil, reads_end] at h
  | case2 => exact absurd rfl hstuck
  | case3 p pattern c text hsame ih =>
    by_cases hstar : p = '*'
    · subst hstar
      obtain rfl : '*' = c := hsame.resolve_left (by decide)
      by_cases hhead : (('*' :: text).drop k).head? = some '*'
      · obtain ⟨rest, hrest⟩ := List.head?_eq_some_iff.mp hhead
        rw [hrest, reads_star_star] at h
        exact ih hstuck (eq_drop_of_drop_eq_cons hrest ▸ h)
      · -- the scan has matched the star of the text, so the run begins further on
        obtain ⟨run, rest, hrun, hrest⟩ := (reads_star hhead).mp h
        obtain ⟨k, rfl⟩ : ∃ j, k = j + 1 := Nat.exists_eq_succ_of_ne_zero (by
          rintro rfl
          exact hhead rfl)
        rw [List.drop_succ_cons] at hrun
        have hdrop : rest = text.drop (k + run.length) := by
          rw [← List.drop_drop, hrun, List.drop_left]
        exact ih hstuck (hdrop ▸ hrest)
    · obtain ⟨c', rest, htext, -, hrest⟩ := (reads_cons hstar).mp h
      exact ih hstuck (eq_drop_of_drop_eq_cons htext ▸ hrest)
  | case4 pattern c text hsame =>
    by_cases hhead : ((c :: text).drop k).head? = some '*'
    · obtain ⟨rest, hrest⟩ := List.head?_eq_some_iff.mp hhead
      rw [hrest, reads_star_star] at h
      refine ⟨k + 1, ?_⟩
      rwa [← List.tail_drop, hrest]
    · obtain ⟨j, hj⟩ := (holds_star hhead).mpr h
      exact ⟨k + j, by rwa [← List.drop_drop]⟩
  | case5 => exact absurd rfl hstuck

/-! ### The whole scan -/

/-- After a star the rest of the pattern is looked for at every later place. -/
theorem afterStar_iff {pattern text : List Char} :
    afterStar pattern text = true ↔ ∃ k, Reads pattern (text.drop k) := by
  fun_induction afterStar pattern text with
  | case1 pattern text accepted hadvance =>
    constructor
    · intro haccepted
      refine ⟨0, holds_advance.mp ?_⟩
      rw [List.drop_zero, hadvance]
      exact haccepted
    · rintro ⟨k, hk⟩
      have hholds := holds_of_reads_drop (by simp [hadvance]) hk
      rwa [hadvance] at hholds
  | case2 pattern text pattern' text' hadvance ih =>
    rw [ih]
    constructor
    · intro hholds
      refine ⟨0, holds_advance.mp ?_⟩
      rw [List.drop_zero, hadvance]
      exact hholds
    · rintro ⟨k, hk⟩
      have hholds := holds_of_reads_drop (by simp [hadvance]) hk
      rwa [hadvance] at hholds
  | case3 pattern hadvance => simp [advance] at hadvance
  | case4 pattern c text hadvance ih =>
    rw [ih]
    constructor
    · rintro ⟨k, hk⟩
      exact ⟨k + 1, hk⟩
    · rintro ⟨k, hk⟩
      cases k with
      | zero =>
        have hholds := holds_advance.mpr hk
        rw [List.drop_zero, hadvance] at hholds
        exact hholds.elim
      | succ k => exact ⟨k, hk⟩

/-- The greedy scan decides `Reads`. -/
theorem matchesChars_iff {pattern text : List Char} :
    matchesChars pattern text = true ↔ Reads pattern text := by
  rw [← holds_advance, matchesChars]
  cases advance pattern text with
  | ended accepted => exact Iff.rfl
  | star pattern' text' => exact afterStar_iff
  | stuck => simp [Progress.Holds]

/-! ### Globs over texts -/

/-- Folding the case of letters neither makes nor removes a wildcard. -/
theorem mem_folded {caseSensitive : Bool} {s : String} {d : Char} (hd : d.isAlpha = false) :
    d ∈ folded caseSensitive s ↔ d ∈ s.toList := by
  cases caseSensitive with
  | true => exact Iff.rfl
  | false =>
    rw [folded, if_neg (by decide), List.mem_map]
    constructor
    · rintro ⟨c, hmem, hlower⟩
      rwa [← (Text.toLower_eq_iff hd).mp hlower]
    · intro hmem
      exact ⟨d, hmem, (Text.toLower_eq_iff hd).mpr rfl⟩

theorem folded_append (caseSensitive : Bool) (a b : String) :
    folded caseSensitive (a ++ b) = folded caseSensitive a ++ folded caseSensitive b := by
  cases caseSensitive <;> simp [folded]

theorem matchesText_iff {g : Glob} {text : String} :
    g.matchesText text = true ↔
      Reads (folded g.caseSensitive g.source) (folded g.caseSensitive text) :=
  matchesChars_iff

/-- **What a glob accepts.** Exactly the texts that `Reads` allows. A text without a star is
    therefore never rejected when it can be obtained from the pattern. -/
theorem matchesText_language (g : Glob) (text : String) :
    (g.matchesText text = true ↔
        Reads (folded g.caseSensitive g.source) (folded g.caseSensitive text)) ∧
      ('*' ∉ text.toList →
        Expands (folded g.caseSensitive g.source) (folded g.caseSensitive text) →
          g.matchesText text = true) := by
  refine ⟨matchesText_iff, ?_⟩
  intro hstars hexpands
  have hfolded : '*' ∉ folded g.caseSensitive text := by rwa [mem_folded (by decide)]
  exact matchesText_iff.mpr (reads_of_expands hfolded hexpands)

theorem matchesText_language_admin :
    '*' ∉ "/Admin/users".toList ∧
      Expands (folded false "/admin/*") (folded false "/Admin/users") ∧
      (ignoringCase "/admin/*").matchesText "/Admin/users" = true := by
  have hstars : '*' ∉ "/Admin/users".toList := by decide
  have hpattern : folded false "/admin/*" = "/admin/*".toList := by decide
  have htext : folded false "/Admin/users" = "/admin/users".toList := by decide
  have hexpands : Expands (folded false "/admin/*") (folded false "/Admin/users") := by
    rw [hpattern, htext]
    simp [Expands, and_assoc]
  exact ⟨hstars, hexpands, (matchesText_language (ignoringCase "/admin/*") _).2 hstars hexpands⟩

/-- A text can be obtained from a pattern that rejects it, when it has a star of its own. -/
theorem matchesText_rejects_star :
    ¬ ∀ (g : Glob) (text : String),
      Expands (folded g.caseSensitive g.source) (folded g.caseSensitive text) →
        g.matchesText text = true := by
  intro hall
  have hpattern : folded false "/admin/*" = "/admin/*".toList := by decide
  have htext : folded false "/admin/*x" = "/admin/*x".toList := by decide
  have hexpands : Expands (folded false "/admin/*") (folded false "/admin/*x") := by
    rw [hpattern, htext]
    simp [Expands, and_assoc]
  have hreads := matchesText_iff.mp (hall (ignoringCase "/admin/*") "/admin/*x" hexpands)
  change Reads (folded false "/admin/*") (folded false "/admin/*x") at hreads
  rw [hpattern, htext] at hreads
  simp [Reads, and_assoc] at hreads

/-- **No glob accepts a text outside its language.** Whatever it accepts can be obtained from the
    pattern, also when the scan has gone back to a star, and when the text has wildcards of its
    own. -/
theorem expands_of_matchesText {g : Glob} {text : String} (h : g.matchesText text = true) :
    Expands (folded g.caseSensitive g.source) (folded g.caseSensitive text) :=
  expands_of_reads (matchesText_iff.mp h)

/-- The scan takes the first `ab` for that of the pattern and has to go back to the star. -/
theorem expands_of_matchesText_resumed :
    (ignoringCase "*Ab?d").matchesText "aB?ab*d" = true ∧
      Expands (folded false "*Ab?d") (folded false "aB?ab*d") := by
  have hreads : Reads (folded false "*Ab?d") (folded false "aB?ab*d") := by
    have hpattern : folded false "*Ab?d" = ['*', 'a', 'b', '?', 'd'] := by decide
    have htext : folded false "aB?ab*d" = ['a', 'b', '?', 'a', 'b', '*', 'd'] := by decide
    rw [hpattern, htext, reads_star (by decide)]
    exact ⟨['a', 'b', '?'], ['a', 'b', '*', 'd'], rfl, by simp [Reads, and_assoc]⟩
  have hmatch : (ignoringCase "*Ab?d").matchesText "aB?ab*d" = true := matchesText_iff.mpr hreads
  exact ⟨hmatch, expands_of_matchesText hmatch⟩

/-- Folding a text without wildcards gives none. -/
theorem folded_plain {caseSensitive : Bool} {source : String}
    (h : '*' ∉ source.toList ∧ '?' ∉ source.toList) :
    ∀ c ∈ folded caseSensitive source, c ≠ '*' ∧ c ≠ '?' := by
  intro c hc
  constructor
  · rintro rfl
    exact h.1 ((mem_folded (by decide)).mp hc)
  · rintro rfl
    exact h.2 ((mem_folded (by decide)).mp hc)

/-- A glob without wildcards accepts its own text only. -/
theorem matchesText_plain {source text : String} {caseSensitive : Bool}
    (h : '*' ∉ source.toList ∧ '?' ∉ source.toList) :
    (Glob.mk source caseSensitive).matchesText text = true ↔
      folded caseSensitive text = folded caseSensitive source := by
  rw [matchesText_iff, ← List.append_nil (folded (Glob.mk source caseSensitive).caseSensitive _),
    reads_literal (folded_plain h)]
  simp [reads_nil]

/-- Text without wildcards in front of a pattern is read off the text, whatever stars come behind. -/
theorem matchesText_behind {stem source text : String} {caseSensitive : Bool}
    (hstem : '*' ∉ stem.toList ∧ '?' ∉ stem.toList) :
    (Glob.mk (stem ++ source) caseSensitive).matchesText (stem ++ text) =
      (Glob.mk source caseSensitive).matchesText text := by
  rw [Bool.eq_iff_iff, matchesText_iff, matchesText_iff, folded_append, folded_append,
    reads_literal (folded_plain hstem)]
  constructor
  · rintro ⟨rest, htext, hreads⟩
    rwa [List.append_cancel_left htext]
  · intro hreads
    exact ⟨_, rfl, hreads⟩

/-- The globs that scopes use: all below a prefix, except what goes on with a star. -/
theorem matchesText_below {stem text : String} {caseSensitive : Bool}
    (hstem : '*' ∉ stem.toList ∧ '?' ∉ stem.toList) :
    (Glob.mk (stem ++ "*") caseSensitive).matchesText text = true ↔
      ∃ rest, folded caseSensitive text = folded caseSensitive stem ++ rest ∧
        (rest.head? = some '*' → rest = ['*']) := by
  have hstar : folded caseSensitive "*" = ['*'] := by cases caseSensitive <;> decide
  rw [matchesText_iff, folded_append, hstar, reads_literal (folded_plain hstem)]
  simp only [reads_last_star]

end RequestRouter.Glob
