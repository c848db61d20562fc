/-
  RequestRouter/Proofs/Regex/Letters.lean
  =======================================
  **Texts of expressions that differ only in the case of letters.**

  A letter stands for itself if the text before it is whole, that is, can be read without it: then it
  is no part of an escape, a class or the opening of a group.  With case ignored such a letter is the
  set of its case variants, so two texts that differ only in the case of such letters are expressions
  that are alike (`parse_of_alikeButCase`).  Between two letters in which they differ, the texts are
  equal and are read alike; and a part of a text that is whole is read in the text as it is read alone
  (`read_carries`).
-/
import RequestRouter.Proofs.Regex.Alike
import RequestRouter.Proofs.Regex.Nesting
import RequestRouter.Proofs.Unicode.Folding

namespace RequestRouter.Regex

open RequestRouter.Unicode

/-! ### Where texts may differ -/

/-- Whether the text is whole: it can be read to its end, and leaves the flags as they are. -/
def isWhole (flags : Flags) (text : List Char) : Bool :=
  keepsFlags text && ((ParserState.initial flags).read 0 text).isOk

/-- Whether case is ignored and the text before is whole wherever two texts after `before` differ. -/
def alikeButCase (flags : Flags) (before : List Char) : List Char → List Char → Bool
  | c :: t, c' :: t' =>
    (c == c' || (flags.ignoreCase && isWhole flags before)) &&
      alikeButCase flags (before ++ [c]) t t'
  | _, _ => true

theorem alikeButCase_spec {flags : Flags} {before t t' : List Char}
    (h : alikeButCase flags before t t' = true) {u v u' v' : List Char} {c c' : Char}
    (ht : t = u ++ c :: v) (ht' : t' = u' ++ c' :: v') (hlen : u.length = u'.length)
    (hne : c ≠ c') : flags.ignoreCase = true ∧ isWhole flags (before ++ u) = true := by
  induction u generalizing before t t' u' with
  | nil =>
    obtain rfl : u' = [] := List.length_eq_zero_iff.mp hlen.symm
    subst ht ht'
    rw [List.nil_append, List.nil_append, alikeButCase, Bool.and_eq_true, Bool.or_eq_true,
      beq_iff_eq, Bool.and_eq_true] at h
    rw [List.append_nil]
    exact h.1.resolve_left hne
  | cons d u ih =>
    cases u' with
    | nil => cases hlen
    | cons d' u' =>
      subst ht ht'
      rw [List.cons_append, List.cons_append, alikeButCase, Bool.and_eq_true] at h
      have hlater := ih h.2 rfl rfl (Nat.succ.inj hlen)
      rwa [List.append_assoc, List.singleton_append] at hlater

theorem exists_first_difference {t t' : List Char} (hlen : t.length = t'.length) (h : t ≠ t') :
    ∃ u c v c' v', t = u ++ c :: v ∧ t' = u ++ c' :: v' ∧ c ≠ c' := by
  induction t generalizing t' with
  | nil => exact absurd (List.length_eq_zero_iff.mp hlen.symm).symm h
  | cons c t ih =>
    cases t' with
    | nil => cases hlen
    | cons c' t' =>
      by_cases hc : c = c'
      · subst hc
        have hne : t ≠ t' := fun heq => h (heq ▸ rfl)
        obtain ⟨u, d, v, d', v', rfl, rfl, hd⟩ := ih (Nat.succ.inj hlen) hne
        exact ⟨c :: u, d, v, d', v', rfl, rfl, hd⟩
      · exact ⟨[], c, t, c', t', rfl, rfl, hc⟩

/-! ### Letters -/

/-- Characters that are the same when made small have the same case variants. -/
theorem fold_toLower (c : Char) : fold c.toLower = fold c :=
  Text.congr_toLower fold (by decide +kernel) c

theorem ordinary_of_isAlpha {c : Char} (h : c.isAlpha = true) : Ordinary c :=
  Text.forall_isAlpha (P := Ordinary) (by decide) h

theorem same_charSet {c c' : Char} (h : c.toLower = c'.toLower) :
    (charSet true c).Same (charSet true c') := by
  have hfold : fold c = fold c' := by rw [← fold_toLower c, ← fold_toLower c', h]
  refine ⟨?_⟩
  intro d
  change (CharSet.folded (.ofChar c)).contains d = (CharSet.folded (.ofChar c')).contains d
  rw [contains_folded_ofChar, contains_folded_ofChar, sameFold, sameFold, hfold]

namespace ParserState

variable {s s' t : ParserState}

/-- A letter is one item. -/
theorem read_letter {c : Char} {rest : List Char} (hflags : s.flags = textFlags true)
    (hc : c.isAlpha = true) :
    s.read 0 (c :: rest) = (s.push [⟨.one (charSet true c), 0⟩] 0).read 0 rest :=
  readsItem_char (ordinary_of_isAlpha hc) s rest hflags

theorem Steady.push {flags : Flags} (hs : s.Steady flags) (nodes : List Node) (count : Nat) :
    (s.push nodes count).Steady flags :=
  ⟨hs.now, hs.level, hs.outer⟩

theorem Alike.push_letter (h : s.Alike s') {c c' : Char} (hc : c.toLower = c'.toLower) :
    (s.push [⟨.one (charSet true c), 0⟩] 0).Alike (s'.push [⟨.one (charSet true c'), 0⟩] 0) :=
  ⟨h.flags, ⟨h.level.kind, h.level.outerFlags, h.level.branches,
    .cons (.some ⟨.one (same_charSet hc), rfl⟩) h.level.items⟩, h.outer, h.groups, h.names⟩

/-- Wherever the texts differ, what the first has before is whole. -/
def ApartByLetters (s : ParserState) (t t' : List Char) : Prop :=
  ∀ {u v u' v' : List Char} {c c' : Char}, t = u ++ c :: v → t' = u' ++ c' :: v' →
    u.length = u'.length → c ≠ c' → keepsFlags u = true ∧ ∃ m, s.read 0 u = .ok m

theorem keepsFlags_of_append {u v : List Char} (h : keepsFlags (u ++ v) = true) :
    keepsFlags v = true := by
  induction u with
  | nil => exact h
  | cons c u ih =>
    rw [List.cons_append, keepsFlags, Bool.and_eq_true] at h
    exact ih h.2

/-- The rest of the texts differs in letters as the texts do. -/
theorem ApartByLetters.behind {u v v' : List Char} {c c' : Char}
    (h : s.ApartByLetters (u ++ c :: v) (u ++ c' :: v'))
    (hread : ∀ w, s.read 0 (u ++ c :: w) = t.read 0 w) : t.ApartByLetters v v' := by
  rintro u₂ w u₂' w' d d' rfl rfl hlen hd
  obtain ⟨hplain, m, hm⟩ := @h (u ++ c :: u₂) w (u ++ c' :: u₂') w' d d'
    (by simp) (by simp) (by simpa using hlen) hd
  rw [hread] at hm
  refine ⟨?_, m, hm⟩
  have hrest : keepsFlags (c :: u₂) = true := keepsFlags_of_append hplain
  exact keepsFlags_of_append (u := [c]) hrest

theorem Steady.of_alike {flags : Flags} (hs : s.Steady flags) (h : s.Alike s') :
    s'.Steady flags := by
  refine ⟨h.flags ▸ hs.now, h.level.outerFlags ▸ hs.level, ?_⟩
  have hflags : List.Forall₂ (· = ·) (s.outer.map (·.outerFlags)) (s'.outer.map (·.outerFlags)) :=
    List.rel_map (fun _ _ hl => hl.outerFlags) h.outer
  rw [List.forall₂_eq_eq_eq] at hflags
  intro l' hl'
  have hmem : l'.outerFlags ∈ s.outer.map (·.outerFlags) := hflags ▸ List.mem_map_of_mem hl'
  obtain ⟨l, hl, heq⟩ := List.mem_map.mp hmem
  rw [← heq]
  exact hs.outer l hl

/-- A letter behind a whole text is read after it, as an item of its own. -/
theorem read_whole_letter (hs : s.Steady (textFlags true)) {u v : List Char} {c : Char}
    (hplain : keepsFlags u = true) (ht : s.read 0 u = .ok t) (hc : c.isAlpha = true) :
    s.read 0 (u ++ c :: v) = (t.push [⟨.one (charSet true c), 0⟩] 0).read 0 v ∧
      t.Steady (textFlags true) := by
  obtain ⟨hread, ht⟩ := read_carries (.inr hc) hs rfl (Nat.zero_le _) hplain ht
  exact ⟨hread.trans (read_letter ht.now hc), ht⟩

/-- **Texts that differ in letters only are read alike.**  The induction goes from one difference to
    the next: what is between them is the same text, whole by itself. -/
theorem Alike.read_letters (h : s.Alike s') (hs : s.Steady (textFlags true)) {text text' : List Char}
    (hlower : text.map Char.toLower = text'.map Char.toLower)
    (hapart : s.ApartByLetters text text') (ht : s.read 0 text = .ok t) :
    ∃ t', s'.read 0 text' = .ok t' ∧ t.Alike t' := by
  induction hn : text.length using Nat.strong_induction_on generalizing s s' text text' with
  | h n ih =>
    by_cases heq : text = text'
    · subst heq
      exact h.read ht
    · have hlen : text.length = text'.length := by simpa using congrArg List.length hlower
      obtain ⟨u, c, v, c', v', rfl, rfl, hne⟩ := exists_first_difference hlen heq
      simp only [List.map_append, List.map_cons, List.append_cancel_left_eq, List.cons.injEq]
        at hlower
      obtain ⟨hc, hv⟩ := hlower
      have hletter : c.isAlpha = true := Text.isAlpha_of_toLower_eq hc hne
      have hletter' : c'.isAlpha = true := Text.isAlpha_of_toLower_eq hc.symm hne.symm
      obtain ⟨hplain, m, hm⟩ := hapart rfl rfl rfl hne
      obtain ⟨m', hm', halike⟩ := h.read hm
      have hread : ∀ w, s.read 0 (u ++ c :: w) = (m.push [⟨.one (charSet true c), 0⟩] 0).read 0 w :=
        fun w => (read_whole_letter hs hplain hm hletter).1
      have hsteady : m.Steady (textFlags true) :=
        (read_whole_letter (v := v) hs hplain hm hletter).2
      have hread' : s'.read 0 (u ++ c' :: v') =
          (m'.push [⟨.one (charSet true c'), 0⟩] 0).read 0 v' :=
        (read_whole_letter (hs.of_alike h) hplain hm' hletter').1
      rw [hread] at ht
      rw [hread']
      have hlater : (m.push [⟨.one (charSet true c), 0⟩] 0).ApartByLetters v v' :=
        hapart.behind hread
      refine ih v.length ?_ (halike.push_letter hc) (hsteady.push _ _) hv hlater ht rfl
      rw [← hn, List.length_append, List.length_cons]
      omega

end ParserState

variable {ic : Bool}

/-- **Texts that differ only in the case of letters that stand for themselves are expressions that
    are alike.** -/
theorem parse_of_alikeButCase {text text' : List Char} {e : Expr}
    (hlower : text.map Char.toLower = text'.map Char.toLower)
    (hletters : alikeButCase (textFlags ic) [] text text' = true)
    (h : parse (textFlags ic) text = .ok e) :
    ∃ e', parse (textFlags ic) text' = .ok e' ∧ e.Alike e' := by
  by_cases heq : text = text'
  · subst heq
    exact ⟨e, h, .refl e⟩
  · have hlen : text.length = text'.length := by simpa using congrArg List.length hlower
    obtain ⟨u, c, v, c', v', hu, hu', hne⟩ := exists_first_difference hlen heq
    obtain rfl : ic = true := (alikeButCase_spec hletters hu hu' rfl hne).1
    apply parse_of_read h
    intro s hs
    apply ParserState.Alike.read_letters .refl_initial ParserState.steady_initial hlower _ hs
    intro u v u' v' c c' hu hu' hlen hne
    have hwhole := (alikeButCase_spec hletters hu hu' hlen hne).2
    rw [List.nil_append, isWhole, Bool.and_eq_true] at hwhole
    refine ⟨hwhole.1, ?_⟩
    cases hread : (ParserState.initial (textFlags true)).read 0 u with
    | ok m => exact ⟨m, rfl⟩
    | error e =>
      rw [hread] at hwhole
      cases hwhole.2

end RequestRouter.Regex
