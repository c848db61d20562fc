/-
  RequestRouter/Proofs/Spec/Tokens.lean
  =====================================
  **The parameters of a pattern are the visible tokens of its spec, in order.**

  Substitution records a key for each visible token (`names_of_parted`), and the slots of an accepted
  spec hold those keys and no others (`filterMap_of_slotsOf`).  The end that makes a slash optional
  has no token and hides none (`visible_append`), so the tokens are those of the spec as it was
  written.

  Not every token is visible: a colon in a class that has a name and an opening parenthesis after it
  hides the tokens up to the next closing parenthesis (`named_slots_hidden`).
-/
import RequestRouter.Proofs.Spec.Places

namespace RequestRouter.Spec

open RequestRouter.Text RequestRouter.Unicode

/-- The names of the tokens that substitution sees, in order. -/
def tokenNames (text : List Char) : List (List Char) :=
  ((List.range text.length).filter (Visible text ·)).map fun n => nameOf (text.drop n)

/-! ### Keys -/

/-- Slots that are handed out hold all keys in their order. -/
theorem filterMap_of_slotsOf {groups : List TopGroup} {keys : List Key} {slots : List Slot}
    (h : slotsOf groups keys = .ok slots) : slots.filterMap id = keys := by
  have hnone : ∀ n, (List.replicate n (none : Slot)).filterMap id = [] := by
    intro n
    rw [List.filterMap_replicate_of_none rfl]
  induction groups generalizing keys slots with
  | nil =>
    cases keys with
    | nil =>
      obtain rfl := Except.ok.inj h
      rfl
    | cons key keys => cases h
  | cons g more ih =>
    unfold slotsOf at h
    split at h
    · exact ih h
    · split at h
      · cases h
      · obtain ⟨slots, hslots, rfl⟩ := exists_of_map_eq_ok h
        rw [List.filterMap_append, List.filterMap_cons, hnone, ih hslots]
        rfl
    · obtain ⟨slots, hslots, rfl⟩ := exists_of_map_eq_ok h
      rw [List.filterMap_append, hnone, ih hslots]
      rfl

/-- Of a range that has one place of a kind, the places of this kind. -/
theorem filter_range'_eq_singleton {p : Nat → Bool} {start count n : Nat}
    (h : ∀ k, start ≤ k → k < start + count → (p k = true ↔ k = n)) (hle : start ≤ n)
    (hlt : n < start + count) : (List.range' start count).filter p = [n] := by
  induction count generalizing start with
  | zero => omega
  | succ count ih =>
    have hstart := h start (Nat.le_refl _) (by omega)
    rw [List.range'_succ]
    by_cases hn : start = n
    · subst hn
      have hlater : (List.range' (start + 1) count).filter p = [] := by
        rw [List.filter_eq_nil_iff]
        intro k hk hpk
        obtain ⟨hafter, hbefore⟩ := List.mem_range'_1.mp hk
        have := (h k (by omega) (by omega)).mp hpk
        omega
      rw [List.filter_cons_of_pos (hstart.mpr rfl), hlater]
    · rw [List.filter_cons_of_neg (mt hstart.mp hn)]
      exact ih (fun k hk hk' => h k (by omega) (by omega)) (by omega) (by omega)

/-- The keys of the passages are the visible tokens that are gone by. -/
theorem names_of_parted {text before : List Char} {passages : List Passage}
    (h : Parted text before passages) :
    ((passages.map Passage.part).filterMap Part.key?).map (·.name) =
      (((List.range' before.length (passages.flatMap Passage.source).length).filter
        (Visible text ·)).map fun n => nameOf (text.drop n)).map String.ofList := by
  induction h with
  | done => rfl
  | @copied before c more hidden rest ih =>
    rw [List.map_cons, List.filterMap_cons_none rfl, ih, List.flatMap_cons, List.length_append,
      List.length_append, Passage.source, List.length_singleton, Nat.add_comm 1, List.range'_succ,
      List.filter_cons_of_neg (by simpa using hidden)]
  | @token before after t literalLead more split read lead visible rest ih =>
    obtain ⟨key, around, inside, hwrap, hkey, -⟩ := exists_wrap t literalLead
    obtain ⟨hname, -⟩ := colon_of_readToken? read
    have hdrop : text.drop (before.length + t.lead.length) = (t.text ++ after).drop t.lead.length := by
      rw [split, ← List.drop_drop, List.drop_left' rfl]
    have hpos : t.lead.length < t.text.length := by
      rw [Token.text]
      simp only [List.length_append, List.length_cons]
      omega
    -- Of the places of the token only that of its colon is visible.
    have hplaces : (List.range' before.length t.text.length).filter (Visible text ·) =
        [before.length + t.lead.length] := by
      refine filter_range'_eq_singleton ?_ (Nat.le_add_right _ _) (Nat.add_lt_add_left hpos _)
      simpa using visible
    rw [List.map_cons, Passage.part, hwrap, List.filterMap_cons_some (rfl : Part.key? _ = some key),
      List.map_cons, ih, List.flatMap_cons, List.length_append, Passage.source, List.length_append,
      ← List.range'_append_1, List.filter_append, hplaces, hkey]
    simp [hdrop, hname]

/-! ### The end of a spec -/

/-- A text that may stand behind a spec without a change to its tokens. -/
def IsEnd (tail : List Char) : Prop := ∀ c ∈ tail, c = '/' ∨ c = '?'

/-- A spec is read with an end behind it. -/
theorem exists_end (options : CompileOptions) (spec : List Char) :
    ∃ tail, IsEnd tail ∧ textFor options spec = spec ++ tail := by
  unfold textFor withOptionalSlash
  split
  · exact ⟨[], by simp [IsEnd], by simp⟩
  · split
    · exact ⟨[], by simp [IsEnd], by simp⟩
    · split
      · exact ⟨['?'], by simp [IsEnd], rfl⟩
      · exact ⟨['/', '?'], by simp [IsEnd], rfl⟩

namespace IsEnd

variable {tail : List Char}

theorem head?_ne (h : IsEnd tail) {c : Char} (hslash : c ≠ '/') (hmark : c ≠ '?') :
    tail.head? ≠ some c := by
  intro hc
  rcases h c (List.mem_of_head? hc) with rfl | rfl
  · exact hslash rfl
  · exact hmark rfl

theorem not_isWord (h : IsEnd tail) {c : Char} (hc : tail.head? = some c) : isWord c = false := by
  rcases h c (List.mem_of_head? hc) with rfl | rfl
  · decide
  · decide

theorem takeWhile_append (h : IsEnd tail) (cs : List Char) :
    (cs ++ tail).takeWhile isWord = cs.takeWhile isWord := by
  induction cs with
  | nil =>
    cases tail with
    | nil => rfl
    | cons c tail => simp [h.not_isWord (c := c) rfl]
  | cons c cs ih =>
    rw [List.cons_append, List.takeWhile_cons, List.takeWhile_cons, ih]

theorem dropWhile_append (h : IsEnd tail) (cs : List Char) :
    (cs ++ tail).dropWhile isWord = cs.dropWhile isWord ++ tail := by
  induction cs with
  | nil =>
    cases tail with
    | nil => rfl
    | cons c tail => simp [h.not_isWord (c := c) rfl]
  | cons c cs ih =>
    rw [List.cons_append, List.dropWhile_cons, List.dropWhile_cons, ih]
    split <;> rfl

theorem upToClosing_append (h : IsEnd tail) (cs : List Char) :
    upToClosing (cs ++ tail) = (upToClosing cs).map fun (text, left) => (text, left ++ tail) := by
  induction cs with
  | nil =>
    -- An end closes nothing.
    rw [List.nil_append]
    cases hup : upToClosing tail with
    | none => rfl
    | some found =>
      obtain ⟨text, left⟩ := found
      obtain ⟨rfl, body, rfl, -⟩ := eq_of_upToClosing hup
      rcases h ')' (by simp) with hc | hc <;> cases hc
  | cons c cs ih =>
    rw [List.cons_append, upToClosing, upToClosing, ih]
    split
    · rfl
    · split
      · rfl
      · cases upToClosing cs <;> rfl

theorem readConstraint_append (h : IsEnd tail) (cs : List Char) :
    (readConstraint (cs ++ tail)).1 = (readConstraint cs).1 := by
  cases cs with
  | nil =>
    have hopen := h.head?_ne (c := '(') (by decide) (by decide)
    rw [List.nil_append]
    unfold readConstraint
    split
    · exact absurd rfl hopen
    · rfl
  | cons c cs =>
    by_cases hc : c = '('
    · subst hc
      rw [List.cons_append, readConstraint, readConstraint, h.upToClosing_append]
      cases upToClosing cs <;> rfl
    · unfold readConstraint
      simp [hc]

theorem nameOf_append (h : IsEnd tail) (cs : List Char) : nameOf (cs ++ tail) = nameOf cs := by
  cases cs with
  | nil => exact nameOf_eq_nil (h.head?_ne (by decide) (by decide))
  | cons c cs =>
    by_cases hc : c = ':'
    · subst hc
      exact h.takeWhile_append cs
    · have hhead : (c :: (cs ++ tail)).head? ≠ some ':' := by simpa using hc
      rw [List.cons_append, nameOf_eq_nil hhead, nameOf_eq_nil (by simpa using hc)]

theorem reach_append (h : IsEnd tail) (cs : List Char) : reach (cs ++ tail) = reach cs := by
  by_cases hname : nameOf cs = []
  · rw [reach_eq_zero hname, reach_eq_zero ((h.nameOf_append cs).trans hname)]
  · cases cs with
    | nil => exact absurd rfl hname
    | cons c cs =>
      by_cases hc : c = ':'
      · subst hc
        rw [List.cons_append, reach, reach, h.takeWhile_append, h.dropWhile_append,
          h.readConstraint_append]
      · exact absurd (nameOf_eq_nil (by simpa using hc)) hname

end IsEnd

/-- An end hides no token. -/
theorem visible_append {spec tail : List Char} (h : IsEnd tail) {n : Nat} (hn : n ≤ spec.length) :
    Visible (spec ++ tail) n ↔ Visible spec n := by
  have hdrop : ∀ k ≤ spec.length, (spec ++ tail).drop k = spec.drop k ++ tail := by
    intro k hk
    exact List.drop_append_of_le_length hk
  have hoverlooked : Overlooked (spec ++ tail) n ↔ Overlooked spec n := by
    unfold Overlooked
    constructor
    · rintro ⟨k, hk, hclass, hreach⟩
      rw [readingAt_append_of_le (by omega)] at hclass
      rw [hdrop k (by omega), h.reach_append] at hreach
      exact ⟨k, hk, hclass, hreach⟩
    · rintro ⟨k, hk, hclass, hreach⟩
      have hsame : readingAt (spec ++ tail) k = readingAt spec k :=
        readingAt_append_of_le (by omega)
      rw [← hsame] at hclass
      rw [← h.reach_append, ← hdrop k (by omega)] at hreach
      exact ⟨k, hk, hclass, hreach⟩
  rw [Visible, Visible, hoverlooked, IsToken, IsToken, readingAt_append_of_le hn, hdrop n hn,
    h.nameOf_append]

/-- An end has no token. -/
theorem not_visible_of_le {spec tail : List Char} (h : IsEnd tail) {n : Nat}
    (hn : spec.length ≤ n) : ¬ Visible (spec ++ tail) n := by
  intro hvisible
  apply hvisible.1.2.2
  apply nameOf_eq_nil
  rw [List.head?_drop, List.getElem?_append_right hn]
  intro hcolon
  rcases h ':' (List.mem_of_getElem? hcolon) with hc | hc <;> cases hc

theorem tokenNames_append {spec tail : List Char} (h : IsEnd tail) :
    tokenNames (spec ++ tail) = tokenNames spec := by
  have hspec : (List.range spec.length).filter (Visible (spec ++ tail) ·) =
      (List.range spec.length).filter (Visible spec ·) := by
    apply List.filter_congr
    intro n hn
    rw [decide_eq_decide]
    exact visible_append h (Nat.le_of_lt (List.mem_range.mp hn))
  have htail : ((List.range tail.length).map (spec.length + ·)).filter (Visible (spec ++ tail) ·) =
      [] := by
    rw [List.filter_eq_nil_iff]
    intro k hk
    obtain ⟨n, -, rfl⟩ := List.mem_map.mp hk
    simpa using not_visible_of_le h (Nat.le_add_right spec.length n)
  rw [tokenNames, tokenNames, List.length_append, List.range_add, List.filter_append, htail,
    List.append_nil, hspec]
  apply List.map_congr_left
  intro n hn
  have hlt := List.mem_range.mp (List.mem_of_mem_filter hn)
  rw [List.drop_append_of_le_length (Nat.le_of_lt hlt), h.nameOf_append]

/-- **The named slots of an accepted spec are its visible tokens.**  There is one for each of them, in
    their order, with the word characters after the colon as its name, and there is no other. -/
theorem named_slots {options : CompileOptions} {spec : List Char} {source : Source}
    (h : compile options spec = .ok source) :
    (source.slots.filterMap id).map (·.name) = (tokenNames spec).map String.ofList := by
  obtain ⟨parts, wrappers, hparts, -, hslots⟩ := compile_eq_ok h
  have hkeys : source.slots.filterMap id = parts.filterMap Part.key? := by
    unfold assignSlots at hslots
    split at hslots
    · cases hslots
    · split at hslots
      · next hslots' =>
        rw [← Except.ok.inj hslots]
        exact filterMap_of_slotsOf hslots'
      · cases hslots
  obtain ⟨tail, htail, htext⟩ := exists_end options spec
  obtain ⟨passages, hparted, hsource, rfl⟩ := parted_substitute hparts
  have hnames := names_of_parted hparted
  rw [hsource, List.length_nil, ← List.range_eq_range'] at hnames
  rw [hkeys, ← tokenNames_append htail, ← htext]
  exact hnames

/-- A token outside of groups among ones that are none: in a class, escaped, and in a group. -/
theorem named_slots_visible :
    compile {} "/[:x]\\:y(?:a:z)/:id?".toList =
        .ok ⟨"/[:x]\\:y(?:a:z)(?:/([^/]+?))?/?".toList, [some ⟨"id", true⟩]⟩ ∧
      (tokenNames "/[:x]\\:y(?:a:z)/:id?".toList).map String.ofList = ["id"] := by
  have h : compile {} "/[:x]\\:y(?:a:z)/:id?".toList =
      .ok ⟨"/[:x]\\:y(?:a:z)(?:/([^/]+?))?/?".toList, [some ⟨"id", true⟩]⟩ := by decide +kernel
  exact ⟨h, (named_slots h).symm⟩

/-- **A colon in a class can hide a token.**  The name and the parenthesis in the class take along the
    token behind it, which is left in the pattern as it was written: its digits are an anonymous
    capture. -/
theorem named_slots_hidden :
    compile {} "/[:a(]/:b(\\d+)".toList = .ok ⟨"/[:a(]/:b(\\d+)/?".toList, [none]⟩ ∧
      IsToken "/[:a(]/:b(\\d+)".toList 7 ∧ nameOf ("/[:a(]/:b(\\d+)".toList.drop 7) = ['b'] := by
  decide +kernel

end RequestRouter.Spec
