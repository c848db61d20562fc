/-
  RequestRouter/Proofs/Regex/Preferred.lean
  =========================================
  **The preferred way to the end of a text.**

  `Expr.ends` keeps the first place only of those at one offset.  Whether what comes behind an
  expression can go on depends on the place and not on the groups that were kept on the way, so a
  place that was dropped could not have gone on where the first could not.  A search is therefore as
  good as plain backtracking: a sequence tries the ways of its first part one by one with all that
  follows (`first_seq`), an optional expression is left out only if taking part leads nowhere
  (`first_optional`), and a greedy run that can take all of the text does (`first_kept_run`).
-/
import RequestRouter.Proofs.Regex.Whole

namespace RequestRouter.Regex

variable {β : Type} {k : Cursor → Option β}

/-- Whether there is a result does not depend on the groups of the place. -/
def PlaceOnly (k : Cursor → Option β) : Prop :=
  ∀ p q : Cursor, p.SamePlace q → (k p).isSome = (k q).isSome

/-- The places belong to one text. -/
def OneText (places : List Cursor) : Prop :=
  ∀ p ∈ places, ∀ q ∈ places, p.offset = q.offset → p.SamePlace q

theorem oneText_of_ahead {p : Cursor} {places : List Cursor} (h : ∀ q ∈ places, p.Ahead q) :
    OneText places := fun q hq r hr ho => (h q hq).samePlace (h r hr) ho

/-- Where one place gives no result, another one at the same offset gives none. -/
theorem PlaceOnly.eq_none (hk : PlaceOnly k) {p q : Cursor} (h : p.SamePlace q) (hp : k p = none) :
    k q = none := by
  have hsome := hk p q h
  rw [hp] at hsome
  exact Option.isNone_iff_eq_none.mp (Option.isSome_eq_false_iff.mp hsome.symm)

/-! ### Places at one offset -/

/-- The first result is found among the first places as well. -/
theorem findSome?_firstsFrom (hk : PlaceOnly k) {places : List Cursor} (hplaces : OneText places)
    {seen : List Nat} (hseen : ∀ p ∈ places, p.offset ∈ seen → k p = none) :
    (firstsFrom seen places).findSome? k = places.findSome? k := by
  induction places generalizing seen with
  | nil => rfl
  | cons p more ih =>
    have hmore : OneText more := fun q hq r hr =>
      hplaces q (List.mem_cons_of_mem _ hq) r (List.mem_cons_of_mem _ hr)
    have hlater : ∀ q ∈ more, q.offset ∈ seen → k q = none := fun q hq =>
      hseen q (List.mem_cons_of_mem _ hq)
    rw [firstsFrom]
    by_cases hp : p.offset ∈ seen
    · rw [if_pos hp, ih hmore hlater, List.findSome?_cons, hseen p List.mem_cons_self hp]
    · rw [if_neg hp, List.findSome?_cons, List.findSome?_cons]
      cases hresult : k p with
      | some b => rfl
      | none =>
        refine ih hmore fun q hq ho => ?_
        rcases List.mem_cons.mp ho with ho | ho
        · have hsame := hplaces p List.mem_cons_self q (List.mem_cons_of_mem _ hq) ho.symm
          exact hk.eq_none hsame hresult
        · exact hlater q hq ho

theorem findSome?_firsts (hk : PlaceOnly k) {places : List Cursor} (hplaces : OneText places) :
    (firsts places).findSome? k = places.findSome? k :=
  findSome?_firstsFrom hk hplaces fun _ _ h => absurd h List.not_mem_nil

theorem findSome?_flatMap (step : Cursor → List Cursor) (places : List Cursor) :
    (places.flatMap step).findSome? k = places.findSome? fun p => (step p).findSome? k := by
  induction places with
  | nil => rfl
  | cons p more ih =>
    rw [List.flatMap_cons, List.findSome?_append, ih, List.findSome?_cons]
    cases (step p).findSome? k <;> rfl

/-- Places noted one after the other are the first ones. -/
theorem reverse_foldl_note (places found : List Cursor) :
    (places.foldl note found).reverse =
      found.reverse ++ firstsFrom (found.map Cursor.offset) places := by
  induction places generalizing found with
  | nil => simp [firstsFrom]
  | cons p more ih =>
    have hany : found.any (·.offset == p.offset) = true ↔ p.offset ∈ found.map Cursor.offset := by
      simp
    rw [List.foldl_cons, firstsFrom, ih, note]
    by_cases hp : p.offset ∈ found.map Cursor.offset
    · rw [if_pos (hany.mpr hp), if_pos hp]
    · rw [if_neg (mt hany.mp hp), if_neg hp, List.reverse_cons, List.append_assoc]
      rfl

theorem atMost_one (step : Cursor → List Cursor) (p : Cursor) :
    atMost step true 1 p = firsts (step p ++ [p]) := by
  have hfold : ∀ (places : List Cursor) (t : Trail),
      places.foldl (fun t q => upTo step true 0 q t) t = { t with found := places.foldl note t.found } := by
    intro places
    induction places with
    | nil => exact fun t => rfl
    | cons q more ih => exact fun t => ih _
  have hfound : (upTo step true 1 p ⟨[], []⟩).found = (step p ++ [p]).foldl note [] := by
    rw [upTo, if_neg List.not_mem_nil, List.foldl_append]
    simp only [hfold]
    rfl
  rw [atMost, hfound, reverse_foldl_note]
  rfl

/-! ### Ways on -/

namespace Expr

/-- The result of the preferred place that gives one. -/
def first (e : Expr) (k : Cursor → Option β) (p : Cursor) : Option β := (e.ends p).findSome? k

/-- The result of the preferred way through expressions one after the other. -/
def firstAll : List Expr → (Cursor → Option β) → Cursor → Option β
  | [], k => k
  | e :: more, k => e.first (firstAll more k)

end Expr

theorem exists_of_first {e : Expr} {p : Cursor} {b : β} (h : e.first k p = some b) :
    ∃ q, e.Reaches p q ∧ k q = some b := by
  obtain ⟨q, hq, hk⟩ := List.exists_of_findSome?_eq_some h
  exact ⟨q, reaches_of_mem_ends hq, hk⟩

/-- There is a result if some place reached gives one. -/
theorem isSome_first (hk : PlaceOnly k) {e : Expr} {p : Cursor} :
    (e.first k p).isSome = true ↔ ∃ q, e.Reaches p q ∧ (k q).isSome = true := by
  rw [Expr.first, List.findSome?_isSome_iff]
  constructor
  · rintro ⟨q, hq, hsome⟩
    exact ⟨q, reaches_of_mem_ends hq, hsome⟩
  · rintro ⟨q, hq, hsome⟩
    obtain ⟨q', hq', hsame⟩ := exists_mem_ends hq
    exact ⟨q', hq', (hk q q' hsame).symm.trans hsome⟩

theorem PlaceOnly.first (hk : PlaceOnly k) (e : Expr) : PlaceOnly (e.first k) := by
  have hmoved : ∀ p q : Cursor, p.SamePlace q → (e.first k p).isSome = true →
      (e.first k q).isSome = true := by
    intro p q hpq hsome
    obtain ⟨m, hm, hresult⟩ := (isSome_first hk).mp hsome
    obtain ⟨m', hm', hsame⟩ := e.lists_ends.moved hm hpq
    exact (isSome_first hk).mpr ⟨m', hm', (hk m m' hsame).symm.trans hresult⟩
  intro p q hpq
  rw [Bool.eq_iff_iff]
  exact ⟨hmoved p q hpq, hmoved q p hpq.symm⟩

theorem PlaceOnly.firstAll (hk : PlaceOnly k) (es : List Expr) : PlaceOnly (Expr.firstAll es k) := by
  induction es with
  | nil => exact hk
  | cons e more ih => exact ih.first e

/-- **A sequence** tries the ways of its first part with all that follows. -/
theorem first_seq (hk : PlaceOnly k) (a b : Expr) (p : Cursor) :
    (Expr.seq a b).first k p = a.first (b.first k) p := by
  have hahead : OneText ((a.ends p).flatMap b.ends) := by
    refine oneText_of_ahead (p := p) fun q hq => ?_
    obtain ⟨m, hm, hq⟩ := List.mem_flatMap.mp hq
    exact (a.lists_ends.ahead (reaches_of_mem_ends hm)).trans
      (b.lists_ends.ahead (reaches_of_mem_ends hq))
  rw [Expr.first, Expr.ends, findSome?_firsts hk hahead, findSome?_flatMap]
  rfl

/-- **An optional expression** is left out only if taking part gives no result. -/
theorem first_optional (hk : PlaceOnly k) (e : Expr) (p : Cursor) :
    (Expr.rounds e 0 (some 1) true).first k p = (e.first k p).or (k p) := by
  have hahead : OneText (e.ends p ++ [p]) := by
    refine oneText_of_ahead (p := p) fun q hq => ?_
    rcases List.mem_append.mp hq with hq | hq
    · exact e.lists_ends.ahead (reaches_of_mem_ends hq)
    · obtain rfl := List.mem_singleton.mp hq
      exact .refl q
  have hahead' : OneText (firsts (e.ends p ++ [p])) := fun q hq r hr =>
    hahead q (mem_of_mem_firsts hq) r (mem_of_mem_firsts hr)
  have hends : (Expr.rounds e 0 (some 1) true).ends p = firsts (firsts (e.ends p ++ [p])) := by
    rw [Expr.ends, exactly, List.flatMap_singleton, atMost_one]
  rw [Expr.first, hends, findSome?_firsts hk hahead', findSome?_firsts hk hahead,
    List.findSome?_append]
  cases hp : k p <;> simp [Expr.first, hp]

theorem firstAll_append (a b : List Expr) (k : Cursor → Option β) :
    Expr.firstAll (a ++ b) k = Expr.firstAll a (Expr.firstAll b k) := by
  induction a with
  | nil => rfl
  | cons e a ih => rw [List.cons_append, Expr.firstAll, ih, Expr.firstAll]

theorem first_seqs (hk : PlaceOnly k) (es : List Expr) (p : Cursor) :
    (Expr.seqs es).first k p = Expr.firstAll es k p := by
  cases es with
  | nil =>
    change [p].findSome? k = k p
    cases hp : k p <;> simp [hp]
  | cons e more =>
    change (more.foldl .seq e).first k p = e.first (Expr.firstAll more k) p
    induction more generalizing e with
    | nil => rfl
    | cons e' more ih =>
      rw [List.foldl_cons, ih, first_seq (hk.firstAll more)]
      rfl

theorem exists_of_firstAll {es : List Expr} {p : Cursor} {b : β}
    (h : Expr.firstAll es k p = some b) : ∃ q, Expr.ReachesAll es p q ∧ k q = some b := by
  induction es generalizing p with
  | nil => exact ⟨p, rfl, h⟩
  | cons e more ih =>
    obtain ⟨m, hm, hmore⟩ := exists_of_first h
    obtain ⟨q, hq, hresult⟩ := ih hmore
    exact ⟨q, ⟨m, hm, hq⟩, hresult⟩

theorem isSome_firstAll (hk : PlaceOnly k) {es : List Expr} {p q : Cursor}
    (hq : Expr.ReachesAll es p q) (hsome : (k q).isSome = true) :
    (Expr.firstAll es k p).isSome = true := by
  rw [← first_seqs hk]
  exact (isSome_first hk).mpr ⟨q, (reaches_seqs es p q).mpr hq, hsome⟩

/-! ### Greedy runs -/

theorem head?_firsts (places : List Cursor) : (firsts places).head? = places.head? := by
  cases places with
  | nil => rfl
  | cons p more => rw [firsts, firstsFrom, if_neg List.not_mem_nil, List.head?_cons, List.head?_cons]

theorem first_of_head? {e : Expr} {p q : Cursor} (h : (e.ends p).head? = some q)
    (hsome : (k q).isSome = true) : e.first k p = k q := by
  obtain ⟨more, hends⟩ := List.head?_eq_some_iff.mp h
  obtain ⟨b, hb⟩ := Option.isSome_iff_exists.mp hsome
  rw [Expr.first, hends, List.findSome?_cons, hb]

/-- One round over a character of the set. -/
theorem exists_ends_one {set : CharSet} {p : Cursor} {c : Char} {rest : List Char}
    (hrest : p.rest = c :: rest) (hc : set.contains c = true) :
    ∃ q, (Expr.one set).ends p = [q] ∧ q.offset ≠ p.offset ∧ p.Takes [c] [] q ∧ q.rest = rest := by
  refine ⟨⟨some c, rest, p.offset + 1, p.groups⟩, ?_, Nat.succ_ne_self _, ⟨⟨hrest, rfl, rfl⟩, rfl⟩, rfl⟩
  simp [Expr.ends, Cursor.step?, hrest, hc]

/-- The place found first, which is the last noted, is the end of the text. -/
theorem getLast?_onward {set : CharSet} {text : List Char} {n : Nat} {p : Cursor}
    (hrest : p.rest = text) (hn : text.length < n) (hall : ∀ c ∈ text, set.contains c = true) :
    ∃ q, (onward (Expr.one set).ends true n p []).getLast? = some q ∧ p.Takes text [] q := by
  induction text generalizing n p with
  | nil =>
    obtain ⟨n, rfl⟩ := Nat.exists_eq_succ_of_ne_zero (Nat.ne_of_gt hn)
    exact ⟨p, by simp [onward, Expr.ends, Cursor.step?, hrest], .nil p⟩
  | cons c text ih =>
    obtain ⟨n, rfl⟩ := Nat.exists_eq_succ_of_ne_zero (Nat.ne_zero_of_lt hn)
    obtain ⟨m, hends, hoffset, htakes, hmore⟩ := exists_ends_one hrest (hall c List.mem_cons_self)
    obtain ⟨q, hq, hread⟩ := ih hmore (Nat.lt_of_succ_lt_succ hn) fun d hd =>
      hall d (List.mem_cons_of_mem _ hd)
    refine ⟨q, ?_, htakes.append hread⟩
    have honward : onward (Expr.one set).ends true (n + 1) p [] =
        p :: onward (Expr.one set).ends true n m [] := by
      simp [onward, hends, hoffset]
    rw [honward, List.getLast?_cons, hq]
    rfl

/-- A greedy run over characters of its set first tries the end of the text. -/
theorem head?_ends_run {set : CharSet} {p : Cursor} (hall : ∀ c ∈ p.rest, set.contains c = true) :
    ∃ q, ((Expr.rounds (.one set) 0 none true).ends p).head? = some q ∧ p.Takes p.rest [] q := by
  have hends : ((Expr.rounds (.one set) 0 none true).ends p).head? =
      (oneOrMore (Expr.one set).ends true p ++ [p]).head? := by
    rw [Expr.ends, zeroOrMore, if_pos rfl, head?_firsts]
  rw [hends]
  cases hrest : p.rest with
  | nil => exact ⟨p, by simp [oneOrMore, Expr.ends, Cursor.step?, hrest], .nil p⟩
  | cons c rest =>
    rw [hrest] at hall
    obtain ⟨m, hone, hoffset, htakes, hmore⟩ := exists_ends_one hrest (hall c List.mem_cons_self)
    obtain ⟨q, hq, hread⟩ := getLast?_onward hmore (Nat.lt_succ_self _) fun d hd =>
      hall d (List.mem_cons_of_mem _ hd)
    refine ⟨q, ?_, htakes.append hread⟩
    have hfound : oneOrMore (Expr.one set).ends true p =
        (onward (Expr.one set).ends true (rest.length + 1) m []).reverse := by
      simp [oneOrMore, hone, hoffset, hmore]
    rw [hfound, List.head?_append, List.head?_reverse, hq]
    rfl

/-- **A kept greedy run** takes all of the text if what follows it can end there. -/
theorem first_kept_run {set : CharSet} {index : Nat} {p : Cursor}
    (hall : ∀ c ∈ p.rest, set.contains c = true) :
    ∃ q, p.Takes p.rest [(index, p.rest)] q ∧ ∀ k : Cursor → Option β, (k q).isSome = true →
      (Expr.group index (.rounds (.one set) 0 none true)).first k p = k q := by
  obtain ⟨m, hm, htakes⟩ := head?_ends_run hall
  refine ⟨m.keep index p, htakes.keep index, fun k hsome => first_of_head? ?_ hsome⟩
  rw [Expr.ends, List.head?_map, hm]
  rfl

/-! ### Whole texts -/

/-- The place, if it is the end of the text. -/
def Cursor.atEnd (p : Cursor) : Option Cursor := if p.rest = [] then some p else none

theorem placeOnly_atEnd : PlaceOnly Cursor.atEnd := by
  intro p q h
  rw [Cursor.atEnd, Cursor.atEnd, h.rest]
  split <;> rfl

theorem atEnd_eq_some {p q : Cursor} (h : p.atEnd = some q) : p = q ∧ p.rest = [] := by
  unfold Cursor.atEnd at h
  split at h
  · next hrest => exact ⟨Option.some.inj h, hrest⟩
  · cases h

/-- **An anchored expression finds the preferred way** from the start of the text to its end. -/
theorem find_anchored_first (es : List Expr) (text : List Char) :
    (anchoredExpr (.seqs es)).find text = Expr.firstAll es Cursor.atEnd (.start text) := by
  have hhead : ∀ places : List Cursor, places.head? = places.findSome? some := by
    intro places
    cases places <;> rfl
  have hend : (Expr.look .textEnd).first some = Cursor.atEnd := by
    funext q
    cases hrest : q.rest <;> simp [Expr.first, Expr.ends, Assertion.holds, Cursor.atEnd, hrest]
  have hsome : PlaceOnly (some : Cursor → Option Cursor) := fun _ _ _ => rfl
  rw [Expr.find_of_starts before_of_anchored, hhead]
  change (anchoredExpr (.seqs es)).first some (Cursor.start text) = _
  rw [anchoredExpr, first_seqs hsome, Expr.firstAll, Expr.firstAll, Expr.firstAll, Expr.firstAll,
    hend, ← first_seqs placeOnly_atEnd]
  simp [Expr.first, Expr.ends, Assertion.holds, Cursor.start]

end RequestRouter.Regex
