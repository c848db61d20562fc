/-
  RequestRouter/Proofs/Pattern/Participants.lean
  ==============================================
  **The parameters of a match are the groups that took part in it, none lost and none twice.**

  A compiled pattern has one slot for each capture group (`groupCount_of_compile`), and a match keeps
  the texts of no other groups (`group?_of_find`).  So a match is known by its participants, which are
  the groups that kept a text, in order, each with its slot.  Collecting adds their texts one after
  the other (`collect_eq`): those without a name to the anonymous captures, those with a name to the
  group of that name, and what comes of adding under names is `Params.grouped`.
-/
import RequestRouter.Pattern
import RequestRouter.Proofs.Params
import RequestRouter.Proofs.Regex.Reach

namespace RequestRouter

open RequestRouter.Spec

/-! ### The groups that an expression keeps -/

namespace Regex

/-- A reading adds no group beyond the last one of the expression. -/
theorem le_groupCount_of_reaches {e : Expr} {p q : Cursor} (h : e.Reaches p q) {kept : Nat × Span}
    (hkept : kept ∈ q.groups) : kept ∈ p.groups ∨ kept.1 ≤ e.groupCount := by
  induction e generalizing p q with
  | empty =>
    obtain rfl : q = p := h
    exact .inl hkept
  | one set =>
    have hstep : p.step? set = some q := h
    unfold Cursor.step? at hstep
    split at hstep
    · cases hstep
    · split at hstep
      · cases hstep
        exact .inl hkept
      · cases hstep
  | look a =>
    obtain ⟨-, rfl⟩ : _ ∧ q = p := h
    exact .inl hkept
  | group index e ih =>
    obtain ⟨m, hm, rfl⟩ : ∃ m, e.Reaches p m ∧ q = m.keep index p := h
    rcases List.mem_cons.mp hkept with rfl | hkept
    · exact .inr (Nat.le_max_left _ _)
    · exact (ih hm hkept).imp_right fun hle => Nat.le_trans hle (Nat.le_max_right _ _)
  | seq a b iha ihb =>
    obtain ⟨m, hm, hq⟩ : ∃ m, a.Reaches p m ∧ b.Reaches m q := h
    rcases ihb hq hkept with hmid | hle
    · exact (iha hm hmid).imp_right fun hle => Nat.le_trans hle (Nat.le_max_left _ _)
    · exact .inr (Nat.le_trans hle (Nat.le_max_right _ _))
  | alt a b iha ihb =>
    rcases (h : a.Reaches p q ∨ b.Reaches p q) with h | h
    · exact (iha h hkept).imp_right fun hle => Nat.le_trans hle (Nat.le_max_left _ _)
    · exact (ihb h hkept).imp_right fun hle => Nat.le_trans hle (Nat.le_max_right _ _)
  | rounds e least most greedy ih =>
    obtain ⟨n, -, -, hrounds⟩ : ∃ n, _ ∧ _ ∧ Rounds e.Reaches n p q := h
    induction n generalizing p with
    | zero =>
      obtain rfl : q = p := hrounds
      exact .inl hkept
    | succ n ihn =>
      obtain ⟨m, hm, hrest⟩ := hrounds
      exact (ihn hrest).elim (ih hm) .inr

/-- A search starts from places that carry no groups. -/
theorem exists_reaches_of_find {e : Expr} {text : List Char} {found : Cursor}
    (h : e.find text = some found) : ∃ p, p.groups = [] ∧ e.Reaches p found := by
  have hfrom : ∀ rest before offset, e.findFrom before offset rest = some found →
      ∃ p, p.groups = [] ∧ e.Reaches p found := by
    intro rest
    induction rest with
    | nil =>
      intro before offset hfound
      rw [Expr.findFrom] at hfound
      split at hfound
      · next p more hends =>
        cases hfound
        exact ⟨_, rfl, reaches_of_mem_ends (hends ▸ List.mem_cons_self)⟩
      · cases hfound
    | cons c rest ih =>
      intro before offset hfound
      rw [Expr.findFrom] at hfound
      split at hfound
      · next p more hends =>
        cases hfound
        exact ⟨_, rfl, reaches_of_mem_ends (hends ▸ List.mem_cons_self)⟩
      · exact ih (some c) (offset + 1) hfound
  exact hfrom text none 0 h

/-- What a search finds keeps the texts of groups of the expression only. -/
theorem group?_of_find {e : Expr} {text : List Char} {found : Cursor}
    (h : e.find text = some found) {group : Nat} (hgroup : e.groupCount < group) :
    found.group? group = none := by
  obtain ⟨p, hp, hreaches⟩ := exists_reaches_of_find h
  have hlookup : found.groups.lookup group = none := by
    rw [List.lookup_eq_none_iff]
    intro kept hkept
    rcases le_groupCount_of_reaches hreaches hkept with hbefore | hle
    · rw [hp] at hbefore
      cases hbefore
    · exact bne_iff_ne.mpr (by omega)
  rw [Cursor.group?, hlookup]
  rfl

end Regex

namespace Pattern

/-! ### Participants -/

/-- A capture group that took part in a match: what it stands for, and its text. -/
structure Participant where
  slot : Slot
  text : String
deriving DecidableEq, Repr

namespace Participant

/-- The name that the text is taken under, if there is one. -/
def name? (c : Participant) : Option String := c.slot.map (·.name)

/-- Whether the text is taken under a name, in whatever ASCII case the name is written. -/
def isUnder (name : String) (c : Participant) : Bool := c.name?.any (Text.sameIgnoringCase name)

/-- The text with the name that it is taken under. -/
def keyed? (c : Participant) : Option Params.Entry := c.name?.map (·, c.text)

end Participant

/-- The group, if it kept a text. -/
def participant? (found : Regex.Cursor) (group : Nat × Slot) : Option Participant :=
  (found.group? group.1).map fun text => ⟨group.2, String.ofList text⟩

/-- The capture groups of the pattern that took part in a match, in order, each with its slot. -/
def participants (p : Pattern) (found : Regex.Cursor) : List Participant :=
  ((List.range' 1 p.expr.groupCount).zip p.slots).filterMap (participant? found)

open Participant

theorem collect_eq (found : Regex.Cursor) (slots : List Slot) (group : Nat) (params : Params) :
    let taken := ((List.range' group slots.length).zip slots).filterMap (participant? found)
    collect found params group slots =
      ⟨(taken.filterMap keyed?).foldl (fun named e => Params.addNamed e.1 e.2 named) params.named,
        params.splats ++ (taken.filter (·.slot.isNone)).map (·.text)⟩ := by
  induction slots generalizing group params with
  | nil => simp [collect]
  | cons slot more ih =>
    rw [List.length_cons, List.range'_succ, List.zip_cons_cons, collect, ih]
    cases htext : found.group? group with
    | none =>
      have hout : participant? found (group, slot) = none := by rw [participant?, htext]; rfl
      rw [List.filterMap_cons_none hout]
      rfl
    | some text =>
      have htaken : participant? found (group, slot) = some ⟨slot, String.ofList text⟩ := by
        rw [participant?, htext]
        rfl
      rw [List.filterMap_cons_some htaken]
      cases slot with
      | none => simp [addGroup, Params.pushSplat, List.filterMap_cons, keyed?, name?]
      | some key => simp [addGroup, Params.pushNamed, keyed?, name?]

theorem valuesUnder_entries (name : String) (taken : List Participant) :
    Params.valuesUnder name (taken.filterMap keyed?) =
      (taken.filter (isUnder name)).map (·.text) := by
  induction taken with
  | nil => rfl
  | cons c more ih =>
    obtain ⟨slot, text⟩ := c
    cases slot with
    | none =>
      rw [List.filterMap_cons_none rfl, ih]
      rfl
    | some key =>
      have hkeyed : keyed? ⟨some key, text⟩ = some (key.name, text) := rfl
      rw [List.filterMap_cons_some hkeyed]
      cases hname : Text.sameIgnoringCase name key.name with
      | true =>
        have hown : isUnder name ⟨some key, text⟩ = true := hname
        rw [Params.valuesUnder_cons_of_pos (e := (key.name, text)) hname, ih,
          List.filter_cons_of_pos hown, List.map_cons]
      | false =>
        have hother : ¬ isUnder name ⟨some key, text⟩ = true := Bool.eq_false_iff.mp hname
        rw [Params.valuesUnder_cons_of_neg (e := (key.name, text)) hname, ih,
          List.filter_cons_of_neg hother]

theorem map_fst_entries (taken : List Participant) :
    (taken.filterMap keyed?).map Prod.fst = taken.filterMap name? := by
  rw [List.map_filterMap]
  apply List.filterMap_congr
  intro c _
  simp [keyed?, Function.comp_def]

/-- What a compiled pattern takes from a path, by the groups that took part. -/
theorem captures_eq_some {options : CompileOptions} {spec : String} {p : Pattern}
    (hp : compile options spec = .ok p) {path : String} {params : Params}
    (h : p.captures path = some params) :
    ∃ found, p.expr.find (Path.collapseChars path.toList) = some found ∧
      params.named = Params.grouped ((p.participants found).filterMap keyed?) ∧
      params.splats = ((p.participants found).filter (·.slot.isNone)).map (·.text) := by
  obtain ⟨found, hfind, rfl⟩ := Option.map_eq_some_iff.mp h
  have hcollected := collect_eq found p.slots 1 Params.empty
  rw [← groupCount_of_compile hp] at hcollected
  refine ⟨found, hfind, ?_, ?_⟩
  · exact (congrArg Params.named hcollected).trans (Params.foldl_addNamed_nil _)
  · exact (congrArg Params.splats hcollected).trans (List.nil_append _)

/-- **Parameters are the groups that took part, in order.**  Whenever a compiled pattern matches a
    path, every capture group has its slot, and no other group kept a text.  The anonymous captures
    are the texts of the participants without a name.  Under a name, in whatever ASCII case it is
    asked for, stand the texts of the participants of that name, of which the first is looked up.  No
    two entries have the same name, none is without a value, and they stand in the order in which
    their names come first among the participants, in the spelling of that place. -/
theorem captures_participants {options : CompileOptions} {spec : String} {p : Pattern}
    (hp : compile options spec = .ok p) {path : String} {params : Params}
    (h : p.captures path = some params) :
    ∃ found, p.expr.find (Path.collapseChars path.toList) = some found ∧
      p.slots.length = p.expr.groupCount ∧
      (∀ group, p.expr.groupCount < group → found.group? group = none) ∧
      params.splats = ((p.participants found).filter (·.slot.isNone)).map (·.text) ∧
      (∀ name,
        params.getAll name = ((p.participants found).filter (isUnder name)).map (·.text) ∧
        params.get? name = ((p.participants found).find? (isUnder name)).map (·.text)) ∧
      (params.named.Pairwise fun a b => Text.sameIgnoringCase a.name b.name = false) ∧
      (∀ entry ∈ params.named, entry.values ≠ []) ∧
      params.named.map (·.name) =
        ((p.participants found).filterMap name?).eraseDupsBy Text.sameIgnoringCase := by
  obtain ⟨found, hfind, hnamed, hsplats⟩ := captures_eq_some hp h
  have hparams : params = ⟨Params.grouped ((p.participants found).filterMap keyed?), params.splats⟩ := by
    rw [← hnamed]
  have hall : ∀ name,
      params.getAll name = ((p.participants found).filter (isUnder name)).map (·.text) := by
    intro name
    rw [hparams, Params.getAll_grouped, valuesUnder_entries]
  refine ⟨found, hfind, (groupCount_of_compile hp).symm, fun _ => Regex.group?_of_find hfind, hsplats,
    ?_, ?_, ?_, ?_⟩
  · intro name
    refine ⟨hall name, ?_⟩
    rw [Params.get?, hall, List.head?_map, List.head?_filter]
  · rw [hnamed]
    exact Params.distinct_groupedFrom _ _
  · intro entry hentry
    rw [hnamed] at hentry
    exact Params.values_ne_nil_of_mem_groupedFrom hentry
  · rw [hnamed, Params.grouped_eq_map, List.map_map, map_fst_entries]
    exact List.map_id' _

/-- One name in two spellings, and an optional group that takes no part. -/
theorem captures_participants_respelled :
    ∃ p found, compile {} "/:id/:page(\\d+)?/:ID/(\\d+)" = .ok p ∧
      p.captures "/a//c/7" = some ⟨[⟨"id", ["a", "c"]⟩], ["7"]⟩ ∧
      p.expr.find "/a/c/7".toList = some found ∧
      ((p.participants found).filter (·.slot.isNone)).map (·.text) = ["7"] ∧
      ((p.participants found).filter (isUnder "Id")).map (·.text) = ["a", "c"] ∧
      ((p.participants found).filterMap name?).eraseDupsBy Text.sameIgnoringCase = ["id"] := by
  have hrun : (compile {} "/:id/:page(\\d+)?/:ID/(\\d+)").toOption.bind (·.captures "/a//c/7") =
      some ⟨[⟨"id", ["a", "c"]⟩], ["7"]⟩ := by decide +kernel
  cases hp : compile {} "/:id/:page(\\d+)?/:ID/(\\d+)" with
  | error e =>
    rw [hp] at hrun
    cases hrun
  | ok p =>
    rw [hp] at hrun
    obtain ⟨found, hfind, -, -, hsplats, hvalues, -, -, hnames⟩ := captures_participants hp hrun
    exact ⟨p, found, rfl, hrun, hfind, hsplats.symm, (hvalues "Id").1.symm, hnames.symm⟩

end Pattern

end RequestRouter
