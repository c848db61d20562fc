/-
  RequestRouter/Proofs/Spec/Captures.lean
  =======================================
  **One slot for each capture group, the parameters at the first one inside their wrappers.**

  `topGroupsFrom` counts the captures of each group outside all others and `slotsOf` hands out slots
  by those counts.  Here the captures of a pattern are listed one by one, each with the groups around
  it (`capturesFrom`), without a look at wrappers.  The groups that are counted cut that list into
  blocks (`exists_blocks`), and a wrapper that is such a group has exactly its own block inside it.  A
  wrapper that is not outside all others is counted by no group, so a key is left over and the slots
  are refused: where slots are handed out at all, every wrapper has its block (`slotsOf_blocks`).
-/
import Mathlib.Data.List.Perm.Subperm
import RequestRouter.Proofs.Spec.Lexing

namespace RequestRouter.Spec

/-! ### The captures of a pattern -/

/-- A capture group: where its parenthesis stands, and where those of the groups around it stand, the
    innermost first. -/
structure Capture where
  offset : Nat
  around : List Nat
deriving DecidableEq, Repr

/-- The capture groups of pieces inside the groups `around`, in the order of their parentheses. -/
def capturesFrom (around : List Nat) : List (Nat × Piece) → List Capture
  | [] => []
  | (at_, .opening) :: more =>
    (if openerOf more = .capturing then [⟨at_, around⟩] else []) ++
      capturesFrom (at_ :: around) more
  | (_, .closing) :: more => capturesFrom around.tail more
  | (_, .char _) :: more => capturesFrom around more
  | (_, .verbatim _) :: more => capturesFrom around more

/-- The place in a list of captures of the first one inside the group at `w`. -/
def firstInside (captures : List Capture) (w : Nat) : Option Nat :=
  captures.findIdx? fun c => w ∈ c.around

/-! ### Blocks -/

/-- A group outside all others, with the captures in it, itself included. -/
structure Block where
  offset : Nat
  opener : Opener
  captures : List Capture

/-- What is counted of a block. -/
def Block.group (wrappers : List Nat) (b : Block) : TopGroup :=
  ⟨if b.offset ∈ wrappers then .named else b.opener, b.captures.length⟩

/-- Pieces in the order of their offsets, from `low` on. -/
def Ascending (low : Nat) : List (Nat × Piece) → Prop
  | [] => True
  | (at_, _) :: more => low ≤ at_ ∧ Ascending (at_ + 1) more

/-- A capture in the group at `o`, and in no group that opened before it. -/
structure Capture.Within (o : Nat) (c : Capture) : Prop where
  inside : o ∈ c.around
  bounds : ∀ x ∈ c.around, o ≤ x ∧ x < c.offset

/-- A block holds its own capture and captures inside it. -/
def Block.Holds (b : Block) : Prop :=
  ∀ c ∈ b.captures, c.Within b.offset ∨ c = ⟨b.offset, []⟩ ∧ b.opener = .capturing

/-- One block ends before the other starts. -/
structure Block.Before (b b' : Block) : Prop where
  offset : b.offset < b'.offset
  captures : ∀ c ∈ b.captures, c.offset < b'.offset

/-- Blocks of a pattern, from `low` on; those of wrappers do not capture by themselves. -/
structure Blocks (wrappers : List Nat) (low : Nat) (blocks : List Block) : Prop where
  holds : ∀ b ∈ blocks, b.Holds
  before : blocks.Pairwise Block.Before
  low : ∀ b ∈ blocks, low ≤ b.offset
  opener : ∀ b ∈ blocks, b.opener ≠ .named ∧ (b.offset ∈ wrappers → b.opener ≠ .capturing)

theorem Blocks.mono {wrappers : List Nat} {low low' : Nat} {blocks : List Block}
    (h : Blocks wrappers low blocks) (hle : low' ≤ low) : Blocks wrappers low' blocks :=
  ⟨h.holds, h.before, fun b hb => Nat.le_trans hle (h.low b hb), h.opener⟩

theorem Blocks.tail {wrappers : List Nat} {low : Nat} {b : Block} {blocks : List Block}
    (h : Blocks wrappers low (b :: blocks)) : Blocks wrappers low blocks :=
  ⟨fun b' hb' => h.holds b' (List.mem_cons_of_mem _ hb'), (List.pairwise_cons.mp h.before).2,
    fun b' hb' => h.low b' (List.mem_cons_of_mem _ hb'),
    fun b' hb' => h.opener b' (List.mem_cons_of_mem _ hb')⟩

theorem openerOf_ne_named (more : List (Nat × Piece)) : openerOf more ≠ .named := by
  unfold openerOf
  split <;> simp

/-- No wrapper captures by itself. -/
def Plain (wrappers : List Nat) (located : List (Nat × Piece)) : Prop :=
  ∀ front at_ back, located = front ++ (at_, .opening) :: back → at_ ∈ wrappers →
    openerOf back ≠ .capturing

theorem Plain.tail {wrappers : List Nat} {e : Nat × Piece} {located : List (Nat × Piece)}
    (h : Plain wrappers (e :: located)) : Plain wrappers located := by
  intro front at_ back hsplit hat
  exact h (e :: front) at_ back (by rw [hsplit, List.cons_append]) hat

/-- What is left of the block that is open in the groups `around`, the outermost at `o`: the captures
    to come, and the blocks after it. -/
structure Rest (wrappers around : List Nat) (o low : Nat) (current : TopGroup)
    (located : List (Nat × Piece)) (groups : List TopGroup) (cs : List Capture)
    (blocks : List Block) : Prop where
  groups : groups = { current with captures := current.captures + cs.length } ::
    blocks.map (Block.group wrappers)
  captures : capturesFrom around located = cs ++ blocks.flatMap Block.captures
  within : ∀ c ∈ cs, c.Within o
  before : ∀ c ∈ cs, ∀ b ∈ blocks, c.offset < b.offset
  blocks : Blocks wrappers low blocks

/-- What is open stays so over a piece that is no parenthesis. -/
theorem topGroupsFrom_skip (wrappers : List Nat) (depth : Nat) (current : TopGroup) (at_ : Nat)
    {p : Piece} (h1 : p ≠ .opening) (h2 : p ≠ .closing) (more : List (Nat × Piece)) :
    topGroupsFrom wrappers depth current ((at_, p) :: more) =
      topGroupsFrom wrappers depth current more := by
  cases p with
  | opening => exact absurd rfl h1
  | closing => exact absurd rfl h2
  | char c => rw [topGroupsFrom] <;> simp
  | verbatim text => rw [topGroupsFrom] <;> simp

theorem capturesFrom_skip (around : List Nat) (at_ : Nat) {p : Piece} (h1 : p ≠ .opening)
    (h2 : p ≠ .closing) (more : List (Nat × Piece)) :
    capturesFrom around ((at_, p) :: more) = capturesFrom around more := by
  cases p with
  | opening => exact absurd rfl h1
  | closing => exact absurd rfl h2
  | char c => rfl
  | verbatim text => rfl

theorem Rest.mono {wrappers around : List Nat} {o low low' : Nat} {current : TopGroup}
    {located : List (Nat × Piece)} {groups : List TopGroup} {cs : List Capture}
    {blocks : List Block} (h : Rest wrappers around o low current located groups cs blocks)
    (hle : low' ≤ low) : Rest wrappers around o low' current located groups cs blocks :=
  ⟨h.groups, h.captures, h.within, h.before, h.blocks.mono hle⟩

/-- The capture of a parenthesis inside the groups `around`, if it captures. -/
def ownCapture (at_ : Nat) (around : List Nat) (more : List (Nat × Piece)) : List Capture :=
  if openerOf more = .capturing then [⟨at_, around⟩] else []

theorem eq_of_mem_ownCapture {at_ : Nat} {around : List Nat} {more : List (Nat × Piece)}
    {c : Capture} (hc : c ∈ ownCapture at_ around more) :
    c = ⟨at_, around⟩ ∧ openerOf more = .capturing := by
  by_cases hcap : openerOf more = .capturing
  · exact ⟨by simpa [ownCapture, hcap] using hc, hcap⟩
  · simp [ownCapture, hcap] at hc

theorem length_ownCapture (at_ : Nat) (around : List Nat) (more : List (Nat × Piece)) :
    (ownCapture at_ around more).length = if openerOf more = .capturing then 1 else 0 := by
  unfold ownCapture
  split <;> rfl

/-- A parenthesis outside all groups starts a block: its own capture, if it is one, and the captures
    inside it. -/
theorem Rest.block {wrappers : List Nat} {at_ : Nat} {more : List (Nat × Piece)}
    {groups : List TopGroup} {cs : List Capture} {blocks : List Block}
    (hplain : Plain wrappers ((at_, .opening) :: more))
    (h : Rest wrappers [at_] at_ (at_ + 1)
      ⟨if at_ ∈ wrappers then .named else openerOf more,
        if (if at_ ∈ wrappers then Opener.named else openerOf more) = .capturing then 1 else 0⟩
      more groups cs blocks) :
    groups = (⟨at_, openerOf more, ownCapture at_ [] more ++ cs⟩ :: blocks).map
        (Block.group wrappers) ∧
      capturesFrom [] ((at_, .opening) :: more) =
        (⟨at_, openerOf more, ownCapture at_ [] more ++ cs⟩ :: blocks).flatMap Block.captures ∧
      Blocks wrappers at_ (⟨at_, openerOf more, ownCapture at_ [] more ++ cs⟩ :: blocks) := by
  refine ⟨?_, ?_, ?_, ?_, ?_, ?_⟩
  · have hown : (ownCapture at_ [] more).length =
        if (if at_ ∈ wrappers then Opener.named else openerOf more) = .capturing then 1 else 0 := by
      rw [length_ownCapture]
      by_cases hw : at_ ∈ wrappers
      · simp [hw, hplain [] at_ more rfl hw]
      · simp [hw]
    rw [h.groups, List.map_cons]
    simp [Block.group, hown]
  · rw [capturesFrom, h.captures, List.flatMap_cons, List.append_assoc]
    rfl
  · intro b hb
    rcases List.mem_cons.mp hb with rfl | hb
    · intro c hc
      rcases List.mem_append.mp hc with hc | hc
      · exact Or.inr (eq_of_mem_ownCapture hc)
      · exact Or.inl (h.within c hc)
    · exact h.blocks.holds b hb
  · refine List.pairwise_cons.mpr ⟨?_, h.blocks.before⟩
    intro b hb
    refine ⟨h.blocks.low b hb, ?_⟩
    intro c hc
    rcases List.mem_append.mp hc with hc | hc
    · rw [(eq_of_mem_ownCapture hc).1]
      exact h.blocks.low b hb
    · exact h.before c hc b hb
  · intro b hb
    rcases List.mem_cons.mp hb with rfl | hb
    · exact Nat.le_refl _
    · have := h.blocks.low b hb
      omega
  · intro b hb
    rcases List.mem_cons.mp hb with rfl | hb
    · exact ⟨openerOf_ne_named more, hplain [] at_ more rfl⟩
    · exact h.blocks.opener b hb

/-- A parenthesis inside the groups `around` adds its own capture to their block. -/
theorem Rest.opening {wrappers around : List Nat} {o at_ : Nat} {current : TopGroup}
    {more : List (Nat × Piece)} {groups : List TopGroup} {cs : List Capture} {blocks : List Block}
    (ho : o ∈ around) (hbounds : ∀ x ∈ around, o ≤ x ∧ x < at_)
    (h : Rest wrappers (at_ :: around) o (at_ + 1)
      { current with captures :=
          if openerOf more = .capturing then current.captures + 1 else current.captures }
      more groups cs blocks) :
    Rest wrappers around o at_ current ((at_, .opening) :: more) groups
      (ownCapture at_ around more ++ cs) blocks := by
  refine ⟨?_, ?_, ?_, ?_, h.blocks.mono (by omega)⟩
  · rw [h.groups, List.length_append, length_ownCapture]
    split
    · rw [Nat.add_assoc]
    · rw [Nat.zero_add]
  · rw [capturesFrom, h.captures, List.append_assoc]
    rfl
  · intro c hc
    rcases List.mem_append.mp hc with hc | hc
    · rw [(eq_of_mem_ownCapture hc).1]
      exact ⟨ho, hbounds⟩
    · exact h.within c hc
  · intro c hc b hb
    rcases List.mem_append.mp hc with hc | hc
    · rw [(eq_of_mem_ownCapture hc).1]
      exact h.blocks.low b hb
    · exact h.before c hc b hb

/-- The groups that are counted are blocks of the captures: from outside all groups, and from inside
    the groups `around`. -/
theorem topGroupsFrom_blocks (wrappers : List Nat) (located : List (Nat × Piece)) :
    (∀ low current groups, Ascending low located → Plain wrappers located →
      topGroupsFrom wrappers 0 current located = some groups →
      ∃ blocks, groups = blocks.map (Block.group wrappers) ∧
        capturesFrom [] located = blocks.flatMap Block.captures ∧ Blocks wrappers low blocks) ∧
    (∀ around o low current groups, around.getLast? = some o →
      (∀ x ∈ around, o ≤ x ∧ x < low) → Ascending low located → Plain wrappers located →
      topGroupsFrom wrappers around.length current located = some groups →
      ∃ cs blocks, Rest wrappers around o low current located groups cs blocks) := by
  induction located with
  | nil =>
    constructor
    · intro low current groups _ _ h
      simp only [topGroupsFrom, if_true, Option.some.injEq] at h
      subst h
      exact ⟨[], rfl, rfl, by simp, .nil, by simp, by simp⟩
    · intro around o low current groups hlast _ _ _ h
      have : around.length ≠ 0 := by
        intro hlen
        rw [List.length_eq_zero_iff.mp hlen] at hlast
        cases hlast
      simp [topGroupsFrom, this] at h
  | cons e more ih =>
    obtain ⟨ihout, ihin⟩ := ih
    obtain ⟨at_, p⟩ := e
    constructor
    · intro low current groups hasc hplain h
      obtain ⟨hlow, hmore⟩ := hasc
      by_cases hopen : p = .opening
      · subst hopen
        simp only [topGroupsFrom, if_true] at h
        obtain ⟨cs, blocks, hrest⟩ := ihin [at_] at_ (at_ + 1) _ groups rfl (by simp) hmore
          hplain.tail h
        obtain ⟨h1, h2, h3⟩ := hrest.block hplain
        exact ⟨_, h1, h2, h3.mono hlow⟩
      · by_cases hclose : p = .closing
        · subst hclose
          simp [topGroupsFrom] at h
        · rw [topGroupsFrom_skip _ _ _ _ hopen hclose] at h
          obtain ⟨blocks, h1, h2, h3⟩ := ihout _ _ _ hmore hplain.tail h
          rw [capturesFrom_skip _ _ hopen hclose]
          exact ⟨blocks, h1, h2, h3.mono (by omega)⟩
    · intro around o low current groups hlast hbounds hasc hplain h
      obtain ⟨hlow, hmore⟩ := hasc
      have ho : o ∈ around := List.mem_of_getLast? hlast
      have hbounds' : ∀ x ∈ around, o ≤ x ∧ x < at_ := by
        intro x hx
        have := hbounds x hx
        omega
      have hlater : ∀ x ∈ at_ :: around, o ≤ x ∧ x < at_ + 1 := by
        intro x hx
        rcases List.mem_cons.mp hx with rfl | hx
        · have := hbounds o ho
          omega
        · have := hbounds x hx
          omega
      by_cases hopen : p = .opening
      · subst hopen
        have hne : around.length ≠ 0 := by
          have := List.length_pos_of_mem ho
          omega
        simp only [topGroupsFrom, if_neg hne] at h
        obtain ⟨cs, blocks, hrest⟩ := ihin (at_ :: around) o (at_ + 1) _ groups
          (by rw [List.getLast?_cons, hlast]; rfl) hlater hmore hplain.tail h
        exact ⟨_, blocks, (hrest.opening ho hbounds').mono hlow⟩
      · by_cases hclose : p = .closing
        · subst hclose
          match around with
          | [] => cases hlast
          | [x] =>
            simp only [List.length_singleton, topGroupsFrom, Option.map_eq_some_iff] at h
            obtain ⟨groups', h, rfl⟩ := h
            obtain ⟨blocks, h1, h2, h3⟩ := ihout _ _ _ hmore hplain.tail h
            exact ⟨[], blocks, by simp [h1], by simpa [capturesFrom] using h2, by simp, by simp,
              h3.mono (by omega)⟩
          | x :: y :: outer =>
            simp only [List.length_cons, topGroupsFrom] at h
            obtain ⟨cs, blocks, hrest⟩ := ihin (y :: outer) o (at_ + 1) _ groups
              (by rwa [List.getLast?_cons_cons] at hlast)
              (fun z hz => hlater z (List.mem_cons_of_mem _ (List.mem_cons_of_mem _ hz))) hmore
              hplain.tail h
            exact ⟨cs, blocks, hrest.groups, hrest.captures, hrest.within, hrest.before,
              hrest.blocks.mono (by omega)⟩
        · rw [topGroupsFrom_skip _ _ _ _ hopen hclose] at h
          obtain ⟨cs, blocks, hrest⟩ := ihin around o (at_ + 1) _ groups hlast
            (fun z hz => hlater z (List.mem_cons_of_mem _ hz)) hmore hplain.tail h
          refine ⟨cs, blocks, hrest.groups, ?_, hrest.within, hrest.before,
            hrest.blocks.mono (by omega)⟩
          rw [capturesFrom_skip _ _ hopen hclose]
          exact hrest.captures

/-! ### The slots of blocks -/

/-- The blocks of wrappers. -/
def namedBlocks (wrappers : List Nat) (blocks : List Block) : List Block :=
  blocks.filter fun b => b.offset ∈ wrappers

theorem namedBlocks_cons_of_mem {wrappers : List Nat} {b : Block} (h : b.offset ∈ wrappers)
    (blocks : List Block) : namedBlocks wrappers (b :: blocks) = b :: namedBlocks wrappers blocks := by
  simp [namedBlocks, h]

theorem namedBlocks_cons_of_not_mem {wrappers : List Nat} {b : Block} (h : b.offset ∉ wrappers)
    (blocks : List Block) : namedBlocks wrappers (b :: blocks) = namedBlocks wrappers blocks := by
  simp [namedBlocks, h]

theorem mem_of_mem_namedBlocks {wrappers : List Nat} {b : Block} {blocks : List Block}
    (h : b ∈ namedBlocks wrappers blocks) : b ∈ blocks ∧ b.offset ∈ wrappers := by
  simpa [namedBlocks] using h

theorem exists_of_map_eq_ok {ε α β : Type} {f : α → β} {x : Except ε α} {y : β}
    (h : x.map f = .ok y) : ∃ a, x = .ok a ∧ f a = y := by
  cases x with
  | error e => cases h
  | ok a =>
    simp only [Except.map, Except.ok.injEq] at h
    exact ⟨a, rfl, h⟩

/-- The slots of a block that is no wrapper are anonymous. -/
theorem slotsOf_cons_of_not_mem {wrappers : List Nat} {b : Block} (h : b.offset ∉ wrappers)
    (hopener : b.opener ≠ .named) (groups : List TopGroup) (keys : List Key) :
    slotsOf (b.group wrappers :: groups) keys =
      (slotsOf groups keys).map (List.replicate b.captures.length none ++ ·) := by
  rw [Block.group, if_neg h]
  cases hb : b.opener with
  | named => exact absurd hb hopener
  | capturing => cases keys <;> rfl
  | nonCapturing => cases keys <;> rfl

/-- The first slot of a wrapper is that of its parameter, and the others are anonymous. -/
theorem slotsOf_cons_of_mem {wrappers : List Nat} {b : Block} (h : b.offset ∈ wrappers)
    (groups : List TopGroup) (key : Key) (keys : List Key) :
    slotsOf (b.group wrappers :: groups) (key :: keys) =
      if b.captures.length = 0 then .error key
      else (slotsOf groups keys).map
        ((some key :: List.replicate (b.captures.length - 1) none) ++ ·) := by
  rw [Block.group, if_pos h]
  rfl

/-- A key for which there is no wrapper outside all groups is refused. -/
theorem length_le_of_slotsOf {wrappers : List Nat} {blocks : List Block} {keys : List Key}
    {slots : List Slot} (hopener : ∀ b ∈ blocks, b.opener ≠ .named)
    (h : slotsOf (blocks.map (Block.group wrappers)) keys = .ok slots) :
    keys.length ≤ (namedBlocks wrappers blocks).length := by
  induction blocks generalizing keys slots with
  | nil =>
    cases keys with
    | nil => exact Nat.le_refl 0
    | cons key keys => cases h
  | cons b blocks ih =>
    have hopener' : ∀ b ∈ blocks, b.opener ≠ .named :=
      fun b' hb' => hopener b' (List.mem_cons_of_mem _ hb')
    rw [List.map_cons] at h
    by_cases hb : b.offset ∈ wrappers
    · rw [namedBlocks_cons_of_mem hb, List.length_cons]
      cases keys with
      | nil => exact Nat.zero_le _
      | cons key keys =>
        rw [slotsOf_cons_of_mem hb] at h
        split at h
        · cases h
        · obtain ⟨slots', h', -⟩ := exists_of_map_eq_ok h
          have := ih hopener' h'
          rw [List.length_cons]
          omega
    · rw [slotsOf_cons_of_not_mem hb (hopener b List.mem_cons_self)] at h
      obtain ⟨slots', h', -⟩ := exists_of_map_eq_ok h
      rw [namedBlocks_cons_of_not_mem hb]
      exact ih hopener' h'

/-- If there are as many blocks of wrappers as wrappers, every wrapper has its block. -/
theorem map_offset_namedBlocks {wrappers : List Nat} {low : Nat} {blocks : List Block}
    (hblocks : Blocks wrappers low blocks) (hascending : wrappers.Pairwise (· < ·))
    (hlength : wrappers.length ≤ (namedBlocks wrappers blocks).length) :
    (namedBlocks wrappers blocks).map Block.offset = wrappers := by
  have hpairwise : ((namedBlocks wrappers blocks).map Block.offset).Pairwise (· < ·) := by
    rw [List.pairwise_map]
    exact (hblocks.before.imp fun h => h.offset).sublist List.filter_sublist
  have hsubset : (namedBlocks wrappers blocks).map Block.offset ⊆ wrappers := by
    intro w hw
    obtain ⟨b, hb, rfl⟩ := List.mem_map.mp hw
    exact (mem_of_mem_namedBlocks hb).2
  have hnodup : ((namedBlocks wrappers blocks).map Block.offset).Nodup :=
    hpairwise.imp Nat.ne_of_lt
  have hperm := (List.subperm_of_subset hnodup hsubset).perm_of_length_le
    (by rwa [List.length_map])
  refine hperm.eq_of_pairwise ?_ hpairwise hascending
  intro x y _ _ hxy hyx
  omega

/-! ### Alignment -/

/-- Slots that go with captures: as many, the key of each wrapper at the first capture inside it,
    nothing at any other capture, and the keys in the order of their wrappers. -/
structure Aligned (captures : List Capture) (named : List (Nat × Key)) (slots : List Slot) :
    Prop where
  length : slots.length = captures.length
  slot : ∀ i key, slots[i]? = some (some key) ↔
    ∃ w, (w, key) ∈ named ∧ firstInside captures w = some i
  first : ∀ e ∈ named, (firstInside captures e.1).isSome
  keys : slots.filterMap id = named.map Prod.snd

theorem firstInside_append_of_not_mem {a b : List Capture} {w : Nat}
    (h : ∀ c ∈ a, w ∉ c.around) :
    firstInside (a ++ b) w = (firstInside b w).map (· + a.length) := by
  have hnone : a.findIdx? (fun c => decide (w ∈ c.around)) = none := by
    rw [List.findIdx?_eq_none_iff]
    intro c hc
    simpa using h c hc
  unfold firstInside
  rw [List.findIdx?_append, hnone, Option.none_or]

theorem firstInside_cons_of_mem {c : Capture} {w : Nat} (h : w ∈ c.around) (cs : List Capture) :
    firstInside (c :: cs) w = some 0 := by
  simp [firstInside, List.findIdx?_cons, h]

theorem getElem?_anonymous (n : Nat) (slots : List Slot) (i : Nat) (key : Key) :
    (List.replicate n none ++ slots)[i]? = some (some key) ↔
      ∃ j, slots[j]? = some (some key) ∧ j + n = i := by
  by_cases hi : i < n
  · rw [List.getElem?_append_left (by simpa using hi), List.getElem?_replicate_of_lt hi]
    constructor
    · intro h
      cases h
    · rintro ⟨j, -, rfl⟩
      omega
  · rw [List.getElem?_append_right (by simpa using hi), List.length_replicate]
    constructor
    · intro h
      exact ⟨i - n, h, by omega⟩
    · rintro ⟨j, h, rfl⟩
      rwa [Nat.add_sub_cancel]

theorem filterMap_anonymous (n : Nat) (slots : List Slot) :
    (List.replicate n none ++ slots).filterMap id = slots.filterMap id := by
  rw [List.filterMap_append, List.filterMap_replicate_of_none rfl, List.nil_append]

/-- Captures outside all wrappers get anonymous slots. -/
theorem Aligned.anonymous {captures : List Capture} {named : List (Nat × Key)} {slots : List Slot}
    (h : Aligned captures named slots) {own : List Capture}
    (hown : ∀ e ∈ named, ∀ c ∈ own, e.1 ∉ c.around) :
    Aligned (own ++ captures) named (List.replicate own.length none ++ slots) := by
  refine ⟨by simp [h.length], ?_, ?_, ?_⟩
  · intro i key
    rw [getElem?_anonymous]
    constructor
    · rintro ⟨j, hj, rfl⟩
      obtain ⟨w, hw, hfirst⟩ := (h.slot j key).mp hj
      refine ⟨w, hw, ?_⟩
      rw [firstInside_append_of_not_mem (hown _ hw), hfirst]
      rfl
    · rintro ⟨w, hw, hfirst⟩
      rw [firstInside_append_of_not_mem (hown _ hw), Option.map_eq_some_iff] at hfirst
      obtain ⟨j, hj, hji⟩ := hfirst
      exact ⟨j, (h.slot j key).mpr ⟨w, hw, hj⟩, hji⟩
  · intro e he
    rw [firstInside_append_of_not_mem (hown e he), Option.isSome_map]
    exact h.first e he
  · rw [filterMap_anonymous, h.keys]

/-- The captures of a wrapper get its key and then anonymous slots. -/
theorem Aligned.named {captures : List Capture} {named : List (Nat × Key)} {slots : List Slot}
    (h : Aligned captures named slots) {c : Capture} {own : List Capture} {w : Nat} (key : Key)
    (hw : w ∈ c.around) (hown : ∀ e ∈ named, ∀ c' ∈ c :: own, e.1 ∉ c'.around) :
    Aligned (c :: own ++ captures) ((w, key) :: named)
      (some key :: List.replicate own.length none ++ slots) := by
  have hself : firstInside (c :: own ++ captures) w = some 0 := firstInside_cons_of_mem hw _
  have hslot : ∀ i key', (some key :: List.replicate own.length none ++ slots)[i]? =
      some (some key') ↔ (i = 0 ∧ key' = key) ∨
        ∃ j, slots[j]? = some (some key') ∧ j + (own.length + 1) = i := by
    intro i key'
    cases i with
    | zero =>
      rw [List.cons_append, List.getElem?_cons_zero, Option.some.injEq, Option.some.injEq]
      constructor
      · intro heq
        exact Or.inl ⟨rfl, heq.symm⟩
      · rintro (⟨-, heq⟩ | ⟨j, -, hj⟩)
        · exact heq.symm
        · omega
    | succ i =>
      rw [List.cons_append, List.getElem?_cons_succ, getElem?_anonymous]
      constructor
      · rintro ⟨j, hj, rfl⟩
        exact Or.inr ⟨j, hj, by omega⟩
      · rintro (⟨hi, -⟩ | ⟨j, hj, hi⟩)
        · omega
        · exact ⟨j, hj, by omega⟩
  refine ⟨by simp [h.length], ?_, ?_, ?_⟩
  · intro i key'
    rw [hslot]
    constructor
    · rintro (⟨rfl, rfl⟩ | ⟨j, hj, rfl⟩)
      · exact ⟨w, List.mem_cons_self, hself⟩
      · obtain ⟨w', hw', hfirst⟩ := (h.slot j key').mp hj
        refine ⟨w', List.mem_cons_of_mem _ hw', ?_⟩
        rw [firstInside_append_of_not_mem (hown _ hw'), hfirst]
        rfl
    · rintro ⟨w', hw', hfirst⟩
      rcases List.mem_cons.mp hw' with heq | hw'
      · simp only [Prod.mk.injEq] at heq
        obtain ⟨rfl, rfl⟩ := heq
        rw [hself, Option.some.injEq] at hfirst
        exact Or.inl ⟨hfirst.symm, rfl⟩
      · rw [firstInside_append_of_not_mem (hown _ hw'), Option.map_eq_some_iff] at hfirst
        obtain ⟨j, hj, hji⟩ := hfirst
        exact Or.inr ⟨j, (h.slot j key').mpr ⟨w', hw', hj⟩, hji⟩
  · intro e he
    rcases List.mem_cons.mp he with rfl | he
    · rw [hself]
      rfl
    · rw [firstInside_append_of_not_mem (hown e he), Option.isSome_map]
      exact h.first e he
  · have hid : id (some key) = some key := rfl
    rw [List.cons_append, List.filterMap_cons_some hid, filterMap_anonymous, h.keys, List.map_cons]

/-- No capture of a block is inside a group that opens after the block. -/
theorem Block.Before.not_mem_around {b b' : Block} (hb : b.Holds) (h : b.Before b') :
    ∀ c ∈ b.captures, b'.offset ∉ c.around := by
  intro c hc hmem
  rcases hb c hc with hwithin | ⟨rfl, -⟩
  · have h1 := (hwithin.bounds _ hmem).2
    have h2 := h.captures c hc
    omega
  · cases hmem

/-- **The slots of blocks are aligned with their captures**, if there is a wrapper for each key. -/
theorem aligned_of_slotsOf {wrappers : List Nat} {low : Nat} {blocks : List Block}
    {keys : List Key} {slots : List Slot} (hblocks : Blocks wrappers low blocks)
    (hlength : (namedBlocks wrappers blocks).length = keys.length)
    (h : slotsOf (blocks.map (Block.group wrappers)) keys = .ok slots) :
    Aligned (blocks.flatMap Block.captures)
      (((namedBlocks wrappers blocks).map Block.offset).zip keys) slots := by
  induction blocks generalizing keys slots with
  | nil =>
    cases keys with
    | nil =>
      simp only [List.map_nil, slotsOf, Except.ok.injEq] at h
      subst h
      exact ⟨rfl, by simp [namedBlocks], by simp [namedBlocks], rfl⟩
    | cons key keys => cases h
  | cons b blocks ih =>
    rw [List.map_cons] at h
    have hbefore := (List.pairwise_cons.mp hblocks.before).1
    have hholds := hblocks.holds b List.mem_cons_self
    have hopener := hblocks.opener b List.mem_cons_self
    have hown : ∀ keys' : List Key, ∀ e ∈ ((namedBlocks wrappers blocks).map Block.offset).zip keys',
        ∀ c ∈ b.captures, e.1 ∉ c.around := by
      intro keys' e he
      obtain ⟨b', hb', hb'e⟩ := List.mem_map.mp (List.of_mem_zip he).1
      rw [← hb'e]
      exact (hbefore b' (mem_of_mem_namedBlocks hb').1).not_mem_around hholds
    by_cases hb : b.offset ∈ wrappers
    · rw [namedBlocks_cons_of_mem hb] at hlength ⊢
      cases keys with
      | nil => cases hlength
      | cons key keys =>
        rw [slotsOf_cons_of_mem hb] at h
        split at h
        · cases h
        · next hcaptures =>
          obtain ⟨slots', h', rfl⟩ := exists_of_map_eq_ok h
          have haligned := ih hblocks.tail (by simpa using hlength) h'
          obtain ⟨c, own, hcs⟩ := List.exists_cons_of_length_pos (Nat.pos_of_ne_zero hcaptures)
          have hc : c ∈ b.captures := by
            rw [hcs]
            exact List.mem_cons_self
          have hinside : b.offset ∈ c.around := by
            rcases hholds c hc with hwithin | ⟨-, hcap⟩
            · exact hwithin.inside
            · exact absurd hcap (hopener.2 hb)
          rw [List.flatMap_cons, hcs]
          exact haligned.named key hinside (hcs ▸ hown keys)
    · rw [slotsOf_cons_of_not_mem hb hopener.1] at h
      obtain ⟨slots', h', rfl⟩ := exists_of_map_eq_ok h
      rw [namedBlocks_cons_of_not_mem hb] at hlength ⊢
      rw [List.flatMap_cons]
      exact (ih hblocks.tail hlength h').anonymous (hown keys)

end RequestRouter.Spec
