/-
  RequestRouter/Proofs/Spec/Alignment.lean
  ========================================
  **Every accepted spec has its slots aligned with its captures.**

  The offsets of the wrappers are taken in the substituted text and looked up in the pattern, after
  dots and stars before them have been lengthened.  Both texts are followed piece by piece: the
  parenthesis of a wrapper is a piece of the substituted text (`opening_of_wrapper`), its offset is
  moved with that piece (`spellFrom_locate`), and in the pattern it still opens a group that captures
  nothing by itself.  What is left is counting, which is done for blocks in
  `RequestRouter.Proofs.Spec.Captures`.
-/
import RequestRouter.Proofs.Spec.Captures
import RequestRouter.Proofs.Spec.Rewriting
import RequestRouter.Proofs.Spec.Substitution

namespace RequestRouter.Spec

open RequestRouter.Text

/-! ### Places of standing pieces -/

theorem Standing.of_append {a b : List Piece} (h : Standing (a ++ b)) : Standing b := by
  induction a with
  | nil => exact h
  | cons p a ih => exact ih h.tail

theorem Standing.utf8Length_pos {p : Piece} {ps : List Piece} (h : Standing (p :: ps)) :
    0 < utf8Length p.text :=
  Spec.utf8Length_pos (Piece.text_ne_nil h)

/-- Standing pieces follow one another. -/
theorem Standing.ascending_locate {ps : List Piece} (h : Standing ps) {low offset : Nat}
    (hle : low ≤ offset) : Ascending low (locate offset ps) := by
  induction ps generalizing low offset with
  | nil => trivial
  | cons p ps ih =>
    have hpos := h.utf8Length_pos
    exact ⟨hle, ih h.tail (by omega)⟩

/-- Of two places of a text, one comes first. -/
theorem Standing.append_cases {ps a b a' b' : List Piece} (h : Standing ps) (hab : ps = a ++ b)
    (hab' : ps = a' ++ b') (hle : utf8Length (textOf a) ≤ utf8Length (textOf a')) :
    ∃ e, a' = a ++ e ∧ b = e ++ b' := by
  rcases List.append_eq_append_iff.mp (hab.symm.trans hab') with ⟨e, rfl, rfl⟩ | ⟨e, rfl, rfl⟩
  · exact ⟨e, rfl, rfl⟩
  · cases e with
    | nil => exact ⟨[], by simp, by simp⟩
    | cons p e =>
      have hstanding : Standing (p :: (e ++ b)) := by
        rw [hab'] at h
        exact h.of_append
      have hpos := hstanding.utf8Length_pos
      rw [textOf_append, textOf_cons, utf8Length_append, utf8Length_append] at hle
      omega

/-- A place of a text is known by the octets before it. -/
theorem Standing.eq_of_utf8Length {ps a b a' b' : List Piece} (h : Standing ps)
    (hab : ps = a ++ b) (hab' : ps = a' ++ b')
    (hlen : utf8Length (textOf a) = utf8Length (textOf a')) : a = a' ∧ b = b' := by
  obtain ⟨e, rfl, rfl⟩ := h.append_cases hab hab' (Nat.le_of_eq hlen)
  cases e with
  | nil => exact ⟨by simp, by simp⟩
  | cons p e =>
    have hstanding : Standing (p :: (e ++ b')) := by
      rw [hab] at h
      exact h.of_append
    have hpos := hstanding.utf8Length_pos
    rw [textOf_append, textOf_cons, utf8Length_append, utf8Length_append] at hlen
    omega

theorem locate_eq_append {offset : Nat} {ps : List Piece} {front back : List (Nat × Piece)}
    (h : locate offset ps = front ++ back) :
    ∃ a b, ps = a ++ b ∧ front = locate offset a ∧
      back = locate (offset + utf8Length (textOf a)) b := by
  induction front generalizing offset ps with
  | nil => exact ⟨[], ps, rfl, rfl, h.symm⟩
  | cons e front ih =>
    cases ps with
    | nil => cases h
    | cons p ps =>
      rw [locate_cons, List.cons_append, List.cons.injEq] at h
      obtain ⟨rfl, h⟩ := h
      obtain ⟨a, b, rfl, rfl, rfl⟩ := ih h
      exact ⟨p :: a, b, rfl, rfl, by simp [Nat.add_assoc]⟩

/-! ### Wrappers in the pattern -/

/-- The parenthesis of a wrapper among pieces. -/
def OpensWrapper (ps : List Piece) (w : Nat) : Prop :=
  ∃ a b, ps = a ++ .opening :: .char '?' :: .char ':' :: b ∧ w = utf8Length (textOf a)

/-- Rewriting keeps the parenthesis of a wrapper and the marks after it. -/
theorem rewritten_wrapper (a b : List Piece) :
    rewritten 0 (a ++ .opening :: .char '?' :: .char ':' :: b) =
      rewritten 0 a ++ .opening :: .char '?' :: .char ':' ::
        rewritten (depthAfter 0 a + 1) b := by
  rw [rewritten_append]
  simp [Piece.depthAfter]

/-- A wrapper captures nothing by itself. -/
theorem plain_of_opensWrapper {ps : List Piece} (h : Standing ps) {wrappers : List Nat}
    (hw : ∀ w ∈ wrappers, OpensWrapper ps w) : Plain wrappers (locate 0 ps) := by
  intro front at_ back hsplit hat
  obtain ⟨a, b, hab, rfl, hback⟩ := locate_eq_append hsplit
  cases b with
  | nil => cases hback
  | cons p b =>
    rw [locate_cons, List.cons.injEq, Prod.mk.injEq, Nat.zero_add] at hback
    obtain ⟨⟨rfl, rfl⟩, rfl⟩ := hback
    obtain ⟨a', b', hab', hlen⟩ := hw _ hat
    obtain ⟨-, hb⟩ := h.eq_of_utf8Length hab hab' hlen
    rw [List.cons.injEq] at hb
    obtain ⟨-, rfl⟩ := hb
    simp [openerOf]

/-- Parentheses keep their order. -/
theorem SameOpening.lt {ps : List Piece} (h : Standing ps) {x y x' y' : Nat}
    (hxy : SameOpening 0 0 0 ps x y) (hxy' : SameOpening 0 0 0 ps x' y') (hlt : x < x') :
    y < y' := by
  obtain ⟨a, b, hab, rfl, rfl⟩ := hxy
  obtain ⟨a', b', hab', rfl, rfl⟩ := hxy'
  obtain ⟨e, rfl, he⟩ := h.append_cases hab hab' (by omega)
  cases e with
  | nil => simp at hlt
  | cons p e =>
    rw [List.cons_append, List.cons.injEq] at he
    obtain ⟨rfl, -⟩ := he
    rw [rewritten_append, textOf_append, utf8Length_append, rewritten_cons,
      Piece.rewritten_opening, textOf_append, utf8Length_append]
    have : utf8Length (textOf [.opening]) = 1 := rfl
    omega

/-- What an offset has been moved to. -/
theorem Moved.getElem? {ps : List Piece} {xs ys : List Nat} (h : Moved 0 0 0 ps xs ys) {n x : Nat}
    (hx : xs[n]? = some x) : ∃ y, ys[n]? = some y ∧ SameOpening 0 0 0 ps x y := by
  obtain ⟨hn, rfl⟩ := List.getElem?_eq_some_iff.mp hx
  have hn' : n < ys.length := by
    rw [← List.Forall₂.length_eq h]
    exact hn
  exact ⟨ys[n], List.getElem?_eq_getElem hn', List.Forall₂.get h hn hn'⟩

/-- What has been moved to an offset. -/
theorem Moved.exists_of_mem {ps : List Piece} {xs ys : List Nat} (h : Moved 0 0 0 ps xs ys)
    {y : Nat} (hy : y ∈ ys) : ∃ x ∈ xs, SameOpening 0 0 0 ps x y := by
  obtain ⟨n, hn, rfl⟩ := List.getElem_of_mem hy
  have hn' : n < xs.length := by
    rw [List.Forall₂.length_eq h]
    exact hn
  exact ⟨xs[n], List.getElem_mem hn', List.Forall₂.get h hn' hn⟩

theorem Moved.pairwise {ps : List Piece} (h : Standing ps) {xs ys : List Nat}
    (hmoved : Moved 0 0 0 ps xs ys) (hxs : xs.Pairwise (· < ·)) : ys.Pairwise (· < ·) := by
  induction hmoved with
  | nil => exact .nil
  | cons hxy hmore ih =>
    rw [List.pairwise_cons] at hxs
    refine List.pairwise_cons.mpr ⟨?_, ih hxs.2⟩
    intro y' hy'
    obtain ⟨x', hx', hxy'⟩ := Moved.exists_of_mem hmore hy'
    exact hxy.lt h hxy' (hxs.1 x' hx')

/-! ### Accepted specs -/

/-- The text that a spec is read as. -/
def textFor (options : CompileOptions) (spec : List Char) : List Char :=
  if options.strict then spec else withOptionalSlash spec

/-- A spec is accepted after all of its passes. -/
theorem compile_eq_ok {options : CompileOptions} {spec : List Char} {source : Source}
    (h : compile options spec = .ok source) :
    ∃ parts wrappers, substitute (textFor options spec) = some parts ∧
      spell (parts.flatMap Part.text) (wrapperOffsets 0 parts) = some (source.pattern, wrappers) ∧
      assignSlots spec source.pattern (parts.filterMap Part.key?) wrappers = .ok source.slots := by
  have htext : (if options.strict then spec else withOptionalSlash spec) = textFor options spec := rfl
  rw [compile, htext] at h
  split at h
  · cases h
  · next parts hparts =>
    simp only at h
    split at h
    · cases h
    · next pattern wrappers hspell =>
      split at h
      · next slots hslots =>
        rw [Except.ok.injEq] at h
        subst h
        exact ⟨parts, wrappers, hparts, hspell, hslots⟩
      · cases h

/-- The wrappers of an accepted spec are where the pattern has them. -/
theorem opensWrapper_of_moved {text : List Char} {parts : List Part} {ps : List Piece}
    {wrappers : List Nat} (hparts : substitute text = some parts) (hstanding : Standing ps)
    (hps : textOf ps = parts.flatMap Part.text)
    (hmoved : Moved 0 0 0 ps (wrapperOffsets 0 parts) wrappers) :
    ∀ w ∈ wrappers, OpensWrapper (rewritten 0 ps) w := by
  intro w hw
  obtain ⟨x, hx, hsame⟩ := hmoved.exists_of_mem hw
  obtain ⟨front, key, before, inside, back, hsplit, rfl⟩ := exists_of_mem_wrapperOffsets hx
  obtain ⟨a, b, hab, hlen, rfl⟩ := hsame
  obtain ⟨a', b', hab', htext⟩ := opening_of_wrapper hparts hsplit hstanding hps
  obtain ⟨rfl, -⟩ := hstanding.eq_of_utf8Length hab hab' (by rw [htext]; omega)
  refine ⟨rewritten 0 a, rewritten (depthAfter 0 a + 1) b', ?_, by omega⟩
  rw [hab', rewritten_wrapper]

/-- Every recorded offset is that of a parenthesis. -/
theorem isOpening_of_substitute {text : List Char} {parts : List Part} {ps : List Piece}
    (hparts : substitute text = some parts) (hstanding : Standing ps)
    (hps : textOf ps = parts.flatMap Part.text) :
    ∀ x ∈ wrapperOffsets 0 parts, IsOpening 0 ps x := by
  intro x hx
  obtain ⟨front, key, before, inside, back, hsplit, rfl⟩ := exists_of_mem_wrapperOffsets hx
  obtain ⟨a, b, hab, htext⟩ := opening_of_wrapper hparts hsplit hstanding hps
  exact ⟨a, _, hab, by rw [htext]⟩

/-- **The slots of an accepted spec are aligned with the captures of its pattern.**  The pattern is
    the substituted text with dots and stars outside groups rewritten.  Each wrapper that substitution
    has written, after the parts `front`, opens in the pattern behind what has become of the pieces
    before it, and its key stands there in `named`.  Slots and captures go together as `Aligned` says:
    one slot for each capture, the keys at the first captures inside their wrappers. -/
theorem slots_aligned {options : CompileOptions} {spec : List Char} {source : Source}
    (h : compile options spec = .ok source) :
    ∃ parts ps named,
      substitute (textFor options spec) = some parts ∧
      pieces (parts.flatMap Part.text) = some (locate 0 ps) ∧
      pieces source.pattern = some (locate 0 (rewritten 0 ps)) ∧
      (∀ front key before inside back, parts = front ++ .wrapper key before inside :: back →
        ∃ a b, ps = a ++ .opening :: .char '?' :: .char ':' :: b ∧
          textOf a = front.flatMap Part.text ++ before ∧
          rewritten 0 ps = rewritten 0 a ++ .opening :: .char '?' :: .char ':' ::
            rewritten (depthAfter 0 a + 1) b ∧
          named[(front.filterMap Part.key?).length]? =
            some (utf8Length (textOf (rewritten 0 a)), key)) ∧
      named.map Prod.snd = parts.filterMap Part.key? ∧
      Aligned (capturesFrom [] (locate 0 (rewritten 0 ps))) named source.slots := by
  obtain ⟨parts, wrappers, hparts, hspell, hslots⟩ := compile_eq_ok h
  simp only [spell, Option.map_eq_some_iff] at hspell
  obtain ⟨located, hlocated, hspell⟩ := hspell
  obtain ⟨ps, hstanding, hps, rfl⟩ := pieces_eq_some_iff.mp hlocated
  -- Every recorded offset is that of a parenthesis, so rewriting moves them all.
  obtain ⟨hpattern, hmoved⟩ := spellFrom_locate ps 0 0 0 _
    (isOpening_of_substitute hparts hstanding hps) (pairwise_wrapperOffsets 0 parts)
  rw [hspell] at hpattern hmoved
  dsimp only at hpattern hmoved
  have hpieces : pieces source.pattern = some (locate 0 (rewritten 0 ps)) := by
    rw [hpattern]
    exact piecesFrom_textOf (hstanding.rewritten 0) 0
  -- The groups that are counted are blocks, one for each wrapper.
  rw [assignSlots, hpieces, Option.bind_some] at hslots
  split at hslots
  · cases hslots
  · next groups hgroups =>
    split at hslots
    · next slots hslots' =>
      rw [Except.ok.injEq] at hslots
      subst hslots
      have hascending := (hstanding.rewritten 0).ascending_locate (Nat.le_refl 0)
      have hplain := plain_of_opensWrapper (hstanding.rewritten 0)
        (opensWrapper_of_moved hparts hstanding hps hmoved)
      obtain ⟨blocks, rfl, hcaptures, hblocks⟩ :=
        (topGroupsFrom_blocks wrappers _).1 0 _ _ hascending hplain hgroups
      have hlength : wrappers.length = (parts.filterMap Part.key?).length := by
        rw [← List.Forall₂.length_eq hmoved, length_wrapperOffsets]
      have hkeys := length_le_of_slotsOf (fun b hb => (hblocks.opener b hb).1) hslots'
      have hnamed := map_offset_namedBlocks hblocks (hmoved.pairwise hstanding
        (pairwise_wrapperOffsets 0 parts)) (by omega)
      have hcount : (namedBlocks wrappers blocks).length = wrappers.length := by
        rw [← List.length_map Block.offset, hnamed]
      have haligned := aligned_of_slotsOf hblocks (hcount.trans hlength) hslots'
      rw [hnamed, ← hcaptures] at haligned
      refine ⟨parts, ps, wrappers.zip (parts.filterMap Part.key?), hparts, hlocated, hpieces, ?_,
        List.map_snd_zip (by omega), haligned⟩
      intro front key before inside back hsplit
      obtain ⟨a, b, hab, htext⟩ := opening_of_wrapper hparts hsplit hstanding hps
      obtain ⟨w, hw, a', b', hab', hlen, rfl⟩ := hmoved.getElem? (getElem?_wrapperOffsets hsplit)
      obtain ⟨rfl, -⟩ := hstanding.eq_of_utf8Length hab hab' (by rw [htext]; omega)
      refine ⟨a, b, hab, htext, by rw [hab, rewritten_wrapper], ?_⟩
      have hkey : (parts.filterMap Part.key?)[(front.filterMap Part.key?).length]? = some key := by
        rw [hsplit, List.filterMap_append, List.getElem?_append_right (Nat.le_refl _), Nat.sub_self]
        rfl
      rw [List.getElem?_zip_eq_some]
      exact ⟨by rw [hw, Nat.zero_add], hkey⟩
    · cases hslots

/-- A dot before the wrappers, a group between them that no parameter owns. -/
theorem slots_aligned_dotted :
    ∃ source, compile { strict := true } "/a.b/:id(x|y)-(z).:ext".toList = .ok source ∧
      source.pattern = "/a\\.b/(?:(x|y))-(z)(?:\\.([^/.]+?))".toList ∧
      source.slots = [some ⟨"id", false⟩, none, some ⟨"ext", false⟩] ∧
      ∃ ps named, pieces source.pattern = some (locate 0 (rewritten 0 ps)) ∧
        Aligned (capturesFrom [] (locate 0 (rewritten 0 ps))) named source.slots := by
  have h : compile { strict := true } "/a.b/:id(x|y)-(z).:ext".toList =
      .ok ⟨"/a\\.b/(?:(x|y))-(z)(?:\\.([^/.]+?))".toList,
        [some ⟨"id", false⟩, none, some ⟨"ext", false⟩]⟩ := by decide
  obtain ⟨parts, ps, named, -, -, hpieces, -, -, haligned⟩ := slots_aligned h
  exact ⟨_, h, rfl, rfl, ps, named, hpieces, haligned⟩

end RequestRouter.Spec
