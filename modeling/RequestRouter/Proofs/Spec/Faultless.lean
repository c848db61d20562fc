/-
  RequestRouter/Proofs/Spec/Faultless.lean
  ========================================
  **Compiling a spec never goes wrong.**

  Every pass with its accesses checked gives what the pass on lists gives, for any text: truncated
  escapes, classes that never end, parentheses that close nothing.  One fact carries each pass.

  * An offset that a pass works with is the length of a text that stands in front (`located`), so it
    lies between two characters, and slices between two such offsets exist (`slice_eq_ok_iff`).
  * In the search for the end of a class at least one bracket is open whenever one is closed
    (`closingFrom_unread`).
  * The scan for tokens goes on behind what it has found, and substitution has copied up to a place
    that lies in what the scan has passed (`Reached`).
  * The walk over groups has an open group to count in whenever it is in one (`walkFrom_ok`).
-/
import RequestRouter.Proofs.Spec.Checked
import RequestRouter.Proofs.Spec.Element

namespace RequestRouter.Spec.Checked

open RequestRouter.Text

/-! ### Slices -/

theorem splitAt?_append (a b : List Char) : splitAt? (utf8Length a) (a ++ b) = some (a, b) := by
  induction a with
  | nil => rw [utf8Length_nil, List.nil_append, splitAt?]
  | cons c a ih =>
    obtain ⟨n, hn⟩ : ∃ n, c.utf8Size = n + 1 := ⟨c.utf8Size - 1, by have := c.utf8Size_pos; omega⟩
    have hlength : utf8Length (c :: a) = (n + utf8Length a) + 1 := by
      rw [utf8Length_cons, hn]
      omega
    have hrest : n + utf8Length a + 1 - c.utf8Size = utf8Length a := by omega
    rw [hlength, List.cons_append, splitAt?, if_pos (by omega), hrest, ih]
    rfl

theorem eq_of_splitAt? {n : Nat} {cs a b : List Char} (h : splitAt? n cs = some (a, b)) :
    cs = a ++ b ∧ n = utf8Length a := by
  induction cs generalizing n a with
  | nil =>
    cases n with
    | zero =>
      cases h
      exact ⟨rfl, rfl⟩
    | succ n => cases h
  | cons c cs ih =>
    cases n with
    | zero =>
      cases h
      exact ⟨rfl, rfl⟩
    | succ n =>
      rw [splitAt?] at h
      split at h
      · simp only [Option.map_eq_some_iff, Prod.mk.injEq, Prod.exists] at h
        obtain ⟨front, back, hsplit, rfl, rfl⟩ := h
        obtain ⟨rfl, hn⟩ := ih hsplit
        refine ⟨rfl, ?_⟩
        rw [utf8Length_cons]
        omega
      · cases h

/-- **The slices of a text** are those between two of its characters, the first not behind the
    second. -/
theorem slice_eq_ok_iff {text inside : List Char} {start stop : Nat} :
    slice text start stop = .ok inside ↔
      ∃ before after, text = before ++ inside ++ after ∧ start = utf8Length before ∧
        stop = utf8Length (before ++ inside) := by
  constructor
  · intro h
    rw [slice] at h
    split at h
    · cases h
    · split at h
      · cases h
      · next front back hstop =>
        split at h
        · cases h
        · next before _ hstart =>
          obtain ⟨rfl, hs⟩ := eq_of_splitAt? hstop
          obtain ⟨rfl, hb⟩ := eq_of_splitAt? hstart
          obtain rfl := Except.ok.inj h
          exact ⟨before, back, rfl, hb, hs⟩
  · rintro ⟨before, after, rfl, rfl, rfl⟩
    have hle : ¬ utf8Length (before ++ inside) < utf8Length before := by
      rw [utf8Length_append]
      omega
    rw [slice, if_neg hle, splitAt?_append]
    dsimp only
    rw [splitAt?_append]

/-- Within a character, behind the end, and from behind to the front there is none. -/
example : slice ['é'] 0 1 = .error (.offset 1) ∧ slice ['é'] 0 3 = .error (.offset 3) ∧
    slice ['é'] 2 0 = .error (.reversed 2 0) := by decide

/-- A text from an offset on. -/
theorem slice_back {text before back : List Char} {start stop : Nat} (h : text = before ++ back)
    (hstart : start = utf8Length before) (hstop : stop = utf8Length text) :
    slice text start stop = .ok back := by
  refine slice_eq_ok_iff.mpr ⟨before, [], ?_, hstart, ?_⟩
  · rw [h, List.append_nil]
  · rw [hstop, h]

/-! ### Classes -/

/-- What is left of a class to read: a caret or a bracket may be skipped. -/
def unread (scan : ClassScan) (cs : List (Nat × Char)) : List (Nat × Char) :=
  match scan with
  | .plain | .escaped => cs
  | .opened => skip ']' (skip '^' cs)
  | .caret => skip ']' cs

/-- The offset behind a class, by its length after its first character and before it. -/
theorem map_length_cons (start offset : Nat) (c : Char) (cs : List Char) (length : Option Nat) :
    (length.map (· + 1)).map (fun n => start + offset + utf8Length ((c :: cs).take n)) =
      length.map fun n => start + (offset + c.utf8Size) + utf8Length (cs.take n) := by
  cases length with
  | none => rfl
  | some n => simp [Nat.add_assoc]

/-- **The search for the end of a class finds its length**, and the brackets that are counted down
    are open. -/
theorem closingFrom_unread (start : Nat) (cs : List Char) {depth : Nat} (hdepth : 1 ≤ depth)
    (scan : ClassScan) (offset : Nat) :
    closingFrom start depth (scan = .escaped) (unread scan (located offset cs)) =
      .ok ((classLength depth scan cs).map fun n => start + offset + utf8Length (cs.take n)) := by
  induction cs generalizing depth scan offset with
  | nil =>
    have : unread scan (located offset []) = [] := by cases scan <;> rfl
    rw [this, closingFrom, classLength]
    rfl
  | cons c cs ih =>
    have hnext : ∀ {d}, 1 ≤ d → ∀ scan', closingFrom start d (scan' = .escaped)
        (unread scan' (located (offset + c.utf8Size) cs)) =
          .ok (((classLength d scan' cs).map (· + 1)).map
            fun n => start + offset + utf8Length ((c :: cs).take n)) := by
      intro d hd scan'
      rw [ih hd, map_length_cons]
    rw [located, classLength]
    by_cases hescaped : scan = .escaped
    · subst hescaped
      rw [if_pos rfl, ← hnext hdepth .plain]
      simp [unread, closingFrom]
    rw [if_neg hescaped]
    by_cases hcaret : scan = .opened ∧ c = '^'
    · obtain ⟨rfl, rfl⟩ := hcaret
      rw [if_pos ⟨rfl, rfl⟩, ← hnext hdepth .caret]
      simp [unread, skip]
    rw [if_neg hcaret]
    by_cases hbracket : (scan = .opened ∨ scan = .caret) ∧ c = ']'
    · obtain ⟨hscan, rfl⟩ := hbracket
      rw [if_pos ⟨hscan, rfl⟩, ← hnext hdepth .plain]
      rcases hscan with rfl | rfl <;> simp [unread, skip]
    rw [if_neg hbracket]
    -- Nothing is skipped.
    have hunread : ∀ rest, unread scan ((offset, c) :: rest) = (offset, c) :: rest := by
      intro rest
      cases scan with
      | plain => rfl
      | escaped => exact absurd rfl hescaped
      | opened =>
        simp only [true_and, true_or, reduceCtorEq] at hcaret hbracket
        simp [unread, skip, hcaret, hbracket]
      | caret =>
        simp only [true_and, or_true, reduceCtorEq] at hbracket
        simp [unread, skip, hbracket]
    have hplain : decide (scan = .escaped) = false := decide_eq_false hescaped
    rw [hunread, closingFrom, hplain, if_neg Bool.false_ne_true]
    split
    · exact (hnext hdepth .escaped).trans rfl
    · split
      · exact (hnext (Nat.le_succ_of_le hdepth) .opened).trans rfl
      · split
        · next hclosing =>
          subst hclosing
          obtain ⟨d, rfl⟩ : ∃ d, depth = d + 1 := ⟨depth - 1, by omega⟩
          rw [decrement]
          cases d with
          | zero => rfl
          | succ d =>
            dsimp only
            rw [if_neg (Nat.succ_ne_zero d), if_neg (by omega)]
            exact (hnext (by omega) .plain).trans rfl
        · exact (hnext hdepth .plain).trans rfl

/-- A class that starts at a place of the text ends behind its characters. -/
theorem classEnd_eq {source done body : List Char} (h : source = done ++ '[' :: body) :
    classEnd source (utf8Length done) =
      .ok ((classLength 1 .opened body).map fun n =>
        utf8Length done + utf8Length ('[' :: body.take n)) := by
  have hsize : '['.utf8Size = 1 := rfl
  rw [classEnd, slice_back h rfl rfl, ok_bind, located, closingFrom]
  exact (closingFrom_unread (utf8Length done) body (Nat.le_refl 1) .opened _).trans (by
    simp only [utf8Length_cons, hsize, Nat.zero_add, Nat.add_assoc])

/-! ### Pieces -/

/-- The characters from an offset on are those behind the characters before it. -/
theorem dropWhile_located (offset n : Nat) (cs : List Char) :
    (located offset cs).dropWhile (·.1 < offset + utf8Length (cs.take n)) =
      located (offset + utf8Length (cs.take n)) (cs.drop n) := by
  induction cs generalizing offset n with
  | nil => simp [located]
  | cons c cs ih =>
    cases n with
    | zero => simp [located]
    | succ n =>
      have hpos := c.utf8Size_pos
      have hlt : offset < offset + utf8Length ((c :: cs).take (n + 1)) := by
        rw [List.take_succ_cons, utf8Length_cons]
        omega
      rw [located, List.dropWhile_cons_of_pos (by simpa using hlt), List.take_succ_cons,
        utf8Length_cons, ← Nat.add_assoc, ih, List.drop_succ_cons]

/-- A character other than a backslash and a bracket is a piece of its own. -/
theorem pieceAt_eq_pieceOf {c : Char} (h1 : c ≠ '\\') (h2 : c ≠ '[') (rest : List Char) :
    pieceAt c rest = some (pieceOf c, 0) := by
  unfold pieceAt pieceOf
  split
  · exact absurd rfl h1
  · exact absurd rfl h2
  · rfl
  · rfl
  · next h3 h4 => rw [if_neg h3, if_neg h4]

/-- **A piece is cut out of the text without a fault**, and what is left is read from behind it. -/
theorem piecesFrom_step {source done cs : List Char} {c : Char} (h : source = done ++ c :: cs) :
    piecesFrom source (located (utf8Length done) (c :: cs)) =
      match pieceAt c cs with
      | none => .ok none
      | some (p, taken) => do
        let more ← piecesFrom source
          (located (utf8Length (done ++ c :: cs.take taken)) (cs.drop taken))
        return more.map ((utf8Length done, p) :: ·) := by
  rw [located, piecesFrom.eq_def]
  dsimp only
  split
  · next hc =>
    subst hc
    cases cs with
    | nil => simp [located, pieceAt, piecesFrom]
    | cons d cs =>
      have hslice : slice source (utf8Length done)
          (utf8Length done + '\\'.utf8Size + d.utf8Size) = .ok ['\\', d] :=
        slice_eq_ok_iff.mpr ⟨done, cs, by simp [h], rfl, by simp [Nat.add_assoc]⟩
      rw [located]
      dsimp only
      rw [hslice, ok_bind, pieceAt]
      simp [Nat.add_assoc]
  · next hbackslash =>
    split
    · next hc =>
      subst hc
      rw [classEnd_eq h]
      cases hlength : classLength 1 .opened cs with
      | none => simp [pieceAt, hlength]
      | some n =>
        have hslice : slice source (utf8Length done)
            (utf8Length done + utf8Length ('[' :: cs.take n)) = .ok ('[' :: cs.take n) :=
          slice_eq_ok_iff.mpr ⟨done, cs.drop n, by simp [h], rfl, by simp⟩
        have hrest : (located (utf8Length done + '['.utf8Size) cs).dropWhile
            (·.1 < utf8Length done + utf8Length ('[' :: cs.take n)) =
              located (utf8Length (done ++ '[' :: cs.take n)) (cs.drop n) := by
          rw [utf8Length_append, utf8Length_cons, ← Nat.add_assoc]
          exact dropWhile_located _ n cs
        rw [Option.map_some, ok_bind]
        dsimp only
        rw [hslice, ok_bind, hrest, pieceAt, hlength]
        rfl
    · next hbracket =>
      rw [pieceAt_eq_pieceOf hbackslash hbracket]
      simp

/-- **The pieces of a text are read without a fault.** -/
theorem piecesFrom_located (source done cs : List Char) (h : source = done ++ cs) :
    piecesFrom source (located (utf8Length done) cs) =
      .ok (Spec.piecesFrom (utf8Length done) 0 cs) := by
  match cs with
  | [] => rw [located, piecesFrom, Spec.piecesFrom]
  | c :: cs =>
    rw [piecesFrom_step h, piecesFrom_cons]
    cases hpiece : pieceAt c cs with
    | none => rfl
    | some found =>
      obtain ⟨p, taken⟩ := found
      have hmore := piecesFrom_located source (done ++ c :: cs.take taken) (cs.drop taken)
        (by simp [h])
      dsimp only
      rw [hmore, ok_bind, utf8Length_append, utf8Length_cons, ← Nat.add_assoc]
      rfl
termination_by cs.length
decreasing_by
  rw [List.length_drop, List.length_cons]
  omega

theorem pieces_eq (source : List Char) : pieces source = .ok (Spec.pieces source) :=
  piecesFrom_located source [] source rfl

/-! ### The table of shallow offsets -/

/-- Offsets of pieces have an entry in the table, and those of plain characters outside groups get
    marked. -/
theorem markShallow_ok {ps : List (Nat × Piece)} (table : List Bool) (depth : Nat)
    (h : ∀ e ∈ ps, e.1 < table.length) :
    ∃ marked, markShallow table depth ps = .ok marked ∧
      ∀ i, marked[i]? = table[i]?.map (· || decide (i ∈ shallowOffsets depth ps)) := by
  induction ps generalizing table depth with
  | nil => exact ⟨table, rfl, by simp [shallowOffsets]⟩
  | cons e ps ih =>
    obtain ⟨at_, p⟩ := e
    have hmore : ∀ e ∈ ps, e.1 < table.length := fun e he => h e (List.mem_cons_of_mem _ he)
    cases p with
    | opening => exact ih table _ hmore
    | closing => exact ih table _ hmore
    | verbatim text => exact ih table _ hmore
    | char c =>
      rw [markShallow, shallowOffsets]
      split
      · have hat : at_ < table.length := h _ List.mem_cons_self
        obtain ⟨marked, hmarked, hentry⟩ := ih (table.set at_ true) depth (by simpa using hmore)
        refine ⟨marked, by rw [mark, if_pos hat, ok_bind, hmarked], ?_⟩
        intro i
        rw [hentry, List.getElem?_set]
        split
        · next hi =>
          subst hi
          simp [hat]
        · next hi => simp [Ne.symm hi]
      · exact ih table _ hmore

/-- The offsets that are shallow by the table, up to the end of the text. -/
def Shows (table : List Bool) (shallow : List Nat) (stop : Nat) : Prop :=
  ∀ i ≤ stop, entry table i = .ok (decide (i ∈ shallow))

/-- **The table is made without a fault**, and it shows what is shallow. -/
theorem exists_table {source : List Char} {ps : List (Nat × Piece)}
    (h : Spec.pieces source = some ps) :
    ∃ table, markShallow (List.replicate (utf8Length source + 1) false) 0 ps = .ok table ∧
      Shows table (shallowOffsets 0 ps) (utf8Length source) := by
  have hbound : ∀ e ∈ ps, e.1 < (List.replicate (utf8Length source + 1) false).length := by
    rintro ⟨o, p⟩ he
    obtain ⟨qs, -, rfl, rfl⟩ := pieces_eq_some_iff.mp h
    obtain ⟨a, b, rfl, rfl⟩ := exists_append_of_mem_locate he
    rw [List.length_replicate, textOf_append, utf8Length_append]
    dsimp only
    omega
  obtain ⟨table, htable, hentry⟩ := markShallow_ok _ 0 hbound
  refine ⟨table, htable, ?_⟩
  intro i hi
  have hsome : table[i]? = some (decide (i ∈ shallowOffsets 0 ps)) := by
    rw [hentry, List.getElem?_replicate, if_pos (Nat.lt_succ_of_le hi)]
    rfl
  rw [entry, hsome]

/-! ### Substitution -/

theorem foundFrom_copied {c : Char} {rest : List Char} (h : readToken? (c :: rest) = none)
    (offset : Nat) : foundFrom offset 0 (c :: rest) = foundFrom (offset + c.utf8Size) 0 rest := by
  rw [foundFrom, h]

theorem foundFrom_taken (offset : Nat) (taken rest : List Char) :
    foundFrom offset taken.length (taken ++ rest) = foundFrom (offset + utf8Length taken) 0 rest := by
  induction taken generalizing offset with
  | nil => rfl
  | cons c taken ih =>
    rw [List.length_cons, List.cons_append, foundFrom, ih, utf8Length_cons, Nat.add_assoc]

/-- The scan goes on behind what it has found. -/
theorem foundFrom_read {t : Token} {rest : List Char}
    (h : readToken? (t.text ++ rest) = some t) (offset : Nat) :
    foundFrom offset 0 (t.text ++ rest) =
      ⟨t, offset⟩ :: foundFrom (offset + utf8Length t.text) 0 rest := by
  cases htext : t.text with
  | nil => exact absurd htext t.text_ne_nil
  | cons c cs =>
    rw [htext, List.cons_append] at h
    rw [List.cons_append, foundFrom, h]
    dsimp only
    rw [htext, List.length_cons, Nat.add_sub_cancel, foundFrom_taken, utf8Length_cons, Nat.add_assoc]

/-- Substitution has come behind `done` and has handed out `parts`: up to a place in `done` it has
    written them, and what is pending behind that place is still to be copied. -/
structure Reached (s : Substituted) (done : List Char) (parts : List Part) : Prop where
  pending : ∃ kept pending, done = kept ++ pending ∧ s.copied = utf8Length kept ∧
    parts.flatMap Part.text = s.text ++ pending
  keys : s.keys = parts.filterMap Part.key?
  wrappers : s.wrappers = wrapperOffsets 0 parts

namespace Reached

variable {source done : List Char} {table : List Bool} {shallow : List Nat} {s : Substituted}
  {parts : List Part}

theorem start : Reached .start [] [] := ⟨⟨[], [], rfl, rfl, rfl⟩, rfl, rfl⟩

theorem copied_le (h : Reached s done parts) : s.copied ≤ utf8Length done := by
  obtain ⟨kept, pending, rfl, hcopied, -⟩ := h.pending
  rw [hcopied, utf8Length_append]
  omega

/-- What is copied stays pending. -/
theorem copies (h : Reached s done parts) (cs : List Char) :
    Reached s (done ++ cs) (parts ++ cs.map .copied) := by
  obtain ⟨kept, pending, rfl, hcopied, htext⟩ := h.pending
  refine ⟨⟨kept, pending ++ cs, List.append_assoc _ _ _, hcopied, ?_⟩, ?_, ?_⟩
  · rw [List.flatMap_append, flatMap_text_copied, htext, List.append_assoc]
  · rw [List.filterMap_append, filterMap_key_copied, List.append_nil, h.keys]
  · rw [wrapperOffsets_append, wrapperOffsets_copied, List.append_nil, h.wrappers]

end Reached

theorem render_eq_wrap (t : Token) (literalLead : Bool) :
    render (if literalLead then t.lead else []) (!literalLead && t.slash) (!literalLead && t.dot) t =
      wrap t literalLead := by
  cases literalLead <;> cases ht : t.optional <;> simp [render, wrap, ht]

namespace Reached

variable {source done rest : List Char} {table : List Bool} {shallow : List Nat} {s : Substituted}
  {parts : List Part} {t : Token}

/-- A part that is written leaves nothing pending. -/
theorem write (h : Reached s done parts) {kept pending cs : List Char} (hdone : done = kept ++ pending)
    (hcopied : s.copied = utf8Length kept) {key : Key} {before inside : List Char} {stop : Nat}
    (hstop : stop = utf8Length (done ++ cs)) :
    Reached (s.write pending (.wrapper key before inside) stop) (done ++ cs)
      (parts ++ [.wrapper key before inside]) := by
  obtain ⟨kept', pending', hdone', hcopied', htext⟩ := h.pending
  obtain rfl : kept' = kept := eq_of_utf8Length (hdone'.symm.trans hdone) (hcopied'.symm.trans hcopied)
  obtain rfl : pending' = pending := List.append_cancel_left (hdone'.symm.trans hdone)
  refine ⟨⟨done ++ cs, [], (List.append_nil _).symm, hstop, ?_⟩, ?_, ?_⟩
  · rw [List.flatMap_append, htext, Substituted.write]
    simp
  · rw [List.filterMap_append, ← h.keys]
    rfl
  · rw [wrapperOffsets_append, ← h.wrappers, htext, Nat.zero_add]
    rfl

/-- **A token is substituted without a fault.**  What is pending is copied up to it, and substitution
    comes behind it with its wrapper, or with its characters if its colon is not shallow. -/
theorem token (h : Reached s done parts) (hsource : source = done ++ (t.text ++ rest))
    (htable : Shows table shallow (utf8Length source)) :
    ∃ s', substituteNext source table s ⟨t, utf8Length done⟩ = .ok s' ∧
      Reached s' (done ++ t.text)
        (parts ++ if utf8Length done + utf8Length t.lead ∈ shallow
          then [wrap t (utf8Length done ∉ shallow)] else t.text.map .copied) := by
  obtain ⟨marks, hmarks⟩ : ∃ marks, t.text = t.lead ++ ':' :: marks :=
    ⟨t.name ++ t.constraint.getD [] ++ (if t.optional then ['?'] else []) ++
      (if t.rest then ['*'] else []), by simp [Token.text]⟩
  have hlength : utf8Length source = utf8Length done + utf8Length t.lead +
      (':'.utf8Size + utf8Length marks + utf8Length rest) := by
    rw [hsource, hmarks]
    simp [Nat.add_assoc]
  have hcolon : entry table (utf8Length done + utf8Length t.lead) =
      .ok (decide (utf8Length done + utf8Length t.lead ∈ shallow)) := htable _ (by omega)
  have hstart : entry table (utf8Length done) = .ok (decide (utf8Length done ∈ shallow)) :=
    htable _ (by omega)
  rw [substituteNext, Found.nameStart, decrement, ok_bind, hcolon, ok_bind]
  by_cases hshallow : utf8Length done + utf8Length t.lead ∈ shallow
  · have hlead : literalLead source ⟨t, utf8Length done⟩ (decide (utf8Length done ∈ shallow))
        (utf8Length done + utf8Length t.lead) =
          .ok (if decide (utf8Length done ∉ shallow) then t.lead else []) := by
      by_cases hmem : utf8Length done ∈ shallow
      · simp [literalLead, hmem]
      · rw [literalLead, if_neg (by simpa using hmem), if_pos (by simpa using hmem)]
        exact slice_eq_ok_iff.mpr ⟨done, ':' :: marks ++ rest, by rw [hsource, hmarks]; simp, rfl,
          (utf8Length_append _ _).symm⟩
    obtain ⟨kept, pending, hdone, hcopied, htext⟩ := h.pending
    have hbefore : slice source s.copied (utf8Length done) = .ok pending :=
      slice_eq_ok_iff.mpr ⟨kept, t.text ++ rest, by rw [hsource, hdone], hcopied, by rw [hdone]⟩
    have hrender := render_eq_wrap t (decide (utf8Length done ∉ shallow))
    obtain ⟨key, before, inside, hwrap, -⟩ := exists_wrap t (decide (utf8Length done ∉ shallow))
    have hleads : (!decide (utf8Length done ∉ shallow)) = decide (utf8Length done ∈ shallow) := by
      simp
    rw [hwrap, hleads] at hrender
    rw [if_pos hshallow, if_pos (decide_eq_true hshallow), hstart, ok_bind, hlead, ok_bind, hbefore,
      ok_bind, hrender, hwrap]
    exact ⟨_, rfl, h.write hdone hcopied (utf8Length_append _ _).symm⟩
  · rw [if_neg hshallow, if_neg (by simpa using hshallow)]
    exact ⟨s, rfl, h.copies t.text⟩

end Reached

theorem InOrder.cons {source : List Char} {table : List Bool} {s s' : Substituted} {f : Found}
    {found : List Found} (hnext : substituteNext source table s f = .ok s')
    (hcopied : s.copied ≤ f.start) (hstop : f.stop ≤ utf8Length source)
    (h : InOrder source table s' found) : InOrder source table s (f :: found) := by
  intro front g back hfound
  cases front with
  | nil =>
    obtain ⟨rfl, -⟩ := List.cons.inj hfound
    refine ⟨s, f.start + utf8Length f.token.lead, rfl, rfl, hcopied, Nat.le_add_right _ _, ?_, hstop⟩
    rw [Found.stop, Token.text]
    simp only [utf8Length_append, utf8Length_cons]
    have := ':'.utf8Size_pos
    omega
  | cons e front =>
    obtain ⟨rfl, hlater⟩ := List.cons.inj hfound
    obtain ⟨s'', colon, hrun, hcolon⟩ := h front g back hlater
    refine ⟨s'', colon, ?_, hcolon⟩
    rw [List.foldlM_cons, hnext, ok_bind, hrun]

/-- **Substitution runs through a text without a fault**, and in order. -/
theorem Reached.run {source : List Char} {table : List Bool} {shallow : List Nat}
    (htable : Shows table shallow (utf8Length source)) (done after : List Char)
    (hsource : source = done ++ after) {s : Substituted} {parts : List Part}
    (h : Reached s done parts) :
    ∃ s', (foundFrom (utf8Length done) 0 after).foldlM (substituteNext source table) s = .ok s' ∧
      Reached s' source (parts ++ partsFrom shallow (utf8Length done) 0 0 after) ∧
      InOrder source table s (foundFrom (utf8Length done) 0 after) := by
  induction done, after using scan_induction generalizing s parts with
  | done done =>
    refine ⟨s, rfl, ?_, ?_⟩
    · rw [hsource, partsFrom, List.append_nil, List.append_nil]
      exact h
    · intro front f back hfound
      simp [foundFrom] at hfound
  | copied done c after hread ih =>
    have hmore := ih (by simp [hsource]) (h.copies [c])
    rw [utf8Length_append, utf8Length_cons, utf8Length_nil, Nat.add_zero] at hmore
    rw [foundFrom_copied hread, partsFrom_copied _ hread, List.append_cons]
    exact hmore
  | token done t rest hread ih =>
    obtain ⟨s₁, hnext, hreached⟩ := h.token hsource htable
    obtain ⟨s', hrun, hall, horder⟩ := ih (by rw [hsource, List.append_assoc]) hreached
    rw [utf8Length_append] at hrun hall horder
    rw [foundFrom_read hread, partsFrom_read hread, ← List.append_assoc]
    refine ⟨s', ?_, hall, horder.cons hnext h.copied_le ?_⟩
    · rw [List.foldlM_cons, hnext, ok_bind, hrun]
    · rw [Found.stop, hsource, utf8Length_append, utf8Length_append]
      dsimp only
      omega

/-- What substitution has written of a text, as parts. -/
def Substituted.ofParts (parts : List Part) (copied : Nat) : Substituted :=
  ⟨parts.flatMap Part.text, parts.filterMap Part.key?, wrapperOffsets 0 parts, copied⟩

theorem substitute_eq_ok (source : List Char) :
    ∃ copied, substitute source =
      .ok ((Spec.substitute source).map fun parts => .ofParts parts copied) := by
  rw [substitute, pieces_eq, ok_bind, Spec.substitute]
  cases hps : Spec.pieces source with
  | none => exact ⟨0, rfl⟩
  | some ps =>
    obtain ⟨table, htable, hshows⟩ := exists_table hps
    obtain ⟨s, hrun, hreached, -⟩ := Reached.start.run hshows [] source rfl
    obtain ⟨kept, pending, hsource, hcopied, htext⟩ := hreached.pending
    rw [utf8Length_nil, List.nil_append] at *
    have hrest := slice_back hsource hcopied rfl
    dsimp only
    rw [htable, ok_bind, hrun, ok_bind, hrest, ok_bind]
    refine ⟨s.copied, ?_⟩
    rw [Option.map_some, Option.map_some, Substituted.ofParts, htext, ← hreached.keys,
      ← hreached.wrappers]
    rfl

/-! ### Slots -/

/-- The groups of a walk, if it has come out of all of them. -/
def Walk.groups? (w : Walk) : Option (List TopGroup) := if w.depth = 0 then some w.groups else none

/-- **The walk through the pieces is without a fault.**  The group that is counted in is the one that
    is open, if one is. -/
theorem walkFrom_ok {ps more : List (Nat × Piece)} {index : Nat} (wrappers : List Nat) (w : Walk)
    (current : TopGroup) (hmore : ps.drop index = more) (hindex : index + more.length = ps.length)
    (hcurrent : w.depth ≠ 0 → w.current = some current) :
    ∃ r, walkFrom ps wrappers index w more = .ok r ∧
      r.bind Walk.groups? =
        (topGroupsFrom wrappers w.depth current more).map (w.groups ++ ·) := by
  induction more generalizing index w current with
  | nil =>
    refine ⟨some w, rfl, ?_⟩
    rw [Option.bind_some, Walk.groups?, topGroupsFrom]
    split <;> simp
  | cons e more ih =>
    have hbehind : ps.drop (index + 1) = more := by
      rw [← List.tail_drop, hmore]
      rfl
    rw [List.length_cons] at hindex
    have hnext : index + 1 + more.length = ps.length := by omega
    obtain ⟨at_, p⟩ := e
    cases p with
    | char c =>
      rw [walkFrom, topGroupsFrom]
      · exact ih w current hbehind hnext hcurrent
      all_goals simp
    | verbatim text =>
      rw [walkFrom, topGroupsFrom]
      · exact ih w current hbehind hnext hcurrent
      all_goals simp
    | opening =>
      have hfrom : fromIndex ps (index + 1) = .ok more := by
        rw [fromIndex, if_pos (by omega), hbehind]
      rw [walkFrom, hfrom, ok_bind, topGroupsFrom, Walk.opening]
      by_cases hdepth : w.depth = 0
      · rw [if_pos hdepth, if_pos hdepth, hdepth]
        simp only [decide_eq_true_eq]
        exact ih _ _ hbehind hnext fun _ => rfl
      · rw [if_neg hdepth, if_neg hdepth]
        dsimp only
        split
        · exact ih _ _ hbehind hnext fun _ => by rw [hcurrent hdepth]; rfl
        · exact ih _ _ hbehind hnext fun _ => hcurrent hdepth
    | closing =>
      rw [walkFrom]
      cases hdepth : w.depth with
      | zero =>
        refine ⟨none, rfl, ?_⟩
        rw [topGroupsFrom]
        rfl
      | succ depth =>
        rw [if_neg (Nat.succ_ne_zero depth), decrement, ok_bind, Walk.closing]
        rw [hdepth] at hcurrent
        have hopen := hcurrent (Nat.succ_ne_zero depth)
        cases depth with
        | zero =>
          obtain ⟨r, hr, hgroups⟩ := ih ⟨w.groups ++ w.current.toList, none, 0⟩ current hbehind
            hnext fun h => absurd rfl h
          refine ⟨r, hr, ?_⟩
          rw [hgroups, topGroupsFrom, Option.map_map, hopen]
          congr 1
          funext groups
          simp
        | succ depth =>
          rw [if_neg (Nat.succ_ne_zero depth), topGroupsFrom]
          exact ih ⟨w.groups, w.current, depth + 1⟩ current hbehind hnext fun _ => hopen

theorem assignSlots_eq (spec pattern : List Char) (keys : List Key) (wrappers : List Nat) :
    assignSlots spec pattern keys wrappers =
      .ok (Spec.assignSlots spec pattern keys wrappers) := by
  rw [assignSlots, pieces_eq, ok_bind, Spec.assignSlots]
  cases Spec.pieces pattern with
  | none => rfl
  | some ps =>
    obtain ⟨r, hwalk, hgroups⟩ := walkFrom_ok wrappers .start ⟨.nonCapturing, 0⟩
      (List.drop_zero (l := ps)) (Nat.zero_add _) fun h => absurd rfl h
    have hnil : ((Walk.start).groups ++ ·) = (id : List TopGroup → List TopGroup) := rfl
    rw [hnil, Option.map_id_fun, id_eq] at hgroups
    have hdepth : (Walk.start).depth = 0 := rfl
    rw [hdepth] at hgroups
    dsimp only
    rw [hwalk, ok_bind, Option.bind_some, ← hgroups]
    cases r with
    | none => rfl
    | some w =>
      rw [Option.bind_some, Walk.groups?]
      dsimp only
      by_cases h : w.depth = 0
      · rw [if_neg (by simpa using h), if_pos h]
        dsimp only
        cases slotsOf w.groups keys <;> rfl
      · rw [if_pos h, if_neg h]
        rfl

/-! ### Compilation -/

theorem spell_eq (source : List Char) (offsets : List Nat) :
    spell source offsets = .ok (Spec.spell source offsets) := by
  rw [spell, pieces_eq, ok_bind, Spec.spell]
  rfl

theorem compile_eq (options : CompileOptions) (spec : List Char) :
    compile options spec = .ok (Spec.compile options spec) := by
  obtain ⟨copied, hsubstitute⟩ := substitute_eq_ok (textFor options spec)
  have htext : (if options.strict then spec else withOptionalSlash spec) = textFor options spec := rfl
  rw [compile, Spec.compile, htext]
  dsimp only
  rw [hsubstitute, ok_bind]
  cases Spec.substitute (textFor options spec) with
  | none => rfl
  | some parts =>
    rw [Option.map_some]
    dsimp only [Substituted.ofParts]
    rw [spell_eq, ok_bind]
    cases Spec.spell (parts.flatMap Part.text) (wrapperOffsets 0 parts) with
    | none => rfl
    | some spelled =>
      obtain ⟨pattern, wrappers⟩ := spelled
      dsimp only
      rw [assignSlots_eq, ok_bind]
      cases Spec.assignSlots spec pattern (parts.filterMap Part.key?) wrappers <;> rfl

/-- **A spec is compiled without a fault**, whatever text it is and under any flags, to the answer
    that `compile` gives.  No index lies beyond a list, no slice beyond the text or within one of its
    characters or with its start behind its end, and no counter is at zero when it is counted down.
    In front of every token that is found, substitution has copied no further than to its start, and
    the colon that it looks up stands in the token. -/
theorem compile_faultless (options : CompileOptions) (spec : List Char) :
    compile options spec = .ok (Spec.compile options spec) ∧
      ∀ ps, Spec.pieces (textFor options spec) = some ps →
        ∃ table, markShallow
            (List.replicate (utf8Length (textFor options spec) + 1) false) 0 ps = .ok table ∧
          InOrder (textFor options spec) table .start (foundFrom 0 0 (textFor options spec)) := by
  refine ⟨compile_eq options spec, ?_⟩
  intro ps hps
  obtain ⟨table, htable, hshows⟩ := exists_table hps
  obtain ⟨s, -, -, horder⟩ := Reached.start.run hshows [] (textFor options spec) rfl
  exact ⟨table, htable, horder⟩

/-- Characters of two octets, a bracket within a class, a token behind an escape, and a backslash that
    ends the text. -/
theorem compile_faultless_escaped :
    compile { strict := true } "/é[[]]]\\.:ü(\\d)?\\".toList =
        .ok (.ok ⟨"/é[[]]]\\.(?:(\\d))?\\".toList, [some ⟨"ü", true⟩]⟩) ∧
      ∃ ps table, Spec.pieces "/é[[]]]\\.:ü(\\d)?\\".toList = some ps ∧
        markShallow (List.replicate 20 false) 0 ps = .ok table ∧
        InOrder "/é[[]]]\\.:ü(\\d)?\\".toList table .start
          (foundFrom 0 0 "/é[[]]]\\.:ü(\\d)?\\".toList) := by
  have hpieces : ∃ ps, Spec.pieces "/é[[]]]\\.:ü(\\d)?\\".toList = some ps :=
    Option.isSome_iff_exists.mp (by decide)
  obtain ⟨ps, hps⟩ := hpieces
  obtain ⟨hcompile, htables⟩ := compile_faultless { strict := true } "/é[[]]]\\.:ü(\\d)?\\".toList
  obtain ⟨table, htable, horder⟩ := htables ps hps
  have hanswer : Spec.compile { strict := true } "/é[[]]]\\.:ü(\\d)?\\".toList =
      .ok ⟨"/é[[]]]\\.(?:(\\d))?\\".toList, [some ⟨"ü", true⟩]⟩ := by decide +kernel
  rw [hanswer] at hcompile
  exact ⟨hcompile, ps, table, hps, htable, horder⟩

end RequestRouter.Spec.Checked
