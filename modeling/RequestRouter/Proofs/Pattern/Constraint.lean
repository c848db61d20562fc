/-
  RequestRouter/Proofs/Pattern/Constraint.lean
  ============================================
  **A constraint is the whole capture of its parameter, if it closes its groups at its end only.**

  The constraint of a parameter is cut at its first closing parenthesis.  Where nothing but closing
  parentheses comes behind the cut, the pattern reads the body of the constraint as one group behind
  the characters before the parameter (`expr_constrained`), and the path matches exactly if the body
  reads the whole of the segment (`captures_constrained`).  The groups of the body become splats and
  are kept under later indices.  Anything else behind the cut stands outside the capture
  (`captures_constrained_cut`).
-/
import RequestRouter.Proofs.Path.Segments
import RequestRouter.Proofs.Pattern.Matching
import RequestRouter.Proofs.Regex.Nesting
import RequestRouter.Proofs.Spec.Constraint

namespace RequestRouter.Spec

open RequestRouter.Regex RequestRouter.Unicode

variable {ic : Bool}

/-! ### Expressions of the pattern -/

/-- The expressions of characters that mean themselves. -/
def literalExprs (ic : Bool) (cs : List Char) : List Expr := cs.map fun c => .one (charSet ic c)

theorem exprsFrom_literal (cs : List Char) (g : Nat) :
    exprsFrom ic g (cs.map .char) = literalExprs ic cs := by
  induction cs generalizing g with
  | nil => rfl
  | cons c cs ih =>
    rw [List.map_cons, exprsFrom, ih]
    rfl

/-- The expression of the slash that may be missing at the end. -/
def endExprs (ic : Bool) (options : CompileOptions) : List Expr :=
  if options.strict then [] else [.rounds (.one (charSet ic '/')) 0 (some 1) true]

/-- The expressions of a constrained parameter behind `front`, and of the end of the pattern. -/
def constrainedExprs (ic : Bool) (options : CompileOptions) (front : List Char) (body : Expr) :
    List Expr :=
  literalExprs ic (front ++ ['/']) ++ .group 1 body :: endExprs ic options

theorem reads_literalPattern {front : List Char} (h : ∀ c ∈ front, Element.Literal c) :
    ReadsExprs ic 8 (literalPattern front) (fun _ => literalExprs ic front) 0 := by
  have hslots : ((front.map Element.char).flatMap Element.slots).length = 0 := by
    rw [List.flatMap_map]
    simp [Element.slots]
  have hreads := reads_laid ic (standable_literal h)
  rw [hslots] at hreads
  simp only [exprsFrom_literal] at hreads
  exact hreads

theorem readsAs_optionalEnd (ic : Bool) (options : CompileOptions) :
    ∃ nodes, ReadsAs ic (optionalEnd options) nodes 0 ∧
      ∀ g, (nodes g).map (·.expr) = endExprs ic options := by
  unfold optionalEnd endExprs
  split
  · exact ⟨_, readsAs_nil, fun g => rfl⟩
  · have hslash : ReadsItem ic ['/'] (fun _ => ⟨.one (charSet ic '/'), 0⟩) 0 :=
      readsItem_char (by decide)
    exact ⟨_, hslash.repeated optional_mem true, fun g => rfl⟩

/-- The body of a constraint closes groups at its end only, and the groups that it closes are bare:
    they have no names and leave the flags as they are. -/
structure ClosesLast (body : List Char) : Prop where
  cut : ∃ inner k, body = inner ++ closers k ∧ ')' ∉ inner
  bare : bareGroups body = true ∨ ')' ∉ body

theorem ClosesLast.of_not_mem {body : List Char} (h : ')' ∉ body) : ClosesLast body :=
  ⟨⟨body, 0, (List.append_nil body).symm, h⟩, .inr h⟩

/-- The pattern of a constrained parameter is read as its expressions. -/
theorem readsAs_constrained {options : CompileOptions} {front body : List Char} {e : Expr}
    (hfront : ∀ c ∈ front, Element.Literal c) (hclosing : ClosesLast body)
    (hbody : parse (textFlags ic) body = .ok e) :
    ∃ nodes count, ReadsAs ic (constrainedPattern options front body) nodes count ∧
      (nodes 0).map (·.expr) = constrainedExprs ic options front (e.moved 1) := by
  obtain ⟨depth, count, hcapture⟩ := readsItem_body hbody hclosing.bare
  obtain ⟨nodes, hfrontReads, hnodes⟩ := @reads_literalPattern ic _ hfront
  obtain ⟨nodes', hendReads, hnodes'⟩ := readsAs_optionalEnd ic options
  have hslash : ReadsItem ic ['/'] (fun _ => ⟨.one (charSet ic '/'), 0⟩) 0 :=
    readsItem_char (by decide)
  have hmark : (optionalEnd options).head? ≠ some '?' := by
    unfold optionalEnd
    split <;> simp
  refine ⟨_, _, ((hfrontReads.append hslash.readsAs (by simp)).append
    hcapture.readsAs.plain.readsAs (by simp)).append hendReads hmark, ?_⟩
  have hbefore : literalExprs ic (front ++ ['/']) =
      literalExprs ic front ++ [.one (charSet ic '/')] := List.map_append
  rw [List.map_append, List.map_append, List.map_append, (hnodes _).1, hnodes', constrainedExprs,
    hbefore, List.append_assoc _ _ (endExprs ic options)]
  rfl

/-! ### The compiled spec -/

/-- What a spec that ends with a constrained parameter is compiled to. -/
theorem expr_constrained {options : CompileOptions} {front name body : List Char} {p : Pattern}
    {e : Expr} (hfront : ∀ c ∈ front, Element.Literal c) (hname : name ≠ [])
    (hword : ∀ c ∈ name, isWord c = true) (hclosing : ClosesLast body) (hline : '\n' ∉ body)
    (hbody : parse (textFlags (!options.caseSensitive)) body = .ok e)
    (h : Pattern.compile options (String.ofList (front ++ (constrained name body).text)) = .ok p) :
    p.expr =
        anchoredExpr (.seqs (constrainedExprs (!options.caseSensitive) options front (e.moved 1))) ∧
      ∃ others, p.slots = some ⟨String.ofList name, false⟩ :: others ∧
        ∀ slot ∈ others, slot = none := by
  obtain ⟨nodes, count, hreads, hnodes⟩ := @readsAs_constrained _ options _ _ _ hfront hclosing hbody
  obtain ⟨inner, k, rfl, hinner⟩ := hclosing.cut
  have htext : (constrained name (inner ++ closers k)).text =
      (constrained name inner).text ++ closers k := by
    rw [text_constrained_closers, text_constrained]
  rw [htext] at h
  unfold Pattern.compile at h
  rw [String.toList_ofList] at h
  split at h
  · cases h
  · next source hsource =>
    obtain ⟨hpattern, hslots⟩ := pattern_constrained hfront hname hword hinner
      (fun hmem => hline (List.mem_append_left _ hmem)) hsource
    simp only at h
    split at h
    · cases h
    · next x hcompile =>
      have hparse := parse_of_compile hcompile
      rw [hpattern] at hparse
      have hexpr := eq_of_parse_anchored hreads hparse
      rw [hnodes] at hexpr
      split at h
      · cases h
        exact ⟨hexpr, hslots⟩
      · cases h

/-! ### Reading a path -/

theorem takesAll_literalExprs {cs s : List Char} {gs : Kept}
    (h : Expr.TakesAll (literalExprs ic cs) s gs) : s.length = cs.length ∧ gs = [] := by
  induction cs generalizing s gs with
  | nil =>
    obtain ⟨rfl, rfl⟩ := h
    exact ⟨rfl, rfl⟩
  | cons c cs ih =>
    obtain ⟨-, s₂, -, g₂, ⟨d, rfl, -, rfl⟩, hmore, rfl, rfl⟩ := h
    obtain ⟨hlength, rfl⟩ := ih hmore
    exact ⟨congrArg (· + 1) hlength, rfl⟩

theorem takesAll_literalExprs_self (cs : List Char) :
    Expr.TakesAll (literalExprs ic cs) cs [] := by
  induction cs with
  | nil => exact ⟨rfl, rfl⟩
  | cons c cs ih =>
    exact ⟨[c], cs, [], [], ⟨c, rfl, (contains_charSet c c).trans (sameChar_self c), rfl⟩, ih, rfl, rfl⟩

/-- Characters that mean themselves lead behind themselves, and nowhere else. -/
theorem reachesAll_literalExprs {cs rest : List Char} {p : Cursor} (hrest : p.rest = cs ++ rest) :
    (∃ m, Expr.ReachesAll (literalExprs ic cs) p m) ∧
      ∀ m, Expr.ReachesAll (literalExprs ic cs) p m → p.Takes cs [] m := by
  have hfree : (Expr.seqs (literalExprs ic cs)).lookFree = true := by
    apply lookFree_seqs
    intro e he
    obtain ⟨c, -, rfl⟩ := List.mem_map.mp he
    rfl
  constructor
  · have htakes := (takes_seqs _ _ _).mpr (@takesAll_literalExprs_self ic cs)
    obtain ⟨m, hm, -⟩ := reaches_of_takes htakes hrest
    exact ⟨m, (reaches_seqs _ _ _).mp hm⟩
  · intro m hm
    obtain ⟨s, gs, hs, htakes⟩ := takes_of_reaches hfree ((reaches_seqs _ _ _).mpr hm)
    obtain ⟨hlength, rfl⟩ := takesAll_literalExprs ((takes_seqs _ _ _).mp hs)
    have hread : s ++ m.rest = cs ++ rest := htakes.reads.rest.symm.trans hrest
    obtain rfl := List.append_inj_left hread hlength
    exact htakes

/-- Without a slash to read, the end of the pattern reads nothing. -/
theorem reachesAll_endExprs {options : CompileOptions} {p q : Cursor} (hslash : '/' ∉ p.rest) :
    Expr.ReachesAll (endExprs ic options) p q ↔ q = p := by
  unfold endExprs
  split
  · exact Iff.rfl
  · constructor
    · rintro ⟨m, ⟨n, -, hmost, hrounds⟩, rfl⟩
      have hn : n ≤ 1 := hmost 1 rfl
      cases n with
      | zero => exact hrounds
      | succ n =>
        obtain ⟨m', hm', -⟩ := hrounds
        simp only [Expr.Reaches, Cursor.step?] at hm'
        split at hm'
        · cases hm'
        · next c rest hrest =>
          split at hm'
          · next hc =>
            rw [contains_charSet, sameChar_slash] at hc
            rw [hrest, hc] at hslash
            exact absurd List.mem_cons_self hslash
          · cases hm'
    · rintro rfl
      exact ⟨q, ⟨0, Nat.le_refl 0, fun _ _ => Nat.zero_le _, rfl⟩, rfl⟩

/-- The place behind the characters before the value. -/
structure AtValue (v : List Char) (p : Cursor) : Prop where
  before : p.before = some '/'
  rest : p.rest = v

theorem rest_start (front v : List Char) :
    (Cursor.start (front ++ '/' :: v)).rest = (front ++ ['/']) ++ v := by
  simp [Cursor.start]

theorem atValue_of_reaches {front v : List Char} {m : Cursor}
    (h : Expr.ReachesAll (literalExprs ic (front ++ ['/'])) (.start (front ++ '/' :: v)) m) :
    AtValue v m := by
  have htakes := (reachesAll_literalExprs (rest_start front v)).2 m h
  refine ⟨?_, htakes.rest (rest_start front v)⟩
  rw [htakes.reads.before, List.getLast?_concat]
  rfl

/-- Behind the slash an expression that does not ask for a start reads as it does at the start. -/
theorem AtValue.alike {v : List Char} {p : Cursor} (h : AtValue v p) : p.Alike (.start v) := by
  refine ⟨h.rest, ?_, ?_⟩
  · intro unicode
    rw [h.before]
    change wordAt unicode (some '/') = false
    cases unicode <;> decide
  · rw [h.before]
    rfl

/-- The pattern leads where the body leads from the place behind the characters before the value. -/
theorem reaches_constrainedExprs {options : CompileOptions} {front v : List Char} {body : Expr}
    (hslash : '/' ∉ v) (q : Cursor) :
    (Expr.seqs (constrainedExprs ic options front body)).Reaches (.start (front ++ '/' :: v)) q ↔
      ∃ m, Expr.ReachesAll (literalExprs ic (front ++ ['/'])) (.start (front ++ '/' :: v)) m ∧
        ∃ m', body.Reaches m m' ∧ q = m'.keep 1 m := by
  have hend : ∀ {m m' : Cursor}, Expr.ReachesAll (literalExprs ic (front ++ ['/']))
      (.start (front ++ '/' :: v)) m → body.Reaches m m' → '/' ∉ (m'.keep 1 m).rest := by
    intro m m' hm hbody hmem
    obtain ⟨read, hread⟩ := body.lists_ends.ahead hbody
    apply hslash
    rw [← (atValue_of_reaches hm).rest, hread.rest]
    exact List.mem_append_right _ hmem
  rw [reaches_seqs, constrainedExprs, reachesAll_append]
  constructor
  · rintro ⟨m, hm, m₁, ⟨m', hbody, rfl⟩, hq⟩
    exact ⟨m, hm, m', hbody, (reachesAll_endExprs (hend hm hbody)).mp hq⟩
  · rintro ⟨m, hm, m', hbody, rfl⟩
    exact ⟨m, hm, _, ⟨m', hbody, rfl⟩, (reachesAll_endExprs (hend hm hbody)).mpr rfl⟩

/-- The path is read to its end exactly if the body reads the whole of the value; under which indices
    its groups are kept does not matter. -/
theorem readsWhole_constrainedExprs {options : CompileOptions} {front v : List Char}
    {body body' : Expr} (hbody : body.Regrouped body') (hfree : body.startFree = true)
    (hslash : '/' ∉ v) :
    (Expr.seqs (constrainedExprs ic options front body')).ReadsWhole (front ++ '/' :: v) ↔
      body.ReadsWhole v := by
  constructor
  · rintro ⟨q, hq, hend⟩
    obtain ⟨m, hm, m', hm', rfl⟩ := (reaches_constrainedExprs hslash q).mp hq
    have hfree' : body'.startFree = true := hbody.startFree.trans hfree
    obtain ⟨q', hq', hqq⟩ := hbody.symm.reaches hfree' hm' (atValue_of_reaches hm).alike
    exact ⟨q', hq', hqq.rest.symm.trans hend⟩
  · rintro ⟨q, hq, hend⟩
    obtain ⟨m, hm⟩ := (@reachesAll_literalExprs ic _ _ _ (rest_start front v)).1
    obtain ⟨m', hm', hqq⟩ := hbody.reaches hfree hq (atValue_of_reaches hm).alike.symm
    exact ⟨m'.keep 1 m, (reaches_constrainedExprs hslash _).mpr ⟨m, hm, m', hm', rfl⟩,
      hqq.rest.symm.trans hend⟩

/-- At the end of the path the first group is the value. -/
theorem group?_constrainedExprs {options : CompileOptions} {front v : List Char} {body : Expr}
    (hslash : '/' ∉ v) {q : Cursor}
    (hq : (Expr.seqs (constrainedExprs ic options front body)).Reaches
      (.start (front ++ '/' :: v)) q) (hend : q.rest = []) : q.group? 1 = some v := by
  obtain ⟨m, hm, m', hbody, rfl⟩ := (reaches_constrainedExprs hslash q).mp hq
  have hvalue := atValue_of_reaches hm
  obtain ⟨read, hread⟩ := body.lists_ends.ahead hbody
  have hall : v = read := by
    have hrest : m'.rest = [] := hend
    rw [← hvalue.rest, hread.rest, hrest, List.append_nil]
  have hlength : m'.offset - m.offset = v.length := by
    rw [hread.offset, hall]
    omega
  change some (m.rest.take (m'.offset - m.offset)) = some v
  rw [hvalue.rest, hlength, List.take_length]

end RequestRouter.Spec

namespace RequestRouter.Pattern

open RequestRouter.Regex RequestRouter.Spec RequestRouter.Unicode

/-- Groups without a key add splats only. -/
theorem get?_collect_none (found : Cursor) (name : String) {others : List Slot}
    (h : ∀ slot ∈ others, slot = none) (params : Params) (index : Nat) :
    (collect found params index others).get? name = params.get? name := by
  induction others generalizing params index with
  | nil => rfl
  | cons slot others ih =>
    obtain rfl := h slot List.mem_cons_self
    rw [collect, ih fun slot hslot => h slot (List.mem_cons_of_mem _ hslot)]
    cases found.group? index <;> rfl

/-- **A constraint that closes its groups at its end only is the whole capture of its parameter.**
    Behind characters that mean themselves and do not repeat a slash, a path with one more segment
    matches exactly if the body of the constraint, which does not ask for the start of the text, reads
    the whole of the segment; the parameter is then the segment. -/
theorem captures_constrained {options : CompileOptions} {front name body : String} {p : Pattern}
    {e : Expr} (hfront : ∀ c ∈ front.toList, Element.Literal c)
    (hcollapsed : Path.collapse (front ++ "/") = front ++ "/") (hname : name ≠ "")
    (hword : ∀ c ∈ name.toList, isWord c = true) (hclosing : ClosesLast body.toList)
    (hline : '\n' ∉ body.toList)
    (hbody : parse { ignoreCase := !options.caseSensitive } body.toList = .ok e)
    (hfree : e.startFree = true)
    (hcompile : compile options (front ++ "/:" ++ name ++ "(" ++ body ++ ")") = .ok p)
    {v : String} (hslash : '/' ∉ v.toList) :
    ((p.captures (front ++ "/" ++ v)).isSome ↔ e.ReadsWhole v.toList) ∧
      ∀ params, p.captures (front ++ "/" ++ v) = some params → params.get? name = some v := by
  have hspec : front ++ "/:" ++ name ++ "(" ++ body ++ ")" =
      String.ofList (front.toList ++ (constrained name.toList body.toList).text) := by
    apply String.toList_inj.mp
    simp [text_constrained]
  have hpath : Path.collapseChars (front ++ "/" ++ v).toList = front.toList ++ '/' :: v.toList := by
    have hfront' := congrArg String.toList hcollapsed
    simp only [Path.collapse, String.toList_ofList, String.toList_append] at hfront'
    simpa using Path.collapseChars_append hfront' hslash
  have hname' : name.toList ≠ [] := by simpa using hname
  rw [hspec] at hcompile
  obtain ⟨hexpr, others, hslots, hothers⟩ :=
    expr_constrained hfront hname' hword hclosing hline hbody hcompile
  obtain ⟨hfound, hsome⟩ := find_anchored_reads (.seqs (constrainedExprs (!options.caseSensitive)
    options front.toList (e.moved 1))) (front.toList ++ '/' :: v.toList)
  unfold captures
  rw [hpath, hexpr, hslots]
  constructor
  · rw [Option.isSome_map, hsome]
    exact readsWhole_constrainedExprs (e.regrouped_moved 1) hfree hslash
  · intro params hparams
    obtain ⟨found, hfind, rfl⟩ := Option.map_eq_some_iff.mp hparams
    obtain ⟨hreaches, hend⟩ := hfound found hfind
    have hgroup := group?_constrainedExprs hslash hreaches hend
    rw [collect, get?_collect_none found name hothers]
    simp [hgroup, addGroup, Params.pushNamed, Params.addNamed, Params.empty, Params.get?,
      Params.getAll]

theorem exists_of_isSome_toOption {ε α : Type} {x : Except ε α} (h : x.toOption.isSome = true) :
    ∃ a, x = .ok a := by
  cases x with
  | error e => cases h
  | ok a => exact ⟨a, rfl⟩

/-- A body that is read whole, found by running it between two anchors. -/
theorem exists_readsWhole {flags : Flags} {body v : List Char}
    (h : (parse flags body).toOption.any (fun e =>
      e.startFree && ((anchoredExpr e).find v).isSome) = true) :
    ∃ e, parse flags body = .ok e ∧ e.startFree = true ∧ e.ReadsWhole v := by
  cases hparse : parse flags body with
  | error e =>
    rw [hparse] at h
    cases h
  | ok e =>
    rw [hparse] at h
    obtain ⟨hfree, hfound⟩ := (Bool.and_eq_true _ _).mp h
    exact ⟨e, rfl, hfree, (find_anchored_reads e v).2.mp hfound⟩

/-- Alternatives of different lengths behind a segment with a dot, without groups and in groups of
    their own. -/
theorem captures_constrained_branches :
    (∃ p e, compile {} "/v.1/:id(a|b[cd])" = .ok p ∧
      parse { ignoreCase := true } "a|b[cd]".toList = .ok e ∧ e.ReadsWhole "Bd".toList ∧
      ((p.captures "/v.1/Bd").isSome ↔ e.ReadsWhole "Bd".toList) ∧
      ∀ params, p.captures "/v.1/Bd" = some params → params.get? "id" = some "Bd") ∧
    ∃ p e, compile {} "/v.1/:id((?:a|b(c|d)))" = .ok p ∧
      parse { ignoreCase := true } "(?:a|b(c|d))".toList = .ok e ∧ e.ReadsWhole "Bd".toList ∧
      ((p.captures "/v.1/Bd").isSome ↔ e.ReadsWhole "Bd".toList) ∧
      ∀ params, p.captures "/v.1/Bd" = some params → params.get? "id" = some "Bd" := by
  have hfront : ∀ c ∈ "/v.1".toList, Element.Literal c := by simp [Element.Literal]
  have hword : ∀ c ∈ "id".toList, isWord c = true := List.all_eq_true.mp (by decide)
  constructor
  · obtain ⟨p, hcompile⟩ := @exists_of_isSome_toOption _ _ (compile {} "/v.1/:id(a|b[cd])") (by decide)
    obtain ⟨e, hparse, hfree, hwhole⟩ :=
      @exists_readsWhole { ignoreCase := true } "a|b[cd]".toList "Bd".toList (by decide)
    have h := @captures_constrained {} "/v.1" "id" "a|b[cd]" p e hfront (by decide) (by decide) hword
      (.of_not_mem (by simp)) (by simp) hparse hfree hcompile "Bd" (by simp)
    exact ⟨p, e, hcompile, hparse, hwhole, h⟩
  · obtain ⟨p, hcompile⟩ :=
      @exists_of_isSome_toOption _ _ (compile {} "/v.1/:id((?:a|b(c|d)))") (by decide)
    obtain ⟨e, hparse, hfree, hwhole⟩ :=
      @exists_readsWhole { ignoreCase := true } "(?:a|b(c|d))".toList "Bd".toList (by decide)
    have hclosing : ClosesLast "(?:a|b(c|d))".toList :=
      ⟨⟨"(?:a|b(c|d".toList, 2, by decide, by decide⟩, .inl (by decide)⟩
    have h := @captures_constrained {} "/v.1" "id" "(?:a|b(c|d))" p e hfront (by decide) (by decide)
      hword hclosing (by simp) hparse hfree hcompile "Bd" (by simp)
    exact ⟨p, e, hcompile, hparse, hwhole, h⟩

/-- A constraint with a group of its own is cut behind that group: the body reads the whole of the
    value, and the parameter is only its first character. -/
theorem captures_constrained_cut :
    ∃ p e, compile {} "/:n((a|b)c)" = .ok p ∧
      parse { ignoreCase := true } "(a|b)c".toList = .ok e ∧ e.ReadsWhole "ac".toList ∧
      (p.captures "/ac").bind (·.get? "n") = some "a" := by
  obtain ⟨e, hparse, -, hwhole⟩ :=
    @exists_readsWhole { ignoreCase := true } "(a|b)c".toList "ac".toList (by decide)
  have hget : ((compile {} "/:n((a|b)c)").toOption.bind fun p =>
      (p.captures "/ac").bind (·.get? "n")) = some "a" := by decide
  cases hcompile : compile {} "/:n((a|b)c)" with
  | error e =>
    rw [hcompile] at hget
    cases hget
  | ok p =>
    rw [hcompile] at hget
    exact ⟨p, e, rfl, hparse, hwhole, hget⟩

end RequestRouter.Pattern
