/-
  RequestRouter/Proofs/Table/OwnPath.lean
  =======================================
  **Interceptors scoped to the path of a literal route.**

  A literal route serves its text in any case and, unless strict, with a slash more or less at its end.
  A path rule is a glob, compared from end to end with the path as the request has it, and of letters
  it ignores the case of the ASCII ones only.  So a rule with the text of the route takes in the
  requests that the route serves, except those with the other ending (`applicable_ownPath`): an
  interceptor only for `/admin` is left out for `/admin/` (`applicable_ownPath_passed_by`).  Repeated
  slashes and the case of other letters, which the route does not see either, are left out of account.
-/
import RequestRouter.Proofs.Glob
import RequestRouter.Proofs.Pattern.Literal
import RequestRouter.Proofs.Table.Duplicates
import RequestRouter.Proofs.Table.Trace

namespace RequestRouter

open RequestRouter.Http RequestRouter.Unicode

/-! ### Texts that differ in case -/

/-- The texts, read side by side, differ in ASCII characters only. -/
def DifferInAscii (cs s : List Char) : Prop :=
  ∀ pair ∈ cs.zip s, pair.1 = pair.2 ∨ pair.1.toNat < 128 ∧ pair.2.toNat < 128

instance (cs s : List Char) : Decidable (DifferInAscii cs s) :=
  List.decidableBAll
    (fun pair : Char × Char => pair.1 = pair.2 ∨ pair.1.toNat < 128 ∧ pair.2.toNat < 128) (cs.zip s)

theorem DifferInAscii.of_append {cs s more more' : List Char}
    (h : DifferInAscii (cs ++ more) (s ++ more')) (hlength : cs.length = s.length) :
    DifferInAscii cs s := by
  intro pair hpair
  apply h
  rw [List.zip_append hlength]
  exact List.mem_append_left _ hpair

/-- Folding makes ASCII letters small. -/
theorem fold_ascii {c : Char} (h : c.toNat < 128) : fold c = c.toLower.toNat := by
  have hall : ∀ n : Fin 128, fold (Char.ofNat n) = (Char.ofNat n).toLower.toNat := by decide +kernel
  have hc := hall ⟨c.toNat, h⟩
  rwa [Char.ofNat_toNat] at hc

theorem toLower_eq_of_sameFold {c d : Char} (h : sameFold c d = true)
    (hascii : c = d ∨ c.toNat < 128 ∧ d.toNat < 128) : c.toLower = d.toLower := by
  rcases hascii with rfl | ⟨hc, hd⟩
  · rfl
  · have hfold : fold c = fold d := eq_of_beq h
    rw [fold_ascii hc, fold_ascii hd] at hfold
    exact Char.toNat_inj.mp hfold

theorem small_eq_of_spells {ic : Bool} {cs s : List Char} (h : Pattern.Spells ic cs s)
    (hascii : ic = true → DifferInAscii cs s) : Text.small cs = Text.small s := by
  induction h with
  | nil => rfl
  | @cons c d cs s hsame hmore ih =>
    have hlower : c.toLower = d.toLower := by
      cases ic with
      | false => rw [eq_of_beq hsame]
      | true => exact toLower_eq_of_sameFold hsame (hascii rfl (c, d) List.mem_cons_self)
    rw [Text.small_cons, Text.small_cons, hlower,
      ih fun hic pair hpair => hascii hic pair (List.mem_cons_of_mem _ hpair)]

/-! ### Scopes of one path -/

/-- The rule of a path, with nothing blank around it and no wildcards in it. -/
theorem admits_ofText {spec : String} (hrooted : spec.toList.head? = some '/')
    (hplain : '*' ∉ spec.toList ∧ '?' ∉ spec.toList) (htrim : Text.trim spec = spec) :
    ∃ rule, ScopeRule.ofText? spec = some rule ∧
      ∀ target path, rule.admits target path = Text.sameIgnoringCase spec path := by
  have hslash : spec.toList.contains '/' = true :=
    List.contains_iff_mem.mpr (List.mem_of_head? hrooted)
  have hsome : spec.toList.isEmpty = false := by
    cases hchars : spec.toList with
    | nil => rw [hchars] at hrooted; cases hrooted
    | cons c cs => rfl
  refine ⟨.path (.ignoringCase spec), ?_, ?_⟩
  · unfold ScopeRule.ofText?
    simp only [htrim, hsome, hslash, hrooted, if_true, Bool.false_eq_true, if_false]
  · intro target path
    rw [Bool.eq_iff_iff, Text.sameIgnoringCase_iff]
    exact (Glob.matchesText_plain hplain).trans eq_comm

theorem admits_only {spec : String} (hrooted : spec.toList.head? = some '/')
    (hplain : '*' ∉ spec.toList ∧ '?' ∉ spec.toList) (htrim : Text.trim spec = spec)
    (target : Target) (path : String) :
    (Scope.ofTexts [spec] []).admits target path = Text.sameIgnoringCase spec path := by
  obtain ⟨rule, hrule, hadmits⟩ := admits_ofText hrooted hplain htrim
  rw [Scope.admits, Scope.ofTexts, List.filterMap_cons_some hrule]
  simp [hadmits]

theorem admits_except {spec : String} (hrooted : spec.toList.head? = some '/')
    (hplain : '*' ∉ spec.toList ∧ '?' ∉ spec.toList) (htrim : Text.trim spec = spec)
    (target : Target) (path : String) :
    (Scope.ofTexts [] [spec]).admits target path = !Text.sameIgnoringCase spec path := by
  obtain ⟨rule, hrule, hadmits⟩ := admits_ofText hrooted hplain htrim
  rw [Scope.admits, Scope.ofTexts, List.filterMap_cons_some hrule]
  simp [hadmits]

/-! ### Paths of a literal route -/

/-- A path that a literal route serves is its text or has the other ending, in any case. -/
theorem sameIgnoringCase_of_captures {options : CompileOptions} {spec path : String} {p : Pattern}
    (hliteral : ∀ c ∈ spec.toList, Spec.Element.Literal c)
    (hp : Pattern.compile options spec = .ok p) (hcaptures : (p.captures path).isSome)
    (hcollapsed : Path.collapse path = path)
    (hascii : options.caseSensitive = false → DifferInAscii spec.toList path.toList) :
    Text.sameIgnoringCase spec path = true ∨ options.strict = false ∧
      (Text.sameIgnoringCase (spec ++ "/") path = true ∨
        Text.sameIgnoringCase spec (path ++ "/") = true) := by
  obtain ⟨body, tail, hspells, hpath, htail⟩ :=
    (Pattern.isSome_captures_literal hliteral hp path).mp hcaptures
  rw [hcollapsed] at hpath
  obtain ⟨rest, hrest, hend⟩ := Pattern.literalBody_append options.strict spec.toList
  have hbody : Text.small (Pattern.literalBody options.strict spec.toList) = Text.small body := by
    apply small_eq_of_spells hspells
    intro hic
    have hdiffer := hascii (by simpa using hic)
    rw [← hrest, hpath] at hdiffer
    exact hdiffer.of_append hspells.length_eq
  have hspec : Text.small spec.toList = Text.small body ++ Text.small rest := by
    rw [← hrest, Text.small_append, hbody]
  have hpath' : Text.small path.toList = Text.small body ++ Text.small tail := by
    rw [hpath, Text.small_append]
  simp only [Text.sameIgnoringCase_iff, String.toList_append]
  change Text.small _ = Text.small _ ∨ _ ∧ (Text.small _ = Text.small _ ∨ Text.small _ = Text.small _)
  rw [Text.small_append, Text.small_append, hspec, hpath']
  -- The path has the ending of the spec or the other one.
  rcases hend with rfl | ⟨hstrict, rfl⟩
  · rcases htail with rfl | ⟨hstrict, rfl⟩
    · exact Or.inl rfl
    · exact Or.inr ⟨hstrict, Or.inl (by rw [Text.small_nil, List.append_nil]; rfl)⟩
  · rcases htail with rfl | ⟨-, rfl⟩
    · exact Or.inr ⟨hstrict, Or.inr (by rw [Text.small_nil, List.append_nil]; rfl)⟩
    · exact Or.inl rfl

/-- A text is not the same as one with more characters. -/
theorem sameIgnoringCase_of_append {a b : String} (h : Text.sameIgnoringCase (a ++ "/") b = true) :
    Text.sameIgnoringCase a b = false := by
  rw [Bool.eq_false_iff]
  intro hsame
  rw [Text.sameIgnoringCase_iff] at h hsame
  have hlength := congrArg List.length (hsame.trans h.symm)
  simp at hlength

/-! ### Interceptors of a route's own path -/

namespace Table

variable {S : Type}

theorem of_firstMatch {path : String} {endpoints : List (Endpoint S)} {e : Endpoint S}
    {params : Params} (h : firstMatch path endpoints = some (e, params)) :
    e ∈ endpoints ∧ e.route.pattern.captures path = some params := by
  induction endpoints with
  | nil => cases h
  | cons first more ih =>
    rw [firstMatch] at h
    split at h
    · next found hfound =>
      cases h
      exact ⟨List.mem_cons_self, hfound⟩
    · obtain ⟨he, hcaptures⟩ := ih h
      exact ⟨List.mem_cons_of_mem _ he, hcaptures⟩

/-- The endpoint that serves a request is one of the table, and its pattern matches the path. -/
theorem of_endpointFor? {t : Table S} {request : Request} {e : Endpoint S} {params : Params}
    (h : t.endpointFor? request = some (e, params)) :
    e ∈ t.endpoints ∧ e.route.pattern.captures request.path = some params := by
  unfold endpointFor? at h
  split at h
  · cases h
  · obtain ⟨he, hcaptures⟩ := of_firstMatch h
    exact ⟨List.mem_of_mem_filter he, hcaptures⟩

/-- **Interceptors scoped to the path of a literal route.**  Whatever a fresh table was asked to do,
    consider a request that it serves by a route whose spec starts with a slash and has neither path
    syntax nor wildcards nor blanks around it.  The path of the request shall have no repeated slashes
    and, if case is ignored, differ from the spec in ASCII characters only.  Then it is the spec, in
    any case, and of the interceptors of the controller those only for the spec apply and those except
    for the spec do not; or, unless strict, it is the spec with a slash more or less at its end, and
    then it is the other way around. -/
theorem applicable_ownPath (options : TableOptions) (calls : List (Call S)) {request : Request}
    {e : Endpoint S} {params : Params}
    (hserved : ((empty options).run calls).endpointFor? request = some (e, params))
    (hrooted : e.route.spec.toList.head? = some '/')
    (hliteral : ∀ c ∈ e.route.spec.toList, Spec.Element.Literal c)
    (htrim : Text.trim e.route.spec = e.route.spec)
    (hcollapsed : Path.collapse request.path = request.path)
    (hascii : options.compile.caseSensitive = false →
      DifferInAscii e.route.spec.toList request.path.toList) :
    let t := (empty options).run calls
    let chain := t.chain e.route.target.controller
    let applicable := t.applicable e request.path
    let only := Scope.ofTexts [e.route.spec] []
    let except := Scope.ofTexts [] [e.route.spec]
    (Text.sameIgnoringCase e.route.spec request.path = true ∧
      ∀ kind, ∀ i ∈ chain kind,
        (i.scope = only → i ∈ applicable kind) ∧ (i.scope = except → i ∉ applicable kind)) ∨
    (options.compile.strict = false ∧
      (Text.sameIgnoringCase (e.route.spec ++ "/") request.path = true ∨
        Text.sameIgnoringCase e.route.spec (request.path ++ "/") = true) ∧
      ∀ kind, ∀ i ∈ chain kind,
        (i.scope = only → i ∉ applicable kind) ∧ (i.scope = except → i ∈ applicable kind)) := by
  intro t chain applicable only except
  have hcompiled : CompiledUnder options t :=
    (keeps_compiledUnder options).run ⟨rfl, fun _ he => absurd he List.not_mem_nil⟩ calls
  obtain ⟨he, hcaptures⟩ := of_endpointFor? hserved
  have hplain : '*' ∉ e.route.spec.toList ∧ '?' ∉ e.route.spec.toList :=
    ⟨fun h => absurd (hliteral _ h) (by decide), fun h => absurd (hliteral _ h) (by decide)⟩
  have hmem : ∀ {kind} {i : Interceptor S}, i ∈ chain kind →
      (i ∈ applicable kind ↔ i.scope.admits e.route.target request.path = true) :=
    fun hi => List.mem_filter.trans (and_iff_right hi)
  have honly := admits_only hrooted hplain htrim e.route.target request.path
  have hexcept := admits_except hrooted hplain htrim e.route.target request.path
  rcases sameIgnoringCase_of_captures hliteral (hcompiled.patterns e he)
    (Option.isSome_iff_exists.mpr ⟨params, hcaptures⟩) hcollapsed hascii with hsame | ⟨hstrict, hother⟩
  · refine Or.inl ⟨hsame, fun kind i hi => ⟨?_, ?_⟩⟩
    · intro hscope
      rw [hmem hi, hscope, honly, hsame]
    · intro hscope
      rw [hmem hi, hscope, hexcept, hsame]
      decide
  · have hmiss : Text.sameIgnoringCase e.route.spec request.path = false := by
      rcases hother with hmore | hless
      · exact sameIgnoringCase_of_append hmore
      · rw [Text.sameIgnoringCase_comm] at hless ⊢
        exact sameIgnoringCase_of_append hless
    refine Or.inr ⟨hstrict, hother, fun kind i hi => ⟨?_, ?_⟩⟩
    · intro hscope
      rw [hmem hi, hscope, honly, hmiss]
      decide
    · intro hscope
      rw [hmem hi, hscope, hexcept, hmiss]
      rfl

/-! ### A route with a guard of its own -/

/-- A route with an interceptor only for its path and one for everything else. -/
def ownPathCalls (spec : String) : List (Call Unit) :=
  [.register ⟨.get, spec, ⟨"Admin", "show"⟩, Left.done .pass⟩,
    .attach "Admin" ((Interceptor.before "guard" (Left.done .pass)).onlyFor [spec]),
    .attach "Admin" ((Interceptor.before "free" (Left.done .pass)).exceptFor [spec]),
    .normalize]

def ownPathTable (options : CompileOptions) (spec : String) : Table Unit :=
  (empty ⟨options, false⟩).run (ownPathCalls spec)

/-- The spec of the route that serves a path, and the interceptors that apply. -/
def appliedAt (options : CompileOptions) (spec path : String) : Option (String × List String) :=
  ((ownPathTable options spec).endpointFor? ⟨"GET", path, [], [], []⟩).map fun m =>
    (m.1.route.spec, ((ownPathTable options spec).applicable m.1 path .before).map (·.name))

/-- The guard applies to the path in capitals. -/
theorem applicable_ownPath_capitals :
    ∃ e params guard, (ownPathTable {} "/admin").endpointFor? ⟨"GET", "/ADMIN", [], [], []⟩ =
        some (e, params) ∧
      e.route.spec = "/admin" ∧ guard.name = "guard" ∧
      guard.scope = Scope.ofTexts ["/admin"] [] ∧
      guard ∈ (ownPathTable {} "/admin").applicable e "/ADMIN" .before := by
  have hfound : ((ownPathTable {} "/admin").endpointFor? ⟨"GET", "/ADMIN", [], [], []⟩).map
      (fun m => (m.1.route.spec, m.1.route.target)) = some ("/admin", ⟨"Admin", "show"⟩) := by
    decide +kernel
  have hchain : ("guard", Scope.ofTexts ["/admin"] []) ∈
      ((ownPathTable {} "/admin").chain "Admin" .before).map fun i => (i.name, i.scope) := by
    decide +kernel
  obtain ⟨⟨e, params⟩, hserved, hroute⟩ := Option.map_eq_some_iff.mp hfound
  obtain ⟨hspec, htarget⟩ := Prod.mk.inj hroute
  obtain ⟨guard, hguard, hpair⟩ := List.mem_map.mp hchain
  obtain ⟨hname, hscope⟩ := Prod.mk.inj hpair
  have hcontroller : e.route.target.controller = "Admin" := congrArg Target.controller htarget
  refine ⟨e, params, guard, hserved, hspec, hname, hscope, ?_⟩
  have hplain : ("/admin".toList.all fun c => decide (Spec.Element.Literal c)) = true := by decide
  have hliteral : ∀ c ∈ "/admin".toList, Spec.Element.Literal c :=
    fun c hc => of_decide_eq_true (List.all_eq_true.mp hplain c hc)
  rcases applicable_ownPath ⟨{}, false⟩ (ownPathCalls "/admin") hserved (by rw [hspec]; decide)
    (by rw [hspec]; exact hliteral) (by rw [hspec]; decide +kernel) (by decide)
    (by rw [hspec]; decide +kernel) with ⟨-, happlies⟩ | ⟨-, hother, -⟩
  · rw [hcontroller, hspec] at happlies
    exact (happlies .before guard hguard).1 hscope
  · rw [hspec] at hother
    exact absurd hother (by decide)

/-- **A guard for a route's own path can be passed by.**  The route `/admin` serves `/admin/`, its text
    with another ending, `//admin`, its text with a slash repeated, and a letter outside ASCII in
    the other case; a blank at the end of its text is no part of the rule.  Each time the guard is
    left out, and the interceptor for everything else applies. -/
theorem applicable_ownPath_passed_by :
    appliedAt {} "/admin" "/admin" = some ("/admin", ["guard"]) ∧
      appliedAt {} "/admin" "/admin/" = some ("/admin", ["free"]) ∧
      appliedAt {} "/admin/" "/admin" = some ("/admin/", ["free"]) ∧
      appliedAt {} "/admin" "//admin" = some ("/admin", ["free"]) ∧
      appliedAt {} "/\u00e9" "/\u00c9" = some ("/\u00e9", ["free"]) ∧
      appliedAt {} "/k" "/\u212a" = some ("/k", ["free"]) ∧
      appliedAt { strict := true } "/admin " "/admin " = some ("/admin ", ["free"]) := by
  decide +kernel

end Table

end RequestRouter
