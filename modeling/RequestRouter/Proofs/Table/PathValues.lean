/-
  RequestRouter/Proofs/Table/PathValues.lean
  ==========================================
  **Values written into a target come back as parameters.**

  A target is made for a route of texts and parameters by writing a percent-encoded value for each
  parameter.  The request has the path with the values themselves (`path_ofTarget`): its target is cut
  at no question mark of a value, decoded once, and no slash of it is repeated.  The route serves this
  path and takes the values, and every callback of the dispatch can bind them by their names in any
  ASCII case (`dispatch_pathValues`).
-/
import RequestRouter.Proofs.Http.Percent
import RequestRouter.Proofs.Pattern.Segments
import RequestRouter.Proofs.Table.Duplicates
import RequestRouter.Proofs.Table.Trace

namespace RequestRouter

open RequestRouter.Http RequestRouter.Text RequestRouter.Unicode

/-! ### Targets of routes -/

namespace Pattern

/-- A text of unreserved characters, or a parameter. -/
def Segment.Addressable : Segment → Prop
  | .literal cs => cs ≠ [] ∧ ∀ c ∈ cs, isUnreserved c = true
  | .named name => name ≠ [] ∧ ∀ c ∈ name, isWord c = true
  | .digits => False

variable (value : String → String)

/-- The piece of a path with the value of a parameter. -/
def Segment.filled : Segment → List Char
  | .named name => (value (String.ofList name)).toList
  | segment => segment.text

/-- The piece as it is written in a target. -/
def Segment.written : Segment → List Char
  | .named name => percentEncode (value (String.ofList name)).toList
  | segment => segment.text

/-- The target for a route and values of its parameters. -/
def targetOf (segments : List Segment) : String :=
  String.ofList (slashed (segments.map (Segment.written value)))

variable {value : String → String} {segments : List Segment}

theorem isUnreserved_literal {c : Char} (h : isUnreserved c = true) :
    c ≠ '/' ∧ Spec.Element.Literal c := by
  constructor
  · rintro rfl
    exact absurd h (by decide)
  · intro hmem
    simp only [List.mem_cons, List.not_mem_nil, or_false] at hmem
    rcases hmem with rfl | rfl | rfl | rfl | rfl | rfl | rfl | rfl | rfl | rfl | rfl | rfl | rfl | rfl <;>
      exact absurd h (by decide)

theorem Segment.Addressable.wellFormed {segment : Segment} (h : segment.Addressable) :
    segment.WellFormed := by
  cases segment with
  | literal cs => exact ⟨h.1, fun c hc => isUnreserved_literal (h.2 c hc)⟩
  | named name => exact h
  | digits => exact h.elim

theorem Segment.Addressable.written {segment : Segment} (h : segment.Addressable) :
    segment.written value = percentEncode (segment.filled value) := by
  cases segment with
  | literal cs => exact (percentEncode_of_unreserved h.2).symm
  | named name => rfl
  | digits => exact h.elim

/-- What the values of a route have to be: not empty, and without a slash. -/
def ValuesFit (value : String → String) (segments : List Segment) : Prop :=
  ∀ name ∈ namesOf segments, (value name).toList ≠ [] ∧ '/' ∉ (value name).toList

theorem filled_solid (hsegments : ∀ s ∈ segments, s.Addressable) (hvalues : ValuesFit value segments)
    {segment : Segment} (hmem : segment ∈ segments) :
    segment.filled value ≠ [] ∧ '/' ∉ segment.filled value := by
  have hsegment := hsegments segment hmem
  cases segment with
  | literal cs =>
    exact ⟨hsegment.1, fun hslash => (isUnreserved_literal (hsegment.2 '/' hslash)).1 rfl⟩
  | named name => exact hvalues _ (List.mem_filterMap.mpr ⟨_, hmem, rfl⟩)
  | digits => exact hsegment.elim

theorem Segment.Addressable.fits {segment : Segment} {ic : Bool} (h : segment.Addressable)
    (hsolid : segment.filled value ≠ [] ∧ '/' ∉ segment.filled value) :
    segment.Fits ic (segment.filled value) := by
  cases segment with
  | literal cs =>
    refine List.forall₂_same.mpr fun c _ => ?_
    cases ic with
    | false => exact beq_self_eq_true c
    | true => exact sameFold_refl c
  | named name => exact hsolid
  | digits => exact h.elim

/-- The pieces with the values fit the segments of the route. -/
theorem forall₂_fits (hsegments : ∀ s ∈ segments, s.Addressable) (hvalues : ValuesFit value segments)
    (ic : Bool) : List.Forall₂ (Segment.Fits ic) segments (segments.map (Segment.filled value)) := by
  rw [List.forall₂_map_right_iff, List.forall₂_same]
  exact fun s hs => (hsegments s hs).fits (filled_solid hsegments hvalues hs)

theorem namedPieces_filled (value : String → String) (segments : List Segment) :
    namedPieces segments (segments.map (Segment.filled value)) =
      (namesOf segments).map fun name => (name, value name) := by
  induction segments with
  | nil => rfl
  | cons segment more ih =>
    cases segment with
    | named name =>
      change (String.ofList name, String.ofList (value (String.ofList name)).toList) ::
        namedPieces more (more.map (Segment.filled value)) = _
      rw [String.ofList_toList, ih]
      rfl
    | literal cs => exact ih
    | digits => exact ih

/-- Under each name stands its value only, in any ASCII case. -/
theorem getAll_segmentParams
    (hdistinct : (namesOf segments).Pairwise fun a b => sameIgnoringCase a b = false) {name : String}
    (hname : name ∈ namesOf segments) {asked : String} (hasked : sameIgnoringCase asked name = true) :
    (segmentParams segments (segments.map (Segment.filled value))).getAll asked = [value name] := by
  rw [segmentParams, Params.getAll_grouped, namedPieces_filled]
  have hentry : (name, value name) ∈ (namesOf segments).map fun name => (name, value name) :=
    List.mem_map_of_mem hname
  refine Params.valuesUnder_of_distinct ?_ hentry hasked
  simpa [List.map_map, Function.comp_def] using hdistinct

end Pattern

/-! ### Requests -/

namespace Http

open Pattern

theorem splitTarget_of_not_mem {target : List Char} (h : '?' ∉ target) :
    Request.splitTarget target = (target, none) := by
  have hnone : target.dropWhile (· != '?') = [] := by
    rw [List.dropWhile_eq_nil_iff]
    intro c hc
    rw [bne_iff_ne]
    rintro rfl
    exact h hc
  rw [Request.splitTarget, hnone]

theorem percentDecode_slashed (pieces : List (List Char)) :
    percentDecode (encode (slashed (pieces.map percentEncode))) = encode (slashed pieces) := by
  induction pieces with
  | nil => rfl
  | cons s pieces ih =>
    change percentDecode (encode ('/' :: (percentEncode s ++ slashed (pieces.map percentEncode)))) =
      encode ('/' :: (s ++ slashed pieces))
    have hslash : ∀ cs : List Char, encode ('/' :: cs) = 47 :: encode cs := fun _ => rfl
    rw [hslash, hslash, encode_append, encode_append, percentDecode_cons_of_ne (by decide),
      percentDecode_percentEncode, ih]

variable {value : String → String} {segments : List Segment}

/-- **The path of a target is that of the values.** -/
theorem path_ofTarget (hne : segments ≠ []) (hsegments : ∀ s ∈ segments, s.Addressable)
    (method : String) : (Request.ofTarget method (targetOf value segments)).path =
      String.ofList (slashed (segments.map (Segment.filled value))) := by
  have hwritten : segments.map (Segment.written value) =
      (segments.map (Segment.filled value)).map percentEncode := by
    rw [List.map_map]
    exact List.map_congr_left fun s hs => (hsegments s hs).written
  have hmark : '?' ∉ (targetOf value segments).toList := by
    rw [targetOf, String.toList_ofList, hwritten]
    intro hmem
    obtain ⟨piece, hpiece, hchar⟩ := List.mem_flatMap.mp hmem
    obtain ⟨text, -, rfl⟩ := List.mem_map.mp hpiece
    rcases List.mem_cons.mp hchar with hslash | hchar
    · exact absurd hslash (by decide)
    · rcases of_mem_percentEncode hchar with hpercent | hunreserved
      · exact absurd hpercent (by decide)
      · exact absurd hunreserved (by decide)
  have hfull : (targetOf value segments).toList.isEmpty = false := by
    cases segments with
    | nil => exact absurd rfl hne
    | cons s more => rw [targetOf, String.toList_ofList]; rfl
  rw [Request.ofTarget, splitTarget_of_not_mem hmark]
  simp only [hfull, Bool.false_eq_true, if_false]
  rw [decodePath, targetOf, String.toList_ofList, hwritten, percentDecode_slashed, decodeLossy_encode]

end Http

/-! ### Dispatches -/

theorem Exchange.bind_text {x : Exchange} {m : RouteMatch} (hmatched : x.matched = some m)
    {name value : String} (hvalue : m.params.getAll name = [value]) :
    x.bind ⟨.one, .text⟩ (.path name) = .ok (.one (.text value)) := by
  simp only [Exchange.bind, Exchange.values, Exchange.pathValues, hmatched, hvalue,
    ArgumentType.bind, ScalarType.bindOne, ScalarType.read]
  rfl

namespace Table

open Pattern

variable {S : Type}

/-- The only endpoint of a verb, found through a path that its pattern matches. -/
theorem endpointFor?_of_only {t : Table S} {e : Endpoint S} {request : Request} {params : Params}
    (honly : t.endpointsOf e.route.verb = [e])
    (hmethod : Verb.ofText? request.method = some e.route.verb)
    (hcaptures : e.route.pattern.captures request.path = some params) :
    t.endpointFor? request = some (e, params) := by
  rw [endpointFor?, verb_of_ofText? hmethod]
  change firstMatch request.path (t.endpointsOf e.route.verb) = _
  rw [honly, firstMatch, hcaptures]

/-- **Values come back from a target.**  Whatever a fresh table was asked to do, let it be sealed and
    have one route for a verb, whose spec consists of texts of unreserved characters and of parameters
    with distinct names.  Take any values for the parameters that are not empty and hold no slash, and
    write them percent-encoded into a target.  The request for this target is served by the route.
    The callbacks of its dispatch are invoked in their phases `b`, `h`, `a`, `c` and `f`, the handler
    in `h`; and each of them that binds a parameter as a text, by its name in any ASCII case, is given
    the value. -/
theorem dispatch_pathValues (options : TableOptions) (calls : List (Call S))
    {segments : List Segment} {e : Endpoint S} {value : String → String} {method : String}
    (hne : segments ≠ []) (hsegments : ∀ s ∈ segments, s.Addressable)
    (hdistinct : (namesOf segments).Pairwise fun a b => sameIgnoringCase a b = false)
    (hvalues : ValuesFit value segments)
    (hsealed : ((empty options).run calls).isSealed = true)
    (honly : ((empty options).run calls).endpointsOf e.route.verb = [e])
    (hspec : e.route.spec = specOf segments) (hmethod : Verb.ofText? method = some e.route.verb)
    (s : S) :
    let t := (empty options).run calls
    let request := Request.ofTarget method (targetOf value segments)
    (∃ params, t.endpointFor? request = some (e, params)) ∧
      ∃ b h a c f,
        (t.logged.dispatch (Exchange.ofRequest request) (s, [])).state.2 = b ++ h ++ a ++ c ++ f ∧
        Phases (t.applicable e request.path .before) e.handler
          (t.applicable e request.path .after) b h a ∧
        ∀ v ∈ b ++ h ++ a ++ c ++ f, ∀ name ∈ namesOf segments, ∀ asked,
          sameIgnoringCase asked name = true →
            v.exchange.bind ⟨.one, .text⟩ (.path asked) = .ok (.one (.text (value name))) := by
  intro t request
  have hcompiled : CompiledUnder options t :=
    (keeps_compiledUnder options).run ⟨rfl, fun _ he => absurd he List.not_mem_nil⟩ calls
  have he : e ∈ t.endpoints := by
    have hmem : e ∈ t.endpointsOf e.route.verb := by rw [honly]; exact List.mem_singleton_self e
    exact List.mem_of_mem_filter hmem
  have hpattern := hcompiled.patterns e he
  rw [hspec] at hpattern
  -- The path consists of the pieces with the values, so the route takes them.
  have hpath : request.path = String.ofList (slashed (segments.map (Segment.filled value))) :=
    path_ofTarget hne hsegments method
  have hcollapsed : (Path.collapse request.path).toList =
      slashed (segments.map (Segment.filled value)) := by
    rw [hpath, Path.collapse, String.toList_ofList, String.toList_ofList, collapseChars_slashed]
    intro piece hpiece
    obtain ⟨segment, hsegment, rfl⟩ := List.mem_map.mp hpiece
    exact filled_solid hsegments hvalues hsegment
  have hcaptures : e.route.pattern.captures request.path =
      some (segmentParams segments (segments.map (Segment.filled value))) := by
    refine (captures_specOf (fun s hs => (hsegments s hs).wellFormed) hpattern _ _).mpr ?_
    exact ⟨_, [], forall₂_fits hsegments hvalues _, by rw [hcollapsed, List.append_nil], Or.inl rfl, rfl⟩
  have hfound : t.endpointFor? request =
      some (e, segmentParams segments (segments.map (Segment.filled value))) :=
    endpointFor?_of_only honly hmethod hcaptures
  refine ⟨⟨_, hfound⟩, ?_⟩
  -- All callbacks are given what was matched.
  have hdispatch := dispatch_logged_of_found hsealed (x := Exchange.ofRequest request) hfound s []
  obtain ⟨b, h, a, c, f, response, s', hlog, hthreads, hphases, -, hthreads', -⟩ :=
    serve_traces (t.plan e request.path) e.route.target.qualified
      ⟨request, Http.Response.empty,
        some ⟨e.route, segmentParams segments (segments.map (Segment.filled value))⟩⟩ s []
  have hstate := congrArg (fun d => d.state.2) (hdispatch.trans hlog)
  refine ⟨b, h, a, c, f, hstate, hphases, ?_⟩
  intro v hv name hname asked hasked
  have hmatched : v.exchange.matched =
      some ⟨e.route, segmentParams segments (segments.map (Segment.filled value))⟩ := by
    rcases List.mem_append.mp hv with hv | hv
    · exact hthreads.matched hv
    · exact hthreads'.matched hv
  exact Exchange.bind_text hmatched (getAll_segmentParams hdistinct hname hasked)

/-- Files by name and tag. -/
def fileSegments : List Segment :=
  [.literal "files".toList, .named "name".toList, .literal "v1.0".toList, .named "tag".toList]

/-- Values with characters that mean something in a target. -/
def fileValue (name : String) : String := if name = "name" then "50%?+\n." else "\u00fc %2F"

def fileCalls : List (Call Unit) :=
  [.register ⟨.get, "/files/:name/v1.0/:tag", ⟨"Files", "show"⟩, Left.done .pass⟩, .normalize]

def fileTable : Table Unit := (empty ⟨{}, false⟩).run fileCalls

/-- A request for a file with these values. -/
def fileRequest : Request := Request.ofTarget "GET" (targetOf fileValue fileSegments)

/-- The handler of a file is given name and tag as they were before they were written. -/
theorem dispatch_pathValues_file :
    targetOf fileValue fileSegments = "/files/50%25%3F%2B%0A./v1.0/%C3%BC%20%252F" ∧
      ∃ e b h a c f, fileTable.endpointsOf .get = [e] ∧
        (fileTable.logged.dispatch (Exchange.ofRequest fileRequest) ((), [])).state.2 =
          b ++ h ++ a ++ c ++ f ∧
        Phases (fileTable.applicable e fileRequest.path .before) e.handler
          (fileTable.applicable e fileRequest.path .after) b h a ∧
        ∀ v ∈ b ++ h ++ a ++ c ++ f,
          v.exchange.bind ⟨.one, .text⟩ (.path "Name") = .ok (.one (.text "50%?+\n.")) ∧
          v.exchange.bind ⟨.one, .text⟩ (.path "tag") = .ok (.one (.text "\u00fc %2F")) := by
  unfold fileTable fileRequest
  have hroutes : (((empty ⟨{}, false⟩).run fileCalls).endpointsOf .get).map (fun e => (e.route.verb, e.route.spec)) =
      [(.get, specOf fileSegments)] := by decide +kernel
  obtain ⟨e, honly, hroute⟩ := List.map_eq_singleton_iff.mp hroutes
  obtain ⟨hverb, hspec⟩ := Prod.mk.inj hroute
  have hne : fileSegments ≠ [] := List.cons_ne_nil _ _
  have hsegments : ∀ s ∈ fileSegments, s.Addressable := by
    intro s hs
    simp only [fileSegments, List.mem_cons, List.not_mem_nil, or_false] at hs
    rcases hs with rfl | rfl | rfl | rfl
    · exact ⟨by decide, List.all_eq_true.mp (by decide)⟩
    · exact ⟨by decide, List.all_eq_true.mp (by decide +kernel)⟩
    · exact ⟨by decide, List.all_eq_true.mp (by decide)⟩
    · exact ⟨by decide, List.all_eq_true.mp (by decide +kernel)⟩
  have hdistinct : (namesOf fileSegments).Pairwise fun a b => sameIgnoringCase a b = false := by
    decide +kernel
  have hvalues : ValuesFit fileValue fileSegments := by
    unfold ValuesFit
    decide +kernel
  have hsealed : ((empty ⟨{}, false⟩).run fileCalls).isSealed = true := by decide +kernel
  have hget : Verb.ofText? "GET" = some e.route.verb := by rw [hverb]; decide
  rw [← hverb] at honly
  obtain ⟨-, b, h, a, c, f, hlog, hphases, hbind⟩ := dispatch_pathValues ⟨{}, false⟩ fileCalls
    hne hsegments hdistinct hvalues hsealed honly hspec hget ()
  rw [hverb] at honly
  have hname : fileValue "name" = "50%?+\n." := if_pos rfl
  have htag : fileValue "tag" = "\u00fc %2F" := if_neg (by decide)
  refine ⟨by decide +kernel, e, b, h, a, c, f, honly, hlog, hphases, ?_⟩
  intro v hv
  rw [← hname, ← htag]
  have hmem : "name" ∈ namesOf fileSegments ∧ "tag" ∈ namesOf fileSegments := by decide +kernel
  exact ⟨hbind v hv "name" hmem.1 "Name" (by decide), hbind v hv "tag" hmem.2 "tag" (by decide)⟩

end Table

end RequestRouter
