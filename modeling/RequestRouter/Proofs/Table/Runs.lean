/-
  RequestRouter/Proofs/Table/Runs.lean
  ====================================
  **What holds of a table after any run of calls.**

  A table is declared by registering routes, attaching interceptors and installing controllers, and
  then sealed.  Installing is nothing but registering and attaching up to the first error, so whatever
  registering, attaching and sealing keep is kept by every run (`Keeps.run`).  What they keep is
  `WellFormed`: no route is there twice, slots and capture groups agree, and a sealed table is in its
  order.  A call that adds nothing changes nothing, and nothing changes a sealed table.
-/
import Mathlib.Data.List.Sort
import RequestRouter.Proofs.Table.History

namespace RequestRouter.Table

variable {S : Type}

/-! ### Calls -/

/-- What a table is asked to do. -/
inductive Call (S : Type) where
  | register (r : Registration S)
  | attach (controller : String) (interceptor : Interceptor S)
  | install (c : Controller S)
  | normalize

def perform (t : Table S) : Call S → Table S
  | .register r => (t.register r.verb r.spec r.target r.handler).2
  | .attach controller interceptor => (t.attach controller interceptor).2
  | .install c => (t.install c).2
  | .normalize => t.normalize

/-- The table after calls, whatever each of them answered. -/
def run (t : Table S) (calls : List (Call S)) : Table S := calls.foldl perform t

/-- What registering routes up to the first error is answered, route by route. -/
def answersAll (t : Table S) : List (Registration S) → List (Except RouteError Bool)
  | [] => []
  | r :: more =>
    match t.register r.verb r.spec r.target r.handler with
    | (.error e, _) => [.error e]
    | (.ok added, t) => .ok added :: t.answersAll more

/-- The answers to the registrations that a call makes. -/
def answers (t : Table S) : Call S → List (Except RouteError Bool)
  | .register r => [(t.register r.verb r.spec r.target r.handler).1]
  | .install c => t.answersAll c.registrations
  | .attach .. | .normalize => []

/-- The answers to all registrations that calls make. -/
def answersOf (t : Table S) : List (Call S) → List (Except RouteError Bool)
  | [] => []
  | call :: more => t.answers call ++ (t.perform call).answersOf more

/-- The answer that a route was added. -/
def isAdded : Except RouteError Bool → Bool
  | .ok true => true
  | _ => false

theorem isAdded_eq_false {answer : Except RouteError Bool} (h : answer ≠ .ok true) :
    isAdded answer = false := by
  cases answer with
  | error e => rfl
  | ok added =>
    cases added with
    | true => exact absurd rfl h
    | false => rfl

/-- What registering does to any table: nothing, or the table is open and the route comes last. -/
theorem register_unchanged_or_added (t : Table S) (verb : Verb) (spec : String) (target : Target)
    (handler : Callback S Outcome) :
    ((t.register verb spec target handler).1 ≠ .ok true ∧
      (t.register verb spec target handler).2 = t) ∨
    (t.isSealed = false ∧ t.contains verb spec = false ∧
      ∃ route, Route.compile t.options.compile verb spec target = .ok route ∧
        t.register verb spec target handler =
          (.ok true, { t with endpoints := t.endpoints ++ [⟨route, handler⟩] })) := by
  by_cases hadded : (t.register verb spec target handler).1 = .ok true
  · have hopen : t.isSealed = false := by
      rw [← Bool.not_eq_true]
      intro hsealed
      rw [register_of_sealed hsealed] at hadded
      cases hadded
    rcases register_cases hopen verb spec target handler with
      ⟨-, hr⟩ | ⟨-, e, -, hr⟩ | ⟨hnew, hadds⟩
    · rw [hr] at hadded
      simp only at hadded
      split at hadded <;> cases hadded
    · rw [hr] at hadded
      cases hadded
    · exact Or.inr ⟨hopen, hnew, hadds⟩
  · exact Or.inl ⟨hadded, register_snd_of_ne_true hadded⟩

/-! ### What a run keeps -/

/-- A property of tables that registering, attaching and sealing keep. -/
structure Keeps (P : Table S → Prop) : Prop where
  register : ∀ {t : Table S}, P t → ∀ verb spec target handler,
    P (t.register verb spec target handler).2
  attach : ∀ {t : Table S}, P t → ∀ controller interceptor, P (t.attach controller interceptor).2
  normalize : ∀ {t : Table S}, P t → P t.normalize

theorem Keeps.registerAll {P : Table S → Prop} (hP : Keeps P) {t : Table S} (h : P t)
    (rs : List (Registration S)) : P (t.registerAll rs).2 := by
  induction rs generalizing t with
  | nil => exact h
  | cons r more ih =>
    have hafter := hP.register h r.verb r.spec r.target r.handler
    rw [Table.registerAll]
    rcases hr : t.register r.verb r.spec r.target r.handler with ⟨answer, after⟩
    rw [hr] at hafter
    cases answer with
    | error e => exact hafter
    | ok added => exact ih hafter

/-- What attaching keeps is kept by attaching interceptors up to the first error. -/
theorem attachAll_keeps {P : Table S → Prop}
    (hP : ∀ {t : Table S}, P t → ∀ controller i, P (t.attach controller i).2) {t : Table S} (h : P t)
    (controller : String) (is : List (Interceptor S)) : P (t.attachAll controller is).2 := by
  induction is generalizing t with
  | nil => exact h
  | cons i more ih =>
    have hafter := hP h controller i
    rw [Table.attachAll]
    rcases hi : t.attach controller i with ⟨answer, after⟩
    rw [hi] at hafter
    cases answer with
    | error e => exact hafter
    | ok u => exact ih hafter

/-- Installing registers the routes and, if none of them is an error, attaches the interceptors. -/
theorem install_snd (t : Table S) (c : Controller S) :
    (t.install c).2 = (t.registerAll c.registrations).2 ∨
      (t.install c).2 = ((t.registerAll c.registrations).2.attachAll c.name c.interceptors).2 := by
  rw [Table.install]
  rcases t.registerAll c.registrations with ⟨answer, after⟩
  cases answer with
  | error e => exact Or.inl rfl
  | ok added =>
    refine Or.inr ?_
    simp only
    rcases after.attachAll c.name c.interceptors with ⟨answer', after'⟩
    cases answer' with
    | error e => rfl
    | ok u => rfl

theorem Keeps.install {P : Table S → Prop} (hP : Keeps P) {t : Table S} (h : P t)
    (c : Controller S) : P (t.install c).2 := by
  have hroutes := hP.registerAll h c.registrations
  rcases install_snd t c with hafter | hafter
  · rw [hafter]
    exact hroutes
  · rw [hafter]
    exact attachAll_keeps hP.attach hroutes c.name c.interceptors

theorem Keeps.perform {P : Table S → Prop} (hP : Keeps P) {t : Table S} (h : P t)
    (call : Call S) : P (t.perform call) := by
  cases call with
  | register r => exact hP.register h r.verb r.spec r.target r.handler
  | attach controller i => exact hP.attach h controller i
  | install c => exact hP.install h c
  | normalize => exact hP.normalize h

/-- What registering, attaching and sealing keep holds after every run if it holds before. -/
theorem Keeps.run {P : Table S → Prop} (hP : Keeps P) {t : Table S} (h : P t)
    (calls : List (Call S)) : P (t.run calls) := by
  induction calls generalizing t with
  | nil => exact h
  | cons call more ih => exact ih (hP.perform h call)

/-! ### Sealed tables -/

theorem normalize_of_sealed {t : Table S} (h : t.isSealed = true) : t.normalize = t := by
  rw [normalize, if_pos h]

/-- A sealed table takes no interceptor. -/
theorem attach_of_sealed {t : Table S} (h : t.isSealed = true) (controller : String)
    (i : Interceptor S) : t.attach controller i =
      (.error (.tableSealed ("interceptor " ++ i.name ++ " on " ++ controller)), t) := by
  rw [attach, if_pos h]

/-- Being a certain sealed table is kept. -/
theorem keeps_eq_of_sealed {t : Table S} (h : t.isSealed = true) : Keeps (· = t) where
  register := by
    rintro _ rfl verb spec target handler
    rw [register_of_sealed h]
  attach := by
    rintro _ rfl controller i
    rw [attach_of_sealed h]
  normalize := by
    rintro _ rfl
    exact normalize_of_sealed h

/-- Nothing changes a sealed table. -/
theorem run_of_sealed {t : Table S} (h : t.isSealed = true) (calls : List (Call S)) :
    t.run calls = t :=
  (keeps_eq_of_sealed h).run rfl calls

theorem isSealed_run {t : Table S} {calls : List (Call S)} (h : .normalize ∈ calls) :
    (t.run calls).isSealed = true := by
  induction calls generalizing t with
  | nil => cases h
  | cons call more ih =>
    rcases List.mem_cons.mp h with rfl | h
    · change (t.normalize.run more).isSealed = true
      rw [run_of_sealed (isSealed_normalize t), isSealed_normalize]
    · exact ih h

/-! ### Controllers of different routes -/

/-- The endpoint that a registration adds. -/
structure Adds (options : CompileOptions) (r : Registration S) (e : Endpoint S) : Prop where
  compiles : Route.compile options r.verb r.spec r.target = .ok e.route
  handler : e.handler = r.handler

/-- An open table takes all interceptors. -/
theorem attachAll_of_open {t : Table S} (hopen : t.isSealed = false) (controller : String)
    (is : List (Interceptor S)) : t.attachAll controller is =
      (.ok (), { t with attachments := t.attachments ++ is.map (⟨controller, ·⟩) }) := by
  induction is generalizing t with
  | nil => rw [attachAll, List.map_nil, List.append_nil]
  | cons i more ih =>
    have hattach : t.attach controller i =
        (.ok (), { t with attachments := t.attachments ++ [⟨controller, i⟩] }) := by
      rw [attach, hopen, if_neg Bool.false_ne_true]
    have hmore := @ih { t with attachments := t.attachments ++ [⟨controller, i⟩] } hopen
    rw [attachAll, hattach]
    simp only [hmore, List.append_assoc, List.singleton_append, List.map_cons]

theorem perm_staticFirst (endpoints : List (Endpoint S)) : (staticFirst endpoints).Perm endpoints := by
  have h := List.filter_append_perm (·.route.isDynamic) endpoints
  exact List.perm_append_comm.trans h

theorem pairwise_staticFirst (endpoints : List (Endpoint S)) :
    (staticFirst endpoints).Pairwise fun e e' => e.route.isDynamic → e'.route.isDynamic := by
  rw [staticFirst, List.pairwise_append]
  refine ⟨?_, ?_, ?_⟩
  · apply List.pairwise_of_forall_mem_list
    intro e he e' _ hdynamic
    simp [hdynamic] at he
  · apply List.pairwise_of_forall_mem_list
    intro e _ e' he' _
    exact (List.mem_filter.mp he').2
  · intro e he e' he' _
    exact (List.mem_filter.mp he').2

/-- An attachment runs no later than another. -/
def NoLater (a b : Attachment S) : Prop := a.interceptor.priority ≤ b.interceptor.priority

instance : DecidableRel (NoLater (S := S)) := fun _ _ => Int.decLe _ _

theorem insertAttachment_eq (a : Attachment S) (as : List (Attachment S)) :
    insertAttachment a as = as.orderedInsert NoLater a := by
  induction as with
  | nil => rfl
  | cons b more ih =>
    rw [insertAttachment, List.orderedInsert_cons, ih]
    rfl

theorem sortAttachments_eq (as : List (Attachment S)) :
    sortAttachments as = as.insertionSort NoLater := by
  induction as with
  | nil => rfl
  | cons a more ih => rw [sortAttachments, ih, insertAttachment_eq, List.insertionSort_cons]

theorem pairwise_sortAttachments (as : List (Attachment S)) :
    (sortAttachments as).Pairwise NoLater := by
  have : Std.Total (NoLater (S := S)) := ⟨fun a b => Int.le_total _ _⟩
  have : IsTrans (Attachment S) NoLater := ⟨fun a b c => Int.le_trans⟩
  rw [sortAttachments_eq]
  exact List.pairwise_insertionSort NoLater as

/-! ### Well-formed tables -/

/-- What every run keeps of a table. -/
structure WellFormed (t : Table S) : Prop where
  /-- No two routes are known by the same verb and path spec. -/
  apart : t.endpoints.Pairwise fun e e' => ¬ e.route.sameKey e'.route = true
  /-- Routes have one slot for each capture group. -/
  aligned : ∀ e ∈ t.endpoints, e.route.pattern.expr.groupCount = e.route.pattern.slots.length
  staticFirst : t.isSealed = true →
    t.endpoints.Pairwise fun e e' => e.route.isDynamic → e'.route.isDynamic
  ascending : t.isSealed = true → t.attachments.Pairwise NoLater

theorem wellFormed_empty (options : TableOptions) : (empty options : Table S).WellFormed :=
  ⟨.nil, fun _ h => absurd h List.not_mem_nil, (by simp [empty]), (by simp [empty])⟩

theorem groupCount_of_routeCompile {options : CompileOptions} {verb : Verb} {spec : String}
    {target : Target} {r : Route} (h : Route.compile options verb spec target = .ok r) :
    r.pattern.expr.groupCount = r.pattern.slots.length := by
  unfold Route.compile at h
  split at h
  · next pattern hpattern =>
    cases h
    exact Pattern.groupCount_of_compile hpattern
  · cases h

theorem WellFormed.register {t : Table S} (h : t.WellFormed) (verb : Verb) (spec : String)
    (target : Target) (handler : Callback S Outcome) :
    (t.register verb spec target handler).2.WellFormed := by
  rcases register_unchanged_or_added t verb spec target handler with
    ⟨-, hsame⟩ | ⟨hopen, hnew, route, hcompile, hr⟩
  · rw [hsame]
    exact h
  · rw [hr]
    obtain ⟨hverb, hspec, -⟩ := Route.of_compile hcompile
    refine ⟨?_, ?_, fun hs => ?_, fun hs => ?_⟩
    · rw [List.pairwise_append]
      refine ⟨h.apart, List.pairwise_singleton _ _, ?_⟩
      intro e he e' he'
      obtain rfl := List.mem_singleton.mp he'
      have hmiss : ¬ e.route.hasKey verb spec = true := List.any_eq_false.mp hnew e he
      rwa [Route.sameKey, hverb, hspec]
    · intro e he
      rcases List.mem_append.mp he with he | he
      · exact h.aligned e he
      · obtain rfl := List.mem_singleton.mp he
        exact groupCount_of_routeCompile hcompile
    · exact absurd hs (by simp [hopen])
    · exact absurd hs (by simp [hopen])

theorem WellFormed.attach {t : Table S} (h : t.WellFormed) (controller : String)
    (i : Interceptor S) : (t.attach controller i).2.WellFormed := by
  unfold Table.attach
  split
  · exact h
  · next hopen =>
    exact ⟨h.apart, h.aligned, fun hs => absurd hs hopen, fun hs => absurd hs hopen⟩

theorem WellFormed.normalize {t : Table S} (h : t.WellFormed) : t.normalize.WellFormed := by
  unfold Table.normalize
  split
  · exact h
  · refine ⟨?_, ?_, fun _ => pairwise_staticFirst _, fun _ => pairwise_sortAttachments _⟩
    · refine (perm_staticFirst t.endpoints).symm.pairwise h.apart ?_
      intro e e' hne
      rwa [Route.sameKey_comm]
    · intro e he
      exact h.aligned e ((perm_staticFirst t.endpoints).mem_iff.mp he)

theorem keeps_wellFormed : Keeps (WellFormed (S := S)) :=
  ⟨fun h => h.register, fun h => h.attach, fun h => h.normalize⟩

/-! ### Counting -/

theorem size_register (t : Table S) (verb : Verb) (spec : String) (target : Target)
    (handler : Callback S Outcome) : (t.register verb spec target handler).2.size =
      t.size + [(t.register verb spec target handler).1].countP isAdded := by
  rcases register_unchanged_or_added t verb spec target handler with
    ⟨hanswer, hsame⟩ | ⟨-, -, route, -, hr⟩
  · rw [hsame]
    simp [isAdded_eq_false hanswer]
  · rw [hr]
    simp [size, isAdded]

theorem size_registerAll (t : Table S) (rs : List (Registration S)) :
    (t.registerAll rs).2.size = t.size + (t.answersAll rs).countP isAdded := by
  induction rs generalizing t with
  | nil => rfl
  | cons r more ih =>
    have hsize := size_register t r.verb r.spec r.target r.handler
    rw [registerAll, answersAll]
    rcases hr : t.register r.verb r.spec r.target r.handler with ⟨answer, after⟩
    rw [hr] at hsize
    cases answer with
    | error e => exact hsize
    | ok added =>
      simp only [ih after]
      change _ = t.size + ([Except.ok added] ++ after.answersAll more).countP isAdded
      rw [List.countP_append, ← Nat.add_assoc]
      exact congrArg (· + _) hsize

theorem size_attach (t : Table S) (controller : String) (i : Interceptor S) :
    (t.attach controller i).2.size = t.size := by
  unfold attach
  split <;> rfl

theorem size_install (t : Table S) (c : Controller S) :
    (t.install c).2.size = (t.registerAll c.registrations).2.size := by
  rcases install_snd t c with hafter | hafter
  · rw [hafter]
  · rw [hafter]
    apply attachAll_keeps
      (P := fun after => after.size = (t.registerAll c.registrations).2.size) _ rfl
    intro after hsize controller i
    exact (size_attach after controller i).trans hsize

theorem size_normalize (t : Table S) : t.normalize.size = t.size := by
  unfold normalize
  split
  · rfl
  · exact (perm_staticFirst t.endpoints).length_eq

theorem size_perform (t : Table S) (call : Call S) :
    (t.perform call).size = t.size + (t.answers call).countP isAdded := by
  cases call with
  | register r => exact size_register t r.verb r.spec r.target r.handler
  | attach controller i => exact size_attach t controller i
  | install c => exact (size_install t c).trans (size_registerAll t c.registrations)
  | normalize => exact size_normalize t

/-- A table holds the routes that it was answered were added. -/
theorem size_run (t : Table S) (calls : List (Call S)) :
    (t.run calls).size = t.size + (t.answersOf calls).countP isAdded := by
  induction calls generalizing t with
  | nil => rfl
  | cons call more ih =>
    change ((t.perform call).run more).size = _
    rw [ih, size_perform, answersOf, List.countP_append, Nat.add_assoc]

/-! ### A table of one route -/

/-- Declares a route, then interceptors of its controller, and seals the table. -/
def singleCalls (r : Registration S) (is : List (Interceptor S)) : List (Call S) :=
  .register r :: (is.map (.attach r.target.controller) ++ [.normalize])

theorem run_attach {t : Table S} (hopen : t.isSealed = false) (controller : String)
    (is : List (Interceptor S)) : t.run (is.map (.attach controller)) =
      { t with attachments := t.attachments ++ is.map (⟨controller, ·⟩) } := by
  have hattached : t.run (is.map (.attach controller)) = (t.attachAll controller is).2 := by
    induction is generalizing t with
    | nil => rfl
    | cons i more ih =>
      have hattach : t.attach controller i =
          (.ok (), { t with attachments := t.attachments ++ [⟨controller, i⟩] }) := by
        rw [attach, hopen, if_neg Bool.false_ne_true]
      have hafter : (t.attach controller i).2.isSealed = false := by rw [hattach]; exact hopen
      have hmore := ih hafter
      rw [attachAll]
      rw [hattach] at hmore ⊢
      rw [← hmore, List.map_cons, run, List.foldl_cons, perform, hattach]
      rfl
  rw [hattached, attachAll_of_open hopen]

/-- A sealed table of one route holds that route, and its interceptors by priority. -/
theorem run_singleCalls {options : TableOptions} {r : Registration S} {route : Route}
    (h : Route.compile options.compile r.verb r.spec r.target = .ok route)
    (is : List (Interceptor S)) :
    (empty options).run (singleCalls r is) = ⟨options, [⟨route, r.handler⟩],
      sortAttachments (is.map (⟨r.target.controller, ·⟩)), true⟩ := by
  have hregister : (empty options).perform (.register r) =
      ⟨options, [⟨route, r.handler⟩], [], false⟩ := by
    simp [perform, register, empty, contains, h]
  have hattach := @run_attach _ ⟨options, [⟨route, r.handler⟩], [], false⟩ rfl
    r.target.controller is
  rw [run] at hattach ⊢
  rw [singleCalls, List.foldl_cons, hregister, List.foldl_append, hattach, List.foldl_cons,
    List.foldl_nil, perform, normalize, if_neg Bool.false_ne_true]
  cases hdynamic : route.isDynamic <;> simp [staticFirst, hdynamic]

/-! ### Runs -/

theorem mem_routesOf {t : Table S} {verb : Verb} {r : Route} :
    r ∈ t.routesOf verb ↔ ∃ e ∈ t.endpoints, e.route = r ∧ r.verb = verb := by
  unfold routesOf endpointsOf
  constructor
  · intro h
    obtain ⟨e, he, rfl⟩ := List.mem_map.mp h
    obtain ⟨hmem, hverb⟩ := List.mem_filter.mp he
    exact ⟨e, hmem, rfl, eq_of_beq hverb⟩
  · rintro ⟨e, he, rfl, hverb⟩
    exact List.mem_map_of_mem (List.mem_filter.mpr ⟨he, by simp [hverb]⟩)

theorem pairwise_routesOf {t : Table S} {R : Route → Route → Prop}
    (h : t.endpoints.Pairwise fun e e' => R e.route e'.route) (verb : Verb) :
    (t.routesOf verb).Pairwise R :=
  List.pairwise_map.mpr (h.filter _)

theorem pairwise_chain {t : Table S} (h : t.attachments.Pairwise NoLater) (controller : String)
    (kind : InterceptorKind) :
    (t.chain controller kind).Pairwise fun i i' => i.priority ≤ i'.priority := by
  refine (h.filter _).filterMap _ ?_
  intro a a' hle i hi i' hi'
  split at hi
  · split at hi'
    · obtain rfl := Option.some.inj hi
      obtain rfl := Option.some.inj hi'
      exact hle
    · cases hi'
  · cases hi

/-- **Tables after any run of calls.**  Whatever a fresh table was asked to do: the routes listed for a
    verb are of that verb, and no two of them have the same path spec, ignoring ASCII case; each route
    has one slot for each capture group; the size is the number of registrations, those of installed
    controllers included, that were answered with `true`; and a registration that is answered with
    anything else leaves the table as it was.  A table that was sealed lists the routes without slots
    before those with slots and runs interceptors by priority; it refuses routes and interceptors, and
    no later call changes it. -/
theorem run_wellFormed (options : TableOptions) (calls : List (Call S)) :
    let t := (empty options).run calls
    (∀ verb, (∀ r ∈ t.routesOf verb, r.verb = verb) ∧
      (t.routesOf verb).Pairwise (fun r r' => ¬ Text.sameIgnoringCase r.spec r'.spec = true) ∧
      ∀ r ∈ t.routesOf verb, r.pattern.expr.groupCount = r.pattern.slots.length) ∧
    t.size = ((empty options).answersOf calls).countP isAdded ∧
    (∀ verb spec target handler, (t.register verb spec target handler).1 ≠ .ok true →
      (t.register verb spec target handler).2 = t) ∧
    (.normalize ∈ calls →
      (∀ verb, (t.routesOf verb).Pairwise
        fun r r' => r.pattern.slots ≠ [] → r'.pattern.slots ≠ []) ∧
      (∀ controller kind, (t.chain controller kind).Pairwise
        fun i i' => i.priority ≤ i'.priority) ∧
      (∀ verb spec target handler, t.register verb spec target handler =
        (.error (.tableSealed ("route " ++ verb.name ++ " " ++ spec)), t)) ∧
      (∀ controller i, t.attach controller i =
        (.error (.tableSealed ("interceptor " ++ i.name ++ " on " ++ controller)), t)) ∧
      ∀ later, t.run later = t) := by
  intro t
  have hwell : t.WellFormed := keeps_wellFormed.run (wellFormed_empty options) calls
  refine ⟨?_, ?_, fun _ _ _ _ => register_snd_of_ne_true, ?_⟩
  · intro verb
    have hverb : ∀ r ∈ t.routesOf verb, r.verb = verb := by
      intro r hr
      obtain ⟨-, -, -, hr⟩ := mem_routesOf.mp hr
      exact hr
    refine ⟨hverb, ?_, ?_⟩
    · refine (pairwise_routesOf (R := fun r r' => ¬ r.sameKey r' = true)
        hwell.apart verb).imp_of_mem ?_
      intro r r' hr hr' hne hsame
      apply hne
      simp [Route.sameKey, Route.hasKey, hverb r hr, hverb r' hr', hsame]
    · intro r hr
      obtain ⟨e, he, rfl, -⟩ := mem_routesOf.mp hr
      exact hwell.aligned e he
  · have hsize := size_run (empty options : Table S) calls
    rw [hsize]
    exact Nat.zero_add _
  · intro hcalls
    have hsealed : t.isSealed = true := isSealed_run hcalls
    refine ⟨?_, pairwise_chain (hwell.ascending hsealed), register_of_sealed hsealed,
      attach_of_sealed hsealed, run_of_sealed hsealed⟩
    intro verb
    refine (pairwise_routesOf (R := fun r r' => r.isDynamic → r'.isDynamic)
      (hwell.staticFirst hsealed) verb).imp ?_
    intro r r' himp
    simpa [Route.isDynamic, Pattern.isDynamic] using himp

/-- Two routes of one verb, one of them declared twice, and two interceptors; then the table is
    sealed. -/
def userCalls : List (Call Unit) :=
  [.register ⟨.get, "/:id", ⟨"Users", "show"⟩, Left.done .pass⟩,
    .register ⟨.get, "/new", ⟨"Users", "new"⟩, Left.done .pass⟩,
    .register ⟨.get, "/NEW", ⟨"Users", "again"⟩, Left.done .pass⟩,
    .attach "Users" ((Interceptor.before "late" (Left.done .pass)).withPriority 5),
    .attach "Users" ((Interceptor.before "soon" (Left.done .pass)).withPriority 1),
    .normalize]

/-- The route without slots has moved to the front, and so has the interceptor that runs first. -/
theorem run_wellFormed_users :
    .normalize ∈ userCalls ∧
      (((empty ⟨{}, false⟩).run userCalls).routesOf .get).map (·.spec) = ["/new", "/:id"] ∧
      (((empty ⟨{}, false⟩).run userCalls).routesOf .get).Pairwise
        (fun r r' => r.pattern.slots ≠ [] → r'.pattern.slots ≠ []) ∧
      (((empty ⟨{}, false⟩).run userCalls).chain "Users" .before).map (·.priority) = [1, 5] ∧
      ((empty ⟨{}, false⟩).answersOf userCalls).countP isAdded = 2 ∧
      ((empty ⟨{}, false⟩).run userCalls).size = 2 ∧
      (∀ later, ((empty ⟨{}, false⟩).run userCalls).run later =
        (empty ⟨{}, false⟩).run userCalls) ∧
      (((empty ⟨{}, false⟩).run userCalls).register .get "/late" ⟨"Users", "late"⟩
        (Left.done .pass)).1 ≠ .ok true ∧
      (((empty ⟨{}, false⟩).run userCalls).register .get "/late" ⟨"Users", "late"⟩
        (Left.done .pass)).2 = (empty ⟨{}, false⟩).run userCalls := by
  have hsealing : .normalize ∈ userCalls := by simp [userCalls]
  obtain ⟨-, hsize, hkept, hsealed⟩ := run_wellFormed ⟨{}, false⟩ userCalls
  obtain ⟨hstatic, -, hregister, -, hlater⟩ := hsealed hsealing
  have hrefused : (((empty ⟨{}, false⟩).run userCalls).register .get "/late" ⟨"Users", "late"⟩
      (Left.done .pass)).1 ≠ .ok true := by
    rw [hregister]
    simp
  have hadded : ((empty ⟨{}, false⟩).answersOf userCalls).countP isAdded = 2 := by decide +kernel
  exact ⟨hsealing, by decide +kernel, hstatic .get, by decide +kernel, hadded, hsize.trans hadded,
    hlater, hrefused, hkept _ _ _ _ hrefused⟩

end RequestRouter.Table
