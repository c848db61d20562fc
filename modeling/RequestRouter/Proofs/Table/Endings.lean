/-
  RequestRouter/Proofs/Table/Endings.lean
  =======================================
  **What callbacks write does not decide how a dispatch ends.**

  Two callbacks end alike if they come to the same result and the same state whatever has been written
  before them; what they write themselves is left open (`EndsAlike`).  The relation is carried from
  callbacks through the chains and the phases to plans (`Plan.Alike.serve`), and from declarations
  through the building of tables to dispatches (`Table.Alike.dispatch`): tables of callbacks that end
  alike dispatch every request to the same end and the same state, however their responses differ.
-/
import Mathlib.Data.List.Forall2
import RequestRouter.Controller
import RequestRouter.Proofs.Table.Trace

namespace RequestRouter

open RequestRouter.Http

variable {S α β : Type}

/-! ### Callbacks -/

/-- The callbacks come to the same result and the same state for exchanges that differ in their
    responses only. -/
def EndsAlike (f g : Callback S α) : Prop :=
  ∀ x y s, x.request = y.request → x.matched = y.matched →
    (f x s).result = (g y s).result ∧ (f x s).state = (g y s).state

theorem EndsAlike.done (a : α) : EndsAlike (Left.done a : Callback S α) (Left.done a) :=
  fun _ _ _ _ _ => ⟨rfl, rfl⟩

theorem EndsAlike.andThen {f g : Callback S α} {next next' : α → Callback S β}
    (h : EndsAlike f g) (hnext : ∀ a, EndsAlike (next a) (next' a)) :
    EndsAlike (fun x s => (f x s).andThen x next) (fun x s => (g x s).andThen x next') := by
  intro x y s hrequest hmatched
  obtain ⟨hresult, hstate⟩ := h x y s hrequest hmatched
  cases hf : (f x s).result with
  | error e =>
    have hg : (g y s).result = .error e := hresult.symm.trans hf
    simp only [Left.andThen_of_error hf, Left.andThen_of_error hg]
    exact ⟨trivial, hstate⟩
  | ok a =>
    have hg : (g y s).result = .ok a := hresult.symm.trans hf
    simp only [Left.andThen_of_ok hf, Left.andThen_of_ok hg, hstate]
    exact hnext a _ _ _ hrequest hmatched

/-- The interceptors are the same but for their callbacks, and these end alike. -/
structure Interceptor.Alike (i j : Interceptor S) : Prop where
  same : { i with call := j.call } = j
  call : ∀ failure, EndsAlike (i.call failure) (j.call failure)

namespace Interceptor.Alike

variable {i j : Interceptor S}

theorem kind (h : i.Alike j) : i.kind = j.kind := by rw [← h.same]

theorem priority (h : i.Alike j) : i.priority = j.priority := by rw [← h.same]

theorem appliesTo (h : i.Alike j) (target : Target) (path : String) :
    i.appliesTo target path = j.appliesTo target path := by
  rw [← h.same]
  rfl

theorem handles (h : i.Alike j) (failure : Failure) : i.handles failure = j.handles failure := by
  rw [← h.same]
  rfl

end Interceptor.Alike

/-! ### Chains -/

section Chains

variable {is js : List (Interceptor S)}

theorem runBefore_alike (h : List.Forall₂ Interceptor.Alike is js) :
    EndsAlike (Plan.runBefore is) (Plan.runBefore js) := by
  induction h with
  | nil => exact .done _
  | cons hij hmore ih =>
    refine (hij.call none).andThen ?_
    intro outcome
    cases outcome with
    | reply reply => exact .done _
    | pass => exact ih

theorem runAfter_alike (h : List.Forall₂ Interceptor.Alike is js) (reply : Reply) :
    EndsAlike (Plan.runAfter reply is) (Plan.runAfter reply js) := by
  induction h generalizing reply with
  | nil => exact .done _
  | cons hij hmore ih => exact (hij.call none).andThen fun outcome => ih (outcome.replyOr reply)

theorem runConclude_alike (h : List.Forall₂ Interceptor.Alike is js) (failure : Option Failure) :
    EndsAlike (Plan.runConclude failure is) (Plan.runConclude failure js) := by
  induction h with
  | nil => exact .done _
  | cons hij hmore ih => exact (hij.call failure).andThen fun _ => ih

/-- Of both chains the interceptors at the same place recover. -/
theorem find?_alike (h : List.Forall₂ Interceptor.Alike is js) (failure : Failure) :
    Option.Rel Interceptor.Alike (is.find? (·.handles failure)) (js.find? (·.handles failure)) := by
  induction h with
  | nil => exact .none
  | @cons i j is js hij hmore ih =>
    rw [List.find?_cons, List.find?_cons, hij.handles failure]
    cases j.handles failure with
    | true => exact .some hij
    | false => exact ih

end Chains

/-! ### Plans -/

/-- The plans run callbacks that end alike. -/
structure Plan.Alike (p q : Plan S) : Prop where
  before : List.Forall₂ Interceptor.Alike p.before q.before
  handler : EndsAlike p.handler q.handler
  after : List.Forall₂ Interceptor.Alike p.after q.after
  recover : List.Forall₂ Interceptor.Alike p.recover q.recover
  conclude : List.Forall₂ Interceptor.Alike p.conclude q.conclude

namespace Plan.Alike

variable {p q : Plan S}

theorem run (h : p.Alike q) : EndsAlike p.run q.run := by
  refine (runBefore_alike h.before).andThen ?_
  intro outcome
  cases outcome with
  | reply reply => exact .done _
  | pass => exact h.handler.andThen fun outcome => runAfter_alike h.after _

theorem settle (h : p.Alike q) {x y : Exchange} (hrequest : x.request = y.request)
    (hmatched : x.matched = y.matched) (s : S) :
    (p.settle x s).settled = (q.settle y s).settled ∧
      (p.settle x s).state = (q.settle y s).state := by
  obtain ⟨hresult, hstate⟩ := h.run x y s hrequest hmatched
  cases hp : (p.run x s).result with
  | ok reply =>
    have hq : (q.run y s).result = .ok reply := hresult.symm.trans hp
    rw [settle_of_ok hp, settle_of_ok hq]
    exact ⟨rfl, hstate⟩
  | error failure =>
    have hq : (q.run y s).result = .error failure := hresult.symm.trans hp
    have hrescuer : Option.Rel Interceptor.Alike (p.rescuer? failure) (q.rescuer? failure) :=
      find?_alike h.recover failure
    cases hi : p.rescuer? failure with
    | none =>
      rw [hi] at hrescuer
      have hj : q.rescuer? failure = none := by
        cases hj : q.rescuer? failure with
        | none => rfl
        | some j => rw [hj] at hrescuer; cases hrescuer
      rw [settle_of_unrescued hp hi, settle_of_unrescued hq hj]
      exact ⟨rfl, hstate⟩
    | some i =>
      rw [hi] at hrescuer
      cases hj : q.rescuer? failure with
      | none => rw [hj] at hrescuer; cases hrescuer
      | some j =>
        rw [hj] at hrescuer
        cases hrescuer with
        | some hij =>
          obtain ⟨hrescued, hleft⟩ := hij.call (some failure)
            (x.withResponse (p.run x s).response) (y.withResponse (q.run y s).response)
            (p.run x s).state hrequest hmatched
          rw [settle_of_rescued hp hi rfl, settle_of_rescued hq hj rfl, ← hstate]
          exact ⟨by simp only [hrescued], hleft⟩

/-- **Plans of callbacks that end alike serve alike**: with the same result and the same state. -/
theorem serve (h : p.Alike q) (action : String) {x y : Exchange} (hrequest : x.request = y.request)
    (hmatched : x.matched = y.matched) (s : S) :
    (p.serve action x s).result = (q.serve action y s).result ∧
      (p.serve action x s).state = (q.serve action y s).state := by
  obtain ⟨hsettled, hstate⟩ := h.settle hrequest hmatched s
  obtain ⟨hresult, hleft⟩ := runConclude_alike h.conclude (p.settle x s).settled.failure?
    (x.withResponse (written (p.settle x s))) (y.withResponse (written (q.settle y s)))
    (p.settle x s).state hrequest hmatched
  unfold Plan.serve
  simp only [← hsettled, ← hstate, hresult, hleft]
  exact ⟨trivial, trivial⟩

end Plan.Alike

/-! ### Tables -/

/-- The endpoints have the same route, and their handlers end alike. -/
structure Endpoint.Alike (e f : Endpoint S) : Prop where
  route : e.route = f.route
  handler : EndsAlike e.handler f.handler

/-- The interceptors end alike and are attached to the same controller. -/
structure Attachment.Alike (a b : Attachment S) : Prop where
  controller : a.controller = b.controller
  interceptor : a.interceptor.Alike b.interceptor

/-- The tables are the same but for callbacks that end alike. -/
structure Table.Alike (t u : Table S) : Prop where
  options : t.options = u.options
  endpoints : List.Forall₂ Endpoint.Alike t.endpoints u.endpoints
  attachments : List.Forall₂ Attachment.Alike t.attachments u.attachments
  isSealed : t.isSealed = u.isSealed

/-- A test that cannot tell members apart keeps those at the same places. -/
theorem filter_alike {R : α → β → Prop} {p : α → Bool} {q : β → Bool}
    (hpq : ∀ {a b}, R a b → p a = q b) {as : List α} {bs : List β} (h : List.Forall₂ R as bs) :
    List.Forall₂ R (as.filter p) (bs.filter q) :=
  List.rel_filter (fun a b hab => by simp only [hpq hab]) h

namespace Table.Alike

variable {t u : Table S}

theorem chain (h : t.Alike u) (controller : String) (kind : InterceptorKind) :
    List.Forall₂ Interceptor.Alike (t.chain controller kind) (u.chain controller kind) := by
  have hown : List.Forall₂ Attachment.Alike (t.attachments.filter (·.controller == controller))
      (u.attachments.filter (·.controller == controller)) :=
    filter_alike (fun hab => by rw [hab.controller]) h.attachments
  refine List.rel_filterMap ?_ hown
  intro a b hab
  simp only [hab.interceptor.kind]
  split
  · exact .some hab.interceptor
  · exact .none

theorem applicable (h : t.Alike u) {e f : Endpoint S} (hef : e.Alike f) (path : String)
    (kind : InterceptorKind) :
    List.Forall₂ Interceptor.Alike (t.applicable e path kind) (u.applicable f path kind) := by
  unfold Table.applicable
  rw [hef.route]
  exact filter_alike (fun hij => hij.appliesTo _ _) (h.chain _ _)

theorem plan (h : t.Alike u) {e f : Endpoint S} (hef : e.Alike f) (path : String) :
    (t.plan e path).Alike (u.plan f path) := by
  rw [plan_eq, plan_eq]
  refine ⟨h.applicable hef path _, hef.handler, h.applicable hef path _, ?_,
    h.applicable hef path _⟩
  rw [hef.route]
  exact h.chain _ _

/-- A request is served by endpoints at the same place, with the same parameters. -/
theorem firstMatch {es fs : List (Endpoint S)} (h : List.Forall₂ Endpoint.Alike es fs)
    (path : String) :
    Option.Rel (fun m n => m.1.Alike n.1 ∧ m.2 = n.2) (Table.firstMatch path es)
      (Table.firstMatch path fs) := by
  induction h with
  | nil => exact .none
  | @cons e f es fs hef hmore ih =>
    rw [Table.firstMatch, Table.firstMatch, hef.route]
    cases f.route.pattern.captures path with
    | none => exact ih
    | some params => exact .some ⟨hef, rfl⟩

theorem endpointFor? (h : t.Alike u) (request : Request) :
    Option.Rel (fun m n => m.1.Alike n.1 ∧ m.2 = n.2) (t.endpointFor? request)
      (u.endpointFor? request) := by
  unfold Table.endpointFor?
  cases request.verb with
  | error e => exact .none
  | ok verb =>
    exact firstMatch (filter_alike (fun hef => by rw [hef.route]) h.endpoints) _

/-- **Tables of callbacks that end alike dispatch alike**: every request with the same result and to
    the same state. -/
theorem dispatch (h : t.Alike u) {x y : Exchange} (hrequest : x.request = y.request) (s : S) :
    (t.dispatch x s).result = (u.dispatch y s).result ∧
      (t.dispatch x s).state = (u.dispatch y s).state := by
  cases hsealed : t.isSealed with
  | false =>
    have hsealed' : u.isSealed = false := h.isSealed.symm.trans hsealed
    rw [dispatch_of_open hsealed, dispatch_of_open hsealed']
    exact ⟨rfl, rfl⟩
  | true =>
    have hsealed' : u.isSealed = true := h.isSealed.symm.trans hsealed
    have hfound := h.endpointFor? x.request
    cases ht : t.endpointFor? x.request with
    | none =>
      rw [ht] at hfound
      have hu : u.endpointFor? y.request = none := by
        rw [← hrequest]
        cases hu : u.endpointFor? x.request with
        | none => rfl
        | some n => rw [hu] at hfound; cases hfound
      rw [dispatch_of_endpointFor_none hsealed ht, dispatch_of_endpointFor_none hsealed' hu]
      exact ⟨rfl, rfl⟩
    | some m =>
      rw [ht] at hfound
      cases hu : u.endpointFor? x.request with
      | none => rw [hu] at hfound; cases hfound
      | some n =>
        rw [hu] at hfound
        obtain ⟨e, params⟩ := m
        obtain ⟨f, params'⟩ := n
        cases hfound with
        | some hef =>
          obtain ⟨hef, hparams⟩ := hef
          obtain rfl : params = params' := hparams
          have hpath : y.request.path = x.request.path := by rw [hrequest]
          have hroute : f.route = e.route := hef.route.symm
          let x' : Exchange := { x with matched := some ⟨e.route, params⟩ }
          let y' : Exchange := { y with matched := some ⟨e.route, params⟩ }
          rw [dispatch_of_found hsealed ht, dispatch_of_found hsealed' (hrequest ▸ hu), hpath, hroute]
          exact (h.plan hef x.request.path).serve _ (x := x') (y := y') hrequest rfl s

end Table.Alike

/-! ### Controllers -/

/-- The declarations are the same but for handlers that end alike. -/
structure Declaration.Alike (d d' : Declaration S) : Prop where
  verbs : d.verbs = d'.verbs
  paths : d.paths = d'.paths
  action : d.action = d'.action
  handler : EndsAlike d.handler d'.handler

/-- The controllers are the same but for callbacks that end alike. -/
structure Controller.Alike (c c' : Controller S) : Prop where
  name : c.name = c'.name
  basePaths : c.basePaths = c'.basePaths
  declarations : List.Forall₂ Declaration.Alike c.declarations c'.declarations
  interceptors : List.Forall₂ Interceptor.Alike c.interceptors c'.interceptors

/-- The registrations are the same but for handlers that end alike. -/
structure Registration.Alike (r r' : Registration S) : Prop where
  verb : r.verb = r'.verb
  spec : r.spec = r'.spec
  target : r.target = r'.target
  handler : EndsAlike r.handler r'.handler

theorem Controller.Alike.registrations {c c' : Controller S} (h : c.Alike c') :
    List.Forall₂ Registration.Alike c.registrations c'.registrations := by
  refine List.rel_flatMap h.declarations ?_
  intro d d' hd
  have hspecs : c.specs d.paths = c'.specs d'.paths := by
    rw [Controller.specs, Controller.specs, h.basePaths, hd.paths]
  unfold Controller.expand
  rw [hspecs, hd.verbs]
  refine List.rel_flatMap (List.forall₂_same.mpr fun _ _ => rfl) ?_
  rintro spec _ rfl
  refine List.rel_map ?_ (List.forall₂_same.mpr fun _ _ => rfl)
  rintro verb _ rfl
  exact ⟨rfl, rfl, by rw [h.name, hd.action], hd.handler⟩

/-! ### Building tables -/

theorem Table.Alike.empty (options : TableOptions) :
    (Table.empty options : Table S).Alike (Table.empty options) := ⟨rfl, .nil, .nil, rfl⟩

namespace Table.Alike

variable {t u : Table S}

theorem contains (h : t.Alike u) (verb : Verb) (spec : String) :
    t.contains verb spec = u.contains verb spec := by
  have hany : ∀ {es fs : List (Endpoint S)}, List.Forall₂ Endpoint.Alike es fs →
      es.any (·.route.hasKey verb spec) = fs.any (·.route.hasKey verb spec) := by
    intro es fs hes
    induction hes with
    | nil => rfl
    | cons hef hmore ih => rw [List.any_cons, List.any_cons, hef.route, ih]
  exact hany h.endpoints

theorem register (h : t.Alike u) {r r' : Registration S} (hr : r.Alike r') :
    (t.register r.verb r.spec r.target r.handler).1 =
        (u.register r'.verb r'.spec r'.target r'.handler).1 ∧
      (t.register r.verb r.spec r.target r.handler).2.Alike
        (u.register r'.verb r'.spec r'.target r'.handler).2 := by
  unfold Table.register
  rw [h.isSealed, h.options, hr.verb, hr.spec, hr.target, h.contains]
  split
  · exact ⟨rfl, h⟩
  · split
    · split
      · exact ⟨rfl, h⟩
      · exact ⟨rfl, h⟩
    · split
      · exact ⟨rfl, h⟩
      · next route _ =>
        have hadded : Endpoint.Alike ⟨route, r.handler⟩ ⟨route, r'.handler⟩ := ⟨rfl, hr.handler⟩
        exact ⟨rfl, rfl, List.rel_append h.endpoints (.cons hadded .nil), h.attachments, rfl⟩

theorem registerAll {rs rs' : List (Registration S)} (hrs : List.Forall₂ Registration.Alike rs rs')
    (h : t.Alike u) : (t.registerAll rs).1 = (u.registerAll rs').1 ∧
      (t.registerAll rs).2.Alike (u.registerAll rs').2 := by
  induction hrs generalizing t u with
  | nil => exact ⟨rfl, h⟩
  | @cons r r' rs rs' hr hmore ih =>
    obtain ⟨hresult, hafter⟩ := h.register hr
    rw [Table.registerAll, Table.registerAll]
    rcases ht : t.register r.verb r.spec r.target r.handler with ⟨result, t'⟩
    rcases hu : u.register r'.verb r'.spec r'.target r'.handler with ⟨result', u'⟩
    rw [ht, hu] at hresult hafter
    obtain rfl : result = result' := hresult
    cases result with
    | error e => exact ⟨rfl, hafter⟩
    | ok added =>
      obtain ⟨hrest, hlast⟩ := ih hafter
      exact ⟨by simp only [hrest], hlast⟩

theorem attachAll {is js : List (Interceptor S)} (his : List.Forall₂ Interceptor.Alike is js)
    (h : t.Alike u) (controller : String) :
    (t.attachAll controller is).1 = (u.attachAll controller js).1 ∧
      (t.attachAll controller is).2.Alike (u.attachAll controller js).2 := by
  induction his generalizing t u with
  | nil => exact ⟨rfl, h⟩
  | @cons i j is js hij hmore ih =>
    have hname : i.name = j.name := by rw [← hij.same]
    rw [Table.attachAll, Table.attachAll, Table.attach, Table.attach, h.isSealed, hname]
    cases u.isSealed with
    | true => exact ⟨rfl, h⟩
    | false =>
      have hadded : Attachment.Alike ⟨controller, i⟩ ⟨controller, j⟩ := ⟨rfl, hij⟩
      exact ih ⟨h.options, h.endpoints, List.rel_append h.attachments (.cons hadded .nil), rfl⟩

theorem install {c c' : Controller S} (hc : c.Alike c') (h : t.Alike u) :
    (t.install c).1 = (u.install c').1 ∧ (t.install c).2.Alike (u.install c').2 := by
  obtain ⟨hresult, hafter⟩ := registerAll hc.registrations h
  rw [Table.install, Table.install, hc.name]
  rcases ht : t.registerAll c.registrations with ⟨result, t'⟩
  rcases hu : u.registerAll c'.registrations with ⟨result', u'⟩
  rw [ht, hu] at hresult hafter
  obtain rfl : result = result' := hresult
  cases result with
  | error e => exact ⟨rfl, hafter⟩
  | ok added =>
    obtain ⟨hattached, hlast⟩ := attachAll hc.interceptors hafter c'.name
    simp only
    rcases ht' : t'.attachAll c'.name c.interceptors with ⟨attached, t''⟩
    rcases hu' : u'.attachAll c'.name c'.interceptors with ⟨attached', u''⟩
    rw [ht', hu'] at hattached hlast
    obtain rfl : attached = attached' := hattached
    cases attached with
    | error e => exact ⟨rfl, hlast⟩
    | ok _ => exact ⟨rfl, hlast⟩

theorem insertAttachment {a b : Attachment S} (hab : a.Alike b) {as bs : List (Attachment S)}
    (h : List.Forall₂ Attachment.Alike as bs) :
    List.Forall₂ Attachment.Alike (Table.insertAttachment a as) (Table.insertAttachment b bs) := by
  induction h with
  | nil => exact .cons hab .nil
  | cons hcd hmore ih =>
    rw [Table.insertAttachment, Table.insertAttachment, hab.interceptor.priority,
      hcd.interceptor.priority]
    split
    · exact .cons hab (.cons hcd hmore)
    · exact .cons hcd ih

theorem sortAttachments {as bs : List (Attachment S)} (h : List.Forall₂ Attachment.Alike as bs) :
    List.Forall₂ Attachment.Alike (Table.sortAttachments as) (Table.sortAttachments bs) := by
  induction h with
  | nil => exact .nil
  | cons hab hmore ih => exact insertAttachment hab ih

theorem normalize (h : t.Alike u) : t.normalize.Alike u.normalize := by
  unfold Table.normalize
  rw [h.isSealed]
  split
  · exact h
  · refine ⟨h.options, ?_, sortAttachments h.attachments, rfl⟩
    have hstatic := filter_alike (fun {e f} (hef : Endpoint.Alike e f) =>
      congrArg (fun r : Route => !r.isDynamic) hef.route) h.endpoints
    have hdynamic := filter_alike (fun {e f} (hef : Endpoint.Alike e f) =>
      congrArg (fun r : Route => r.isDynamic) hef.route) h.endpoints
    exact List.rel_append hstatic hdynamic

end Table.Alike

/-- Tables that are built or refused for the same reason. -/
def BuiltAlike (built built' : Except RouteError (Table S)) : Prop :=
  match built, built' with
  | .ok t, .ok u => t.Alike u
  | .error e, .error e' => e = e'
  | _, _ => False

theorem installAll_alike {cs cs' : List (Controller S)} (hcs : List.Forall₂ Controller.Alike cs cs')
    {t u : Table S} (h : t.Alike u) : BuiltAlike (t.installAll cs) (u.installAll cs') := by
  induction hcs generalizing t u with
  | nil => exact h
  | @cons c c' cs cs' hc hmore ih =>
    obtain ⟨hresult, hafter⟩ := h.install hc
    rw [Table.installAll, Table.installAll]
    rcases ht : t.install c with ⟨result, t'⟩
    rcases hu : u.install c' with ⟨result', u'⟩
    rw [ht, hu] at hresult hafter
    obtain rfl : result = result' := hresult
    cases result with
    | error e => exact rfl
    | ok added => exact ih hafter

/-- **Controllers of callbacks that end alike build tables of such callbacks**, or none for the same
    reason. -/
theorem ofControllers_alike {cs cs' : List (Controller S)}
    (hcs : List.Forall₂ Controller.Alike cs cs') (options : TableOptions) :
    BuiltAlike (Table.ofControllers options cs) (Table.ofControllers options cs') := by
  have hinstalled := installAll_alike hcs (Table.Alike.empty options)
  unfold Table.ofControllers
  cases ht : (Table.empty options).installAll cs with
  | error e =>
    cases hu : (Table.empty options).installAll cs' with
    | error e' => rw [ht, hu] at hinstalled; exact hinstalled
    | ok u => rw [ht, hu] at hinstalled; cases hinstalled
  | ok t =>
    cases hu : (Table.empty options).installAll cs' with
    | error e' => rw [ht, hu] at hinstalled; cases hinstalled
    | ok u =>
      rw [ht, hu] at hinstalled
      exact Table.Alike.normalize hinstalled

end RequestRouter
