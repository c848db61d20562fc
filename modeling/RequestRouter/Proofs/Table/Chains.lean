/-
  RequestRouter/Proofs/Table/Chains.lean
  ======================================
  **Chains are the declared interceptors by priority, those of one priority as they were declared.**

  A controller is written down clause by clause (`Outline`).  A clause contributes interceptors to
  it: none for a route, one for an interceptor, and for a group those of the group depth first
  (`Clause.Contributes`).  An open table holds the contributions of the controllers that it was
  answered were installed, in that order (`attachments_run`).  Sealing sorts all of them at once and
  so each chain, and takes no interceptor past another of its priority (`filter_sortAttachments`).
-/
import RequestRouter.Proofs.Table.Runs

namespace RequestRouter

variable {S : Type}

/-! ### What a controller declares -/

/-- The interceptors of a group depth first: its own, then those of its groups from the first on. -/
inductive InterceptorGroup.Lists : InterceptorGroup S → List (Interceptor S) → Prop where
  | mk {name : String} {own : List (Interceptor S)} {groups : List (InterceptorGroup S)}
    {lists : List (List (Interceptor S))} (nested : List.Forall₂ Lists groups lists) :
    Lists (.mk name own groups) (own ++ lists.flatten)

/-- One thing that a controller declares. -/
inductive Clause (S : Type) where
  | route (verbs : List Verb) (paths : List String) (action : String)
    (handler : Callback S Outcome)
  | interceptor (i : Interceptor S)
  | group (g : InterceptorGroup S)

/-- The interceptors that a clause adds to its controller. -/
inductive Clause.Contributes : Clause S → List (Interceptor S) → Prop where
  | route {verbs : List Verb} {paths : List String} {action : String}
    {handler : Callback S Outcome} : Contributes (.route verbs paths action handler) []
  | interceptor {i : Interceptor S} : Contributes (.interceptor i) [i]
  | group {g : InterceptorGroup S} {is : List (Interceptor S)} (h : g.Lists is) :
    Contributes (.group g) is

/-- A controller as it is written down. -/
structure Outline (S : Type) where
  name : String
  basePaths : List String
  clauses : List (Clause S)

/-- The controller with one clause more. -/
def Controller.declare (c : Controller S) : Clause S → Controller S
  | .route verbs paths action handler => c.route verbs paths action handler
  | .interceptor i => c.interceptor i
  | .group g => c.group g

/-- The controller that the clauses make, one after the other. -/
def Outline.controller (o : Outline S) : Controller S :=
  o.clauses.foldl Controller.declare (.empty o.name o.basePaths)

namespace InterceptorGroup

theorem flattenAll_eq (groups : List (InterceptorGroup S)) :
    flattenAll groups = groups.flatMap flatten := by
  induction groups with
  | nil => rfl
  | cons group more ih => rw [flattenAll, ih, List.flatMap_cons]

/-- A group lists what flattening makes of it. -/
theorem lists_flatten (g : InterceptorGroup S) : g.Lists g.flatten := by
  refine InterceptorGroup.rec (motive_1 := fun g => g.Lists g.flatten)
    (motive_2 := fun groups => List.Forall₂ Lists groups (groups.map flatten)) ?_ .nil ?_ g
  · intro name own groups hgroups
    rw [flatten, flattenAll_eq, List.flatMap_def]
    exact .mk hgroups
  · intro group more hgroup hmore
    exact .cons hgroup hmore

end InterceptorGroup

namespace Clause

/-- What a clause adds, computed. -/
def interceptors : Clause S → List (Interceptor S)
  | .route .. => []
  | .interceptor i => [i]
  | .group g => g.flatten

theorem contributes_interceptors (clause : Clause S) : clause.Contributes clause.interceptors := by
  cases clause with
  | route => exact .route
  | interceptor i => exact .interceptor
  | group g => exact .group g.lists_flatten

theorem forall₂_contributes (clauses : List (Clause S)) :
    List.Forall₂ Contributes clauses (clauses.map interceptors) := by
  induction clauses with
  | nil => exact .nil
  | cons clause more ih => exact .cons clause.contributes_interceptors ih

/-- The clause as a declaration of routes, if it is one. -/
def declaration? : Clause S → Option (Declaration S)
  | .route verbs paths action handler => some ⟨verbs, paths, action, handler⟩
  | .interceptor _ | .group _ => none

end Clause

namespace Outline

/-- The routes that the clauses declare, in order. -/
def declarations (o : Outline S) : List (Declaration S) := o.clauses.filterMap Clause.declaration?

/-- The interceptors that the clauses add, in order. -/
def interceptors (o : Outline S) : List (Interceptor S) := o.clauses.flatMap Clause.interceptors

theorem foldl_declare (clauses : List (Clause S)) (c : Controller S) :
    clauses.foldl Controller.declare c =
      { c with
        declarations := c.declarations ++ clauses.filterMap Clause.declaration?
        interceptors := c.interceptors ++ clauses.flatMap Clause.interceptors } := by
  induction clauses generalizing c with
  | nil => simp
  | cons clause more ih =>
    rw [List.foldl_cons, ih]
    cases clause <;>
      simp [Controller.declare, Controller.route, Controller.interceptor, Controller.group,
        Clause.declaration?, Clause.interceptors, List.filterMap_cons]

/-- What the controller of an outline holds. -/
theorem controller_eq (o : Outline S) :
    o.controller = ⟨o.name, o.basePaths, o.declarations, o.interceptors⟩ := by
  rw [controller, foldl_declare]
  rfl

/-- Outlines that differ in interceptors only, and not in those of the controller named. -/
structure AgreeFor (controller : String) (o o' : Outline S) : Prop where
  name : o.name = o'.name
  basePaths : o.basePaths = o'.basePaths
  declarations : o.declarations = o'.declarations
  clauses : o.name = controller → o.clauses = o'.clauses

theorem AgreeFor.registrations {name : String} {o o' : Outline S} (h : AgreeFor name o o') :
    o.controller.registrations = o'.controller.registrations := by
  obtain ⟨hname, hbases, hdeclarations, -⟩ := h
  rw [controller_eq, controller_eq, hname, hbases, hdeclarations]
  rfl

end Outline

namespace Table

/-! ### Installing controllers one after the other -/

/-- The outlines whose controllers are answered to be installed, whatever the other answers are. -/
def installed (t : Table S) : List (Outline S) → List (Outline S)
  | [] => []
  | o :: more =>
    let (answer, after) := t.install o.controller
    (if answer.isOk then [o] else []) ++ after.installed more

/-- The calls that install controllers and then seal the table. -/
def installCalls (outlines : List (Outline S)) : List (Call S) :=
  outlines.map (fun o => .install o.controller) ++ [.normalize]

theorem isSealed_register (t : Table S) (verb : Verb) (spec : String) (target : Target)
    (handler : Callback S Outcome) :
    (t.register verb spec target handler).2.isSealed = t.isSealed := by
  rcases register_unchanged_or_added t verb spec target handler with
    ⟨-, hsame⟩ | ⟨-, -, route, -, hr⟩
  · rw [hsame]
  · rw [hr]

/-- Registering does not look at attachments, and leaves them as they are. -/
theorem register_with_attachments (t : Table S) (as : List (Attachment S)) (verb : Verb)
    (spec : String) (target : Target) (handler : Callback S Outcome) :
    ({ t with attachments := as } : Table S).register verb spec target handler =
      ((t.register verb spec target handler).1,
        { (t.register verb spec target handler).2 with attachments := as }) := by
  unfold register contains
  simp only
  split
  · rfl
  · split
    · split <;> rfl
    · split <;> rfl

theorem registerAll_with_attachments (t : Table S) (as : List (Attachment S))
    (rs : List (Registration S)) :
    ({ t with attachments := as } : Table S).registerAll rs =
      ((t.registerAll rs).1, { (t.registerAll rs).2 with attachments := as }) := by
  induction rs generalizing t with
  | nil => rfl
  | cons r more ih =>
    rw [registerAll, registerAll, register_with_attachments]
    rcases t.register r.verb r.spec r.target r.handler with ⟨answer, after⟩
    cases answer with
    | error e => rfl
    | ok added => simp only [ih after]

theorem attachments_registerAll (t : Table S) (rs : List (Registration S)) :
    (t.registerAll rs).2.attachments = t.attachments :=
  (congrArg (fun result => result.2.attachments)
    (registerAll_with_attachments t t.attachments rs)).trans rfl

theorem isSealed_registerAll (t : Table S) (rs : List (Registration S)) :
    (t.registerAll rs).2.isSealed = t.isSealed := by
  induction rs generalizing t with
  | nil => rfl
  | cons r more ih =>
    have hafter := isSealed_register t r.verb r.spec r.target r.handler
    rw [registerAll]
    rcases hr : t.register r.verb r.spec r.target r.handler with ⟨answer, after⟩
    rw [hr] at hafter
    cases answer with
    | error e => exact hafter
    | ok added => exact (ih after).trans hafter

/-- What a controller attaches if it is installed. -/
def attached (c : Controller S) (isInstalled : Bool) : List (Attachment S) :=
  if isInstalled then c.interceptors.map (⟨c.name, ·⟩) else []

/-- Installing into an open table registers the routes, and attaches all interceptors unless a route
    is an error. -/
theorem install_of_open {t : Table S} (hopen : t.isSealed = false) (c : Controller S) :
    t.install c = ((t.registerAll c.registrations).1,
      { (t.registerAll c.registrations).2 with
        attachments := t.attachments ++ attached c (t.registerAll c.registrations).1.isOk }) := by
  have hattachments := attachments_registerAll t c.registrations
  have hsealed := (isSealed_registerAll t c.registrations).trans hopen
  rw [install]
  rcases hroutes : t.registerAll c.registrations with ⟨answer, after⟩
  rw [hroutes] at hattachments hsealed
  rw [← hattachments]
  cases answer with
  | error e => simp [attached, Except.isOk, Except.toBool]
  | ok added =>
    simp only [attachAll_of_open hsealed c.name c.interceptors]
    rfl

theorem isSealed_install {t : Table S} (hopen : t.isSealed = false) (c : Controller S) :
    (t.install c).2.isSealed = false := by
  rw [install_of_open hopen]
  exact (isSealed_registerAll t c.registrations).trans hopen

theorem installed_cons (t : Table S) (o : Outline S) (more : List (Outline S)) :
    t.installed (o :: more) = (if (t.install o.controller).1.isOk then [o] else []) ++
      (t.install o.controller).2.installed more := rfl

/-- The interceptors of outlines, attached to their controllers. -/
def attachmentsOf (outlines : List (Outline S)) : List (Attachment S) :=
  outlines.flatMap fun o => o.interceptors.map (⟨o.name, ·⟩)

/-- **An open table holds the interceptors of the installed controllers in the order of their
    declaration.** -/
theorem attachments_run (outlines : List (Outline S)) {t : Table S} (hopen : t.isSealed = false) :
    (t.run (outlines.map fun o => .install o.controller)).isSealed = false ∧
      (t.run (outlines.map fun o => .install o.controller)).attachments =
        t.attachments ++ attachmentsOf (t.installed outlines) := by
  induction outlines generalizing t with
  | nil => exact ⟨hopen, (List.append_nil _).symm⟩
  | cons o more ih =>
    obtain ⟨hsealed, hmore⟩ := ih (isSealed_install hopen o.controller)
    refine ⟨hsealed, hmore.trans ?_⟩
    rw [installed_cons, install_of_open hopen]
    simp only [attachmentsOf, List.flatMap_append]
    rw [List.append_assoc]
    congr 2
    rw [attached, Outline.controller_eq]
    split <;> simp

/-! ### Sorting keeps the order of equal priorities -/

theorem filter_insertAttachment (priority : Int) (a : Attachment S) (as : List (Attachment S)) :
    (insertAttachment a as).filter (·.interceptor.priority == priority) =
      (a :: as).filter (·.interceptor.priority == priority) := by
  induction as with
  | nil => rfl
  | cons b more ih =>
    rw [insertAttachment]
    split
    · rfl
    · next hlt =>
      -- `b` comes before `a` now, but they are not both of the priority.
      rw [List.filter_cons, ih, List.filter_cons, List.filter_cons, List.filter_cons]
      by_cases ha : a.interceptor.priority = priority
      · have hb : b.interceptor.priority ≠ priority := by omega
        simp [ha, hb]
      · simp [ha]

/-- Sorting leaves the attachments of one priority in their order. -/
theorem filter_sortAttachments (priority : Int) (as : List (Attachment S)) :
    (sortAttachments as).filter (·.interceptor.priority == priority) =
      as.filter (·.interceptor.priority == priority) := by
  induction as with
  | nil => rfl
  | cons a more ih =>
    rw [sortAttachments, filter_insertAttachment, List.filter_cons, List.filter_cons, ih]

theorem perm_sortAttachments (as : List (Attachment S)) : (sortAttachments as).Perm as := by
  rw [sortAttachments_eq]
  exact List.perm_insertionSort NoLater as

/-! ### Chains -/

/-- The interceptor of an attachment, if it is of the kind. -/
def ofKind (kind : InterceptorKind) (a : Attachment S) : Option (Interceptor S) :=
  if a.interceptor.kind = kind then some a.interceptor else none

theorem chain_eq (t : Table S) (controller : String) (kind : InterceptorKind) :
    t.chain controller kind =
      (t.attachments.filter (·.controller == controller)).filterMap (ofKind kind) := rfl

/-- The interceptors of a chain that have a priority are those of the attachments that have it. -/
theorem filter_chain (t : Table S) (controller : String) (kind : InterceptorKind)
    (priority : Int) : (t.chain controller kind).filter (·.priority == priority) =
      ((t.attachments.filter (·.interceptor.priority == priority)).filter
        (·.controller == controller)).filterMap (ofKind kind) := by
  have hkind : ∀ a : Attachment S, (ofKind kind a).filter (·.priority == priority) =
      if a.interceptor.priority == priority then ofKind kind a else none := by
    intro a
    unfold ofKind
    split
    · simp [Option.filter]
    · simp
  rw [chain_eq, List.filter_filterMap]
  simp only [hkind]
  rw [← List.filterMap_filter, List.filter_comm]

theorem mem_of_filter_priority {is is' : List (Interceptor S)} (hsame : ∀ priority : Int,
      is.filter (·.priority == priority) = is'.filter (·.priority == priority))
    {i : Interceptor S} (hi : i ∈ is) : i ∈ is' := by
  have hmem : i ∈ is.filter (·.priority == i.priority) :=
    List.mem_filter.mpr ⟨hi, beq_self_eq_true _⟩
  rw [hsame] at hmem
  exact (List.mem_filter.mp hmem).1

/-- A list in the order of priorities is known from its parts of one priority. -/
theorem eq_of_filter_priority {is is' : List (Interceptor S)}
    (h : is.Pairwise fun i j => i.priority ≤ j.priority)
    (h' : is'.Pairwise fun i j => i.priority ≤ j.priority)
    (hsame : ∀ priority : Int,
      is.filter (·.priority == priority) = is'.filter (·.priority == priority)) : is = is' := by
  induction is generalizing is' with
  | nil =>
    apply Eq.symm
    rw [List.eq_nil_iff_forall_not_mem]
    intro i hi
    exact List.not_mem_nil (mem_of_filter_priority (fun priority => (hsame priority).symm) hi)
  | cons i more ih =>
    cases is' with
    | nil => exact absurd (mem_of_filter_priority hsame List.mem_cons_self) List.not_mem_nil
    | cons i' more' =>
      obtain ⟨hfirst, hmore⟩ := List.pairwise_cons.mp h
      obtain ⟨hfirst', hmore'⟩ := List.pairwise_cons.mp h'
      -- Neither head may come after the other, so both are the first of their priority.
      have hle : i.priority ≤ i'.priority := by
        have hi' := mem_of_filter_priority (fun priority => (hsame priority).symm)
          (List.mem_cons_self (a := i') (l := more'))
        rcases List.mem_cons.mp hi' with heq | hlater
        · rw [heq]
        · exact hfirst i' hlater
      have hge : i'.priority ≤ i.priority := by
        have hi := mem_of_filter_priority hsame (List.mem_cons_self (a := i) (l := more))
        rcases List.mem_cons.mp hi with heq | hlater
        · rw [heq]
        · exact hfirst' i hlater
      have hpriority : i'.priority = i.priority := le_antisymm hge hle
      have hheads := hsame i.priority
      simp only [List.filter_cons, hpriority, beq_self_eq_true, if_true] at hheads
      obtain ⟨rfl, -⟩ := List.cons.inj hheads
      congr 1
      apply ih hmore hmore'
      intro priority
      have hp := hsame priority
      rw [List.filter_cons, List.filter_cons] at hp
      split at hp
      · exact (List.cons.inj hp).2
      · exact hp

theorem attachments_normalize {t : Table S} (hopen : t.isSealed = false) :
    t.normalize.attachments = sortAttachments t.attachments := by
  rw [normalize, hopen, if_neg Bool.false_ne_true]

theorem perm_chain_normalize {t : Table S} (hopen : t.isSealed = false) (controller : String)
    (kind : InterceptorKind) :
    (t.normalize.chain controller kind).Perm (t.chain controller kind) := by
  rw [chain_eq, chain_eq, attachments_normalize hopen]
  exact ((perm_sortAttachments t.attachments).filter _).filterMap _

theorem filter_chain_normalize {t : Table S} (hopen : t.isSealed = false) (controller : String)
    (kind : InterceptorKind) (priority : Int) :
    (t.normalize.chain controller kind).filter (·.priority == priority) =
      (t.chain controller kind).filter (·.priority == priority) := by
  rw [filter_chain, filter_chain, attachments_normalize hopen, filter_sortAttachments]

theorem pairwise_chain_normalize {t : Table S} (hopen : t.isSealed = false) (controller : String)
    (kind : InterceptorKind) :
    (t.normalize.chain controller kind).Pairwise fun i j => i.priority ≤ j.priority := by
  apply pairwise_chain
  rw [attachments_normalize hopen]
  exact pairwise_sortAttachments t.attachments

/-- The chain of an open table is what the outlines of its controllers contribute to it. -/
theorem chain_of_attachmentsOf {t : Table S} {outlines : List (Outline S)}
    (h : t.attachments = attachmentsOf outlines) (controller : String) (kind : InterceptorKind) :
    t.chain controller kind =
      (((outlines.filter (·.name == controller)).flatMap (·.clauses)).flatMap
        Clause.interceptors).filter (·.kind == kind) := by
  rw [List.flatMap_assoc]
  have hown : ∀ is : List (Interceptor S),
      (is.map (⟨controller, ·⟩)).filterMap (ofKind kind) = is.filter (·.kind == kind) := by
    intro is
    rw [List.filterMap_map, ← List.filterMap_eq_filter]
    apply List.filterMap_congr
    intro i _
    simp [ofKind, Option.guard]
  rw [chain_eq, h]
  clear h
  induction outlines with
  | nil => rfl
  | cons o more ih =>
    rw [attachmentsOf, List.flatMap_cons, List.filter_append, List.filterMap_append,
      ← attachmentsOf, ih]
    by_cases hname : o.name = controller
    · subst hname
      have hall : (o.interceptors.map (Attachment.mk o.name)).filter (·.controller == o.name) =
          o.interceptors.map (Attachment.mk o.name) := by
        rw [List.filter_eq_self]
        intro a ha
        obtain ⟨i, -, rfl⟩ := List.mem_map.mp ha
        exact beq_self_eq_true _
      have hself : (o.name == o.name) = true := beq_self_eq_true _
      rw [hall, hown, List.filter_cons, if_pos hself, List.flatMap_cons, List.filter_append]
      rfl
    · have hnone : (o.interceptors.map (Attachment.mk o.name)).filter
          (·.controller == controller) = [] := by
        rw [List.filter_eq_nil_iff]
        intro a ha
        obtain ⟨i, -, rfl⟩ := List.mem_map.mp ha
        simpa using hname
      rw [hnone, List.filter_cons_of_neg (by simpa using hname)]
      rfl

/-! ### Interceptors of other controllers -/

/-- Whether a controller is installed depends neither on what is attached nor on interceptors. -/
theorem installed_agree {name : String} {outlines outlines' : List (Outline S)}
    (h : List.Forall₂ (Outline.AgreeFor name) outlines outlines') {t : Table S}
    (hopen : t.isSealed = false) (as as' : List (Attachment S)) :
    List.Forall₂ (Outline.AgreeFor name) (({ t with attachments := as } : Table S).installed outlines)
      (({ t with attachments := as' } : Table S).installed outlines') := by
  induction h generalizing t as as' with
  | nil => exact .nil
  | @cons o o' more more' ho _ ih =>
    have hinstall := install_of_open (t := { t with attachments := as }) hopen o.controller
    have hinstall' := install_of_open (t := { t with attachments := as' }) hopen o'.controller
    rw [registerAll_with_attachments] at hinstall
    rw [← ho.registrations, registerAll_with_attachments] at hinstall'
    rw [installed_cons, installed_cons, hinstall, hinstall']
    refine List.rel_append ?_ ?_
    · dsimp only
      split
      · exact .cons ho .nil
      · exact .nil
    · exact ih ((isSealed_registerAll t o.controller.registrations).trans hopen) _ _

theorem filter_agree {name : String} {outlines outlines' : List (Outline S)}
    (h : List.Forall₂ (Outline.AgreeFor name) outlines outlines') :
    (outlines.filter (·.name == name)).flatMap (·.clauses) =
      (outlines'.filter (·.name == name)).flatMap (·.clauses) := by
  induction h with
  | nil => rfl
  | @cons o o' more more' ho _ ih =>
    rw [List.filter_cons, List.filter_cons, ← ho.name]
    split
    · next hname => rw [List.flatMap_cons, List.flatMap_cons, ih, ho.clauses (eq_of_beq hname)]
    · exact ih

/-- **The chains of controllers are what was declared for them, by priority.**

    Controllers are installed one after the other and the table is sealed.  The chain of a name and a
    kind holds what the clauses of the controllers of that name contribute of that kind, each as often
    as it was declared; it is in the order of priorities, and those of one priority are in the order
    of their declarations.  It stays what it is if other names declare other interceptors. -/
theorem chain_run_installCalls (options : TableOptions) (outlines : List (Outline S))
    (controller : String) (kind : InterceptorKind) :
    (∃ contributions : List (List (Interceptor S)),
      List.Forall₂ Clause.Contributes
        ((((empty options).installed outlines).filter (·.name == controller)).flatMap (·.clauses))
        contributions ∧
      (((empty options).run (installCalls outlines)).chain controller kind).Perm
        (contributions.flatten.filter (·.kind == kind)) ∧
      (((empty options).run (installCalls outlines)).chain controller kind).Pairwise
        (fun i j => i.priority ≤ j.priority) ∧
      ∀ priority : Int,
        (((empty options).run (installCalls outlines)).chain controller kind).filter
            (·.priority == priority) =
          (contributions.flatten.filter (·.kind == kind)).filter (·.priority == priority)) ∧
      ∀ outlines' : List (Outline S), List.Forall₂ (Outline.AgreeFor controller) outlines outlines' →
        ((empty options).run (installCalls outlines')).chain controller kind =
          ((empty options).run (installCalls outlines)).chain controller kind := by
  have hrun : ∀ os : List (Outline S), (empty options).run (installCalls os) =
      ((empty options).run (os.map fun o => .install o.controller)).normalize := by
    intro os
    rw [installCalls, run, List.foldl_append]
    rfl
  have hchain : ∀ os : List (Outline S), ∃ t : Table S, t.isSealed = false ∧
      (empty options).run (installCalls os) = t.normalize ∧ t.chain controller kind =
        (((((empty options).installed os).filter (·.name == controller)).flatMap
          (·.clauses)).flatMap Clause.interceptors).filter (·.kind == kind) := by
    intro os
    obtain ⟨hopen, hattachments⟩ := attachments_run os (t := empty options) rfl
    exact ⟨_, hopen, hrun os, chain_of_attachmentsOf hattachments controller kind⟩
  obtain ⟨t, hopen, hcalls, hdeclared⟩ := hchain outlines
  rw [hcalls]
  refine ⟨⟨_, Clause.forall₂_contributes _, ?_, pairwise_chain_normalize hopen controller kind, ?_⟩,
    ?_⟩
  · rw [← List.flatMap_def, ← hdeclared]
    exact perm_chain_normalize hopen controller kind
  · intro priority
    rw [← List.flatMap_def, ← hdeclared]
    exact filter_chain_normalize hopen controller kind priority
  · intro outlines' hagree
    obtain ⟨t', hopen', hcalls', hdeclared'⟩ := hchain outlines'
    have hclauses := filter_agree (installed_agree hagree (t := empty options) rfl [] [])
    rw [hcalls']
    apply eq_of_filter_priority (pairwise_chain_normalize hopen' controller kind)
      (pairwise_chain_normalize hopen controller kind)
    intro priority
    rw [filter_chain_normalize hopen', filter_chain_normalize hopen, hdeclared, hdeclared']
    exact congrArg _ (congrArg _ (congrArg _ hclauses.symm))

/-- Controllers of two names, one of them twice, with a group in a group and equal priorities. -/
def usersAndPosts (posts : List (Clause Unit)) : List (Outline Unit) :=
  [⟨"Users", [],
      [.interceptor ((Interceptor.before "session" (Left.done .pass)).withPriority 5),
        .route [.get] ["/users"] "index" (Left.done .pass),
        .group (.mk "access" [Interceptor.before "token" (Left.done .pass)]
          [.mk "audit" [Interceptor.after "log" (Left.done .pass),
            (Interceptor.before "trail" (Left.done .pass)).withPriority 5] []])]⟩,
    ⟨"Posts", [], posts⟩,
    ⟨"Users", [], [.interceptor ((Interceptor.before "limit" (Left.done .pass)).withPriority 5),
      .interceptor (Interceptor.before "trace" (Left.done .pass))]⟩]

/-- The group in the group is not lost, and an interceptor of the other name changes nothing. -/
theorem chain_run_installCalls_usersAndPosts :
    List.Forall₂ (Outline.AgreeFor "Users") (usersAndPosts [])
        (usersAndPosts [.interceptor (Interceptor.before "other" (Left.done .pass))]) ∧
      ((((empty ⟨{}, false⟩).run (installCalls
        (usersAndPosts [.interceptor (Interceptor.before "other" (Left.done .pass))]))).chain
          "Users" .before).map (·.name)) = ["token", "trace", "session", "trail", "limit"] := by
  have hagree : List.Forall₂ (Outline.AgreeFor "Users") (usersAndPosts [])
      (usersAndPosts [.interceptor (Interceptor.before "other" (Left.done .pass))]) :=
    .cons ⟨rfl, rfl, rfl, fun _ => rfl⟩
      (.cons ⟨rfl, rfl, rfl, fun h => absurd h (by decide)⟩
        (.cons ⟨rfl, rfl, rfl, fun _ => rfl⟩ .nil))
  refine ⟨hagree, ?_⟩
  rw [(chain_run_installCalls ⟨{}, false⟩ _ "Users" .before).2 _ hagree]
  decide +kernel

end Table

end RequestRouter
