/-
  RequestRouter/Proofs/Table/Trace.lean
  =====================================
  **Which callbacks a dispatch invokes, and in which order.**

  Callbacks are arbitrary, so what is invoked has to be seen from outside.  Every callback of a table
  is wrapped in one that does the same and notes the invocation in a log beside the shared state.
  Dispatching cannot tell the difference: with the logs taken away the two dispatches agree
  (`Traces.erased`).  The log itself falls into the phases of a dispatch, and each phase is an initial
  part of its chain, up to the first invocation that ends it (`UpToFirst`).  Each invocation sees the
  exchange and the state as the one before it left them (`Threads`), so chain and behaviour together
  leave no choice about the log.
-/
import RequestRouter.Proofs.Table.Runs
import RequestRouter.Table.Dispatch

namespace RequestRouter

open RequestRouter.Http

variable {S α β : Type}

/-! ### Invocations -/

/-- A callback of a table, with the failure that it is told. -/
inductive Callee (S : Type) where
  | interceptor (i : Interceptor S) (failure : Option Failure)
  | handler (h : Callback S Outcome)

def Callee.run : Callee S → Callback S Outcome
  | .interceptor i failure => i.call failure
  | .handler h => h

/-- A callback with the exchange and the state that it is called with. -/
structure Invocation (S : Type) where
  callee : Callee S
  exchange : Exchange
  state : S

namespace Invocation

def left (v : Invocation S) : Left S Outcome := v.callee.run v.exchange v.state

def result (v : Invocation S) : Except Failure Outcome := v.left.result

/-- The reply that is asked for. -/
def reply? (v : Invocation S) : Option Reply :=
  match v.result with
  | .ok (.reply reply) => some reply
  | _ => none

def failure? (v : Invocation S) : Option Failure :=
  match v.result with
  | .ok _ => none
  | .error failure => some failure

theorem failure?_of_ok {v : Invocation S} {outcome : Outcome} (h : v.result = .ok outcome) :
    v.failure? = none := by
  simp [failure?, h]

theorem failure?_of_error {v : Invocation S} {failure : Failure} (h : v.result = .error failure) :
    v.failure? = some failure := by
  simp [failure?, h]

theorem replyOr_of_ok {v : Invocation S} {outcome : Outcome} (h : v.result = .ok outcome)
    (reply : Reply) : outcome.replyOr reply = v.reply?.getD reply := by
  unfold reply?
  rw [h]
  cases outcome with
  | reply r => rfl
  | pass => rfl

end Invocation

/-- Invocations one after the other: each is called with what the one before it left. -/
def Threads (x : Exchange) (s : S) : List (Invocation S) → Response → S → Prop
  | [], response, s' => response = x.response ∧ s' = s
  | v :: more, response, s' => v.exchange = x ∧ v.state = s ∧
    Threads (x.withResponse v.left.response) v.left.state more response s'

theorem Threads.append {x : Exchange} {s s' s'' : S} {ran more : List (Invocation S)}
    {response response' : Response} (h : Threads x s ran response s')
    (hmore : Threads (x.withResponse response) s' more response' s'') :
    Threads x s (ran ++ more) response' s'' := by
  induction ran generalizing x s with
  | nil =>
    obtain ⟨rfl, rfl⟩ := h
    exact hmore
  | cons v ran ih =>
    obtain ⟨h1, h2, h3⟩ := h
    exact ⟨h1, h2, ih h3 hmore⟩

/-- No callback changes what was matched. -/
theorem Threads.matched {x : Exchange} {s s' : S} {ran : List (Invocation S)} {response : Response}
    (h : Threads x s ran response s') {v : Invocation S} (hv : v ∈ ran) :
    v.exchange.matched = x.matched := by
  induction ran generalizing x s with
  | nil => cases hv
  | cons first more ih =>
    obtain ⟨hexchange, -, hmore⟩ := h
    rcases List.mem_cons.mp hv with rfl | hv
    · rw [hexchange]
    · exact (ih hmore hv).trans (Exchange.matched_withResponse x _)

/-! ### Logs -/

/-- What a callback left, with a log beside the state. -/
def Left.logged (left : Left S α) (log : List (Invocation S)) :
    Left (S × List (Invocation S)) α :=
  ⟨left.result, left.response, (left.state, log)⟩

/-- The callback that does the same and notes its invocation. -/
def Callee.logged (c : Callee S) : Callback (S × List (Invocation S)) Outcome := fun x s =>
  (c.run x s.1).logged (s.2 ++ [⟨c, x, s.1⟩])

def Interceptor.logged (i : Interceptor S) : Interceptor (S × List (Invocation S)) :=
  ⟨i.name, i.kind, i.priority, i.scope, i.recoversFrom,
    fun failure => (Callee.interceptor i failure).logged⟩

def Endpoint.logged (e : Endpoint S) : Endpoint (S × List (Invocation S)) :=
  ⟨e.route, (Callee.handler e.handler).logged⟩

/-- The table whose callbacks note their invocations. -/
def Table.logged (t : Table S) : Table (S × List (Invocation S)) :=
  ⟨t.options, t.endpoints.map Endpoint.logged,
    t.attachments.map fun a => ⟨a.controller, a.interceptor.logged⟩, t.isSealed⟩

def Plan.logged (plan : Plan S) : Plan (S × List (Invocation S)) where
  before := plan.before.map Interceptor.logged
  handler := (Callee.handler plan.handler).logged
  after := plan.after.map Interceptor.logged
  recover := plan.recover.map Interceptor.logged
  conclude := plan.conclude.map Interceptor.logged

/-- One callback does what another does and notes these invocations. -/
structure Traces (f : Callback S α) (g : Callback (S × List (Invocation S)) α) (x : Exchange)
    (s : S) (log ran : List (Invocation S)) : Prop where
  erased : g x (s, log) = (f x s).logged (log ++ ran)
  threads : Threads x s ran (f x s).response (f x s).state

theorem Callee.traces (c : Callee S) (x : Exchange) (s : S) (log : List (Invocation S)) :
    Traces c.run c.logged x s log [⟨c, x, s⟩] :=
  ⟨rfl, rfl, rfl, rfl, rfl⟩

theorem traces_done (a : α) (x : Exchange) (s : S) (log : List (Invocation S)) :
    Traces (Left.done a) (Left.done a) x s log [] := by
  refine ⟨?_, rfl, rfl⟩
  rw [List.append_nil]
  rfl

theorem Traces.andThen_of_ok {f : Callback S α} {g : Callback (S × List (Invocation S)) α}
    {x : Exchange} {s : S} {log ran more : List (Invocation S)} (h : Traces f g x s log ran)
    {a : α} (hok : (f x s).result = .ok a) {next : α → Callback S β}
    {next' : α → Callback (S × List (Invocation S)) β}
    (hnext : Traces (next a) (next' a) (x.withResponse (f x s).response) (f x s).state (log ++ ran)
      more) :
    Traces (fun x s => (f x s).andThen x next) (fun x s => (g x s).andThen x next') x s log
      (ran ++ more) := by
  have hleft : (f x s).andThen x next =
      next a (x.withResponse (f x s).response) (f x s).state := Left.andThen_of_ok hok x next
  have hlogged : ((f x s).logged (log ++ ran)).result = .ok a := hok
  constructor
  · rw [h.erased, hleft, Left.andThen_of_ok hlogged, ← List.append_assoc]
    exact hnext.erased
  · rw [hleft]
    exact h.threads.append hnext.threads

theorem Traces.andThen_of_error {f : Callback S α} {g : Callback (S × List (Invocation S)) α}
    {x : Exchange} {s : S} {log ran : List (Invocation S)} (h : Traces f g x s log ran)
    {failure : Failure} (herror : (f x s).result = .error failure) (next : α → Callback S β)
    (next' : α → Callback (S × List (Invocation S)) β) :
    Traces (fun x s => (f x s).andThen x next) (fun x s => (g x s).andThen x next') x s log ran := by
  have hleft := Left.andThen_of_error herror x next
  have hlogged : ((f x s).logged (log ++ ran)).result = .error failure := herror
  constructor
  · rw [h.erased, hleft, Left.andThen_of_error hlogged]
    rfl
  · rw [hleft]
    exact h.threads

/-! ### Chains -/

/-- Invocations of callbacks in their order, up to and including the first that stops the chain. -/
structure UpToFirst (stops : Invocation S → Prop) (callees : List (Callee S))
    (ran : List (Invocation S)) : Prop where
  started : ran.map (·.callee) <+: callees
  going : ∀ v ∈ ran.dropLast, ¬ stops v
  complete : ran.map (·.callee) = callees ∨ ∃ v, ran.getLast? = some v ∧ stops v

theorem upToFirst_nil (stops : Invocation S → Prop) : UpToFirst stops [] [] :=
  ⟨List.nil_prefix, fun _ h => absurd h List.not_mem_nil, Or.inl rfl⟩

theorem upToFirst_stop {stops : Invocation S → Prop} (v : Invocation S) (h : stops v)
    (callees : List (Callee S)) : UpToFirst stops (v.callee :: callees) [v] :=
  ⟨by simp, fun _ hw => absurd hw List.not_mem_nil, Or.inr ⟨v, rfl, h⟩⟩

theorem UpToFirst.cons {stops : Invocation S → Prop} {callees : List (Callee S)}
    {ran : List (Invocation S)} (h : UpToFirst stops callees ran) (v : Invocation S)
    (hv : ¬ stops v) : UpToFirst stops (v.callee :: callees) (v :: ran) := by
  refine ⟨?_, ?_, ?_⟩
  · rw [List.map_cons, List.cons_prefix_cons]
    exact ⟨rfl, h.started⟩
  · intro w hw
    cases ran with
    | nil => cases hw
    | cons u ran =>
      rw [List.dropLast_cons_cons] at hw
      rcases List.mem_cons.mp hw with rfl | hw
      · exact hv
      · exact h.going w hw
  · rcases h.complete with hall | ⟨w, hw, hstops⟩
    · exact Or.inl (by rw [List.map_cons, hall])
    · refine Or.inr ⟨w, ?_, hstops⟩
      cases ran with
      | nil => cases hw
      | cons u ran => rwa [List.getLast?_cons_cons]

/-- The failure among invocations. -/
def failureOf (ran : List (Invocation S)) : Option Failure := ran.findSome? (·.failure?)

/-- The last reply that is asked for among invocations. -/
def lastReply (ran : List (Invocation S)) : Option Reply := (ran.filterMap (·.reply?)).getLast?

theorem failureOf_append (a b : List (Invocation S)) :
    failureOf (a ++ b) = (failureOf a).or (failureOf b) := List.findSome?_append

theorem failureOf_cons_of_ok {v : Invocation S} {outcome : Outcome} (h : v.result = .ok outcome)
    (ran : List (Invocation S)) : failureOf (v :: ran) = failureOf ran := by
  rw [failureOf, List.findSome?_cons, Invocation.failure?_of_ok h]
  rfl

theorem failureOf_cons_of_error {v : Invocation S} {failure : Failure}
    (h : v.result = .error failure) (ran : List (Invocation S)) :
    failureOf (v :: ran) = some failure := by
  rw [failureOf, List.findSome?_cons, Invocation.failure?_of_error h]

theorem lastReply_cons (v : Invocation S) (ran : List (Invocation S)) :
    lastReply (v :: ran) = (lastReply ran).or v.reply? := by
  unfold lastReply
  cases hv : v.reply? with
  | none => rw [List.filterMap_cons_none hv, Option.or_none]
  | some reply =>
    rw [List.filterMap_cons_some hv, List.getLast?_cons]
    cases (ran.filterMap (·.reply?)).getLast? <;> rfl

/-- The invocations of interceptors, each told the failure. -/
def calleesOf (failure : Option Failure) (is : List (Interceptor S)) : List (Callee S) :=
  is.map fun i => .interceptor i failure

@[simp] theorem failureOf_nil : failureOf ([] : List (Invocation S)) = none := rfl

@[simp] theorem lastReply_nil : lastReply ([] : List (Invocation S)) = none := rfl

/-- What invocations come to: the failure among them, or else the last reply, or the given one. -/
def resultOf (dflt : Reply) (ran : List (Invocation S)) : Except Failure Reply :=
  match failureOf ran with
  | some failure => .error failure
  | none => .ok ((lastReply ran).getD dflt)

theorem resultOf_cons_of_error {v : Invocation S} {failure : Failure}
    (h : v.result = .error failure) (dflt : Reply) (ran : List (Invocation S)) :
    resultOf dflt (v :: ran) = .error failure := by
  rw [resultOf, failureOf_cons_of_error h]

theorem resultOf_cons_of_ok {v : Invocation S} {outcome : Outcome} (h : v.result = .ok outcome)
    (dflt : Reply) (ran : List (Invocation S)) :
    resultOf dflt (v :: ran) = resultOf (outcome.replyOr dflt) ran := by
  rw [resultOf, resultOf, failureOf_cons_of_ok h, lastReply_cons, Invocation.replyOr_of_ok h]
  cases lastReply ran <;> rfl

/-- A reply or a failure ends the interceptors that come before a handler. -/
theorem runBefore_traces (is : List (Interceptor S)) (x : Exchange) (s : S)
    (log : List (Invocation S)) :
    ∃ ran, Traces (Plan.runBefore is) (Plan.runBefore (is.map Interceptor.logged)) x s log ran ∧
      UpToFirst (fun v => v.result ≠ .ok .pass) (calleesOf none is) ran ∧
      ((Plan.runBefore is x s).result = .ok .pass ∧ (∀ v ∈ ran, v.result = .ok .pass) ∨
        (∃ v ∈ ran, v.result ≠ .ok .pass) ∧
          ((∃ reply, (Plan.runBefore is x s).result = .ok (.reply reply) ∧
              failureOf ran = none ∧ lastReply ran = some reply) ∨
            ∃ failure, (Plan.runBefore is x s).result = .error failure ∧
              failureOf ran = some failure)) := by
  induction is generalizing x s log with
  | nil => exact ⟨[], traces_done _ x s log, upToFirst_nil _, Or.inl ⟨rfl, by simp⟩⟩
  | cons i more ih =>
    let v : Invocation S := ⟨.interceptor i none, x, s⟩
    have hcall := (Callee.interceptor i none).traces x s log
    cases hv : v.result with
    | error failure =>
      have hstop : v.result ≠ .ok .pass := by simp [hv]
      refine ⟨[v], hcall.andThen_of_error hv _ _, upToFirst_stop v hstop _,
        Or.inr ⟨⟨v, by simp, hstop⟩, Or.inr ⟨failure, ?_, failureOf_cons_of_error hv []⟩⟩⟩
      exact congrArg Left.result (Left.andThen_of_error hv x _)
    | ok outcome =>
      cases outcome with
      | reply reply =>
        have hstop : v.result ≠ .ok .pass := by simp [hv]
        refine ⟨[v] ++ [], hcall.andThen_of_ok hv (traces_done _ _ _ _), upToFirst_stop v hstop _,
          Or.inr ⟨⟨v, by simp, hstop⟩, Or.inl ⟨reply, ?_, failureOf_cons_of_ok hv [], ?_⟩⟩⟩
        · exact congrArg Left.result (Left.andThen_of_ok hv x _)
        · simp [lastReply_cons, Invocation.reply?, hv]
      | pass =>
        obtain ⟨ran, htraces, hran, hresult⟩ :=
          ih (x.withResponse v.left.response) v.left.state (log ++ [v])
        have hleft : (Plan.runBefore (i :: more) x s).result =
            (Plan.runBefore more (x.withResponse v.left.response) v.left.state).result :=
          congrArg Left.result (Left.andThen_of_ok hv x _)
        have hreply : v.reply? = none := by simp [Invocation.reply?, hv]
        refine ⟨[v] ++ ran, hcall.andThen_of_ok hv htraces, hran.cons v (not_not_intro hv), ?_⟩
        rw [hleft, List.singleton_append, failureOf_cons_of_ok hv, lastReply_cons, hreply,
          Option.or_none]
        rcases hresult with ⟨hok, hpass⟩ | ⟨⟨w, hw, hstop⟩, hresult⟩
        · refine Or.inl ⟨hok, ?_⟩
          intro w hw
          rcases List.mem_cons.mp hw with rfl | hw
          · exact hv
          · exact hpass w hw
        · exact Or.inr ⟨⟨w, List.mem_cons_of_mem _ hw, hstop⟩, hresult⟩

/-- A failure ends the interceptors that come after a handler; each reply replaces the one before. -/
theorem runAfter_traces (is : List (Interceptor S)) (reply : Reply) (x : Exchange) (s : S)
    (log : List (Invocation S)) :
    ∃ ran, Traces (Plan.runAfter reply is) (Plan.runAfter reply (is.map Interceptor.logged)) x s
        log ran ∧
      UpToFirst (fun v => v.failure? ≠ none) (calleesOf none is) ran ∧
      (Plan.runAfter reply is x s).result = resultOf reply ran := by
  induction is generalizing reply x s log with
  | nil => exact ⟨[], traces_done _ x s log, upToFirst_nil _, rfl⟩
  | cons i more ih =>
    let v : Invocation S := ⟨.interceptor i none, x, s⟩
    have hcall := (Callee.interceptor i none).traces x s log
    cases hv : v.result with
    | error failure =>
      have hstop : v.failure? ≠ none := by simp [Invocation.failure?_of_error hv]
      refine ⟨[v], hcall.andThen_of_error hv _ _, upToFirst_stop v hstop _, ?_⟩
      rw [resultOf_cons_of_error hv]
      exact congrArg Left.result (Left.andThen_of_error hv x _)
    | ok outcome =>
      obtain ⟨ran, htraces, hran, hresult⟩ :=
        ih (outcome.replyOr reply) (x.withResponse v.left.response) v.left.state (log ++ [v])
      refine ⟨[v] ++ ran, hcall.andThen_of_ok hv htraces,
        hran.cons v (not_not_intro (Invocation.failure?_of_ok hv)), ?_⟩
      rw [List.singleton_append, resultOf_cons_of_ok hv, ← hresult]
      exact congrArg Left.result (Left.andThen_of_ok hv x _)

/-- A failure ends the concluding interceptors. -/
theorem runConclude_traces (is : List (Interceptor S)) (failure : Option Failure) (x : Exchange)
    (s : S) (log : List (Invocation S)) :
    ∃ ran, Traces (Plan.runConclude failure is)
        (Plan.runConclude failure (is.map Interceptor.logged)) x s log ran ∧
      UpToFirst (fun v => v.failure? ≠ none) (calleesOf failure is) ran ∧
      (Plan.runConclude failure is x s).result =
        match failureOf ran with
        | some failure => .error failure
        | none => .ok () := by
  induction is generalizing x s log with
  | nil => exact ⟨[], traces_done _ x s log, upToFirst_nil _, rfl⟩
  | cons i more ih =>
    let v : Invocation S := ⟨.interceptor i failure, x, s⟩
    have hcall := (Callee.interceptor i failure).traces x s log
    cases hv : v.result with
    | error e =>
      have hstop : v.failure? ≠ none := by simp [Invocation.failure?_of_error hv]
      refine ⟨[v], hcall.andThen_of_error hv _ _, upToFirst_stop v hstop _, ?_⟩
      rw [failureOf_cons_of_error hv]
      exact congrArg Left.result (Left.andThen_of_error hv x _)
    | ok outcome =>
      obtain ⟨ran, htraces, hran, hresult⟩ :=
        ih (x.withResponse v.left.response) v.left.state (log ++ [v])
      refine ⟨[v] ++ ran, hcall.andThen_of_ok hv htraces,
        hran.cons v (not_not_intro (Invocation.failure?_of_ok hv)), ?_⟩
      rw [List.singleton_append, failureOf_cons_of_ok hv, ← hresult]
      exact congrArg Left.result (Left.andThen_of_ok hv x _)

/-! ### Phases -/

/-- The invocations up to the reply: interceptors before the handler `b`, the handler itself `h` and
    interceptors after it `a`. -/
structure Phases (before : List (Interceptor S)) (handler : Callback S Outcome)
    (after : List (Interceptor S)) (b h a : List (Invocation S)) : Prop where
  before : UpToFirst (fun v => v.result ≠ .ok .pass) (calleesOf none before) b
  handler_runs : (∀ v ∈ b, v.result = .ok .pass) → h.map (·.callee) = [.handler handler]
  handler_skipped : (∃ v ∈ b, v.result ≠ .ok .pass) → h = []
  after_runs : (∃ v ∈ h, v.failure? = none) →
    UpToFirst (fun v => v.failure? ≠ none) (calleesOf none after) a
  after_skipped : (∀ v ∈ h, v.failure? ≠ none) → a = []

/-- The reply of a request that did not fail: that of an interceptor before the handler, else the last
    one of those after it, else that of the handler. -/
def terminalReply (b h a : List (Invocation S)) : Reply :=
  ((lastReply b).or ((lastReply a).or (lastReply h))).getD .noResult

theorem run_traces (plan : Plan S) (x : Exchange) (s : S) (log : List (Invocation S)) :
    ∃ b h a, Traces plan.run plan.logged.run x s log (b ++ h ++ a) ∧
      Phases plan.before plan.handler plan.after b h a ∧
      (plan.run x s).result =
        match failureOf (b ++ h ++ a) with
        | some failure => .error failure
        | none => .ok (terminalReply b h a) := by
  obtain ⟨b, hb, hbefore, hresult⟩ := runBefore_traces plan.before x s log
  rcases hresult with ⟨hpass, hall⟩ | ⟨hstop, ⟨reply, hreply, hnone, hlast⟩ | ⟨failure, herror, hsome⟩⟩
  · -- Nothing stopped before the handler.
    let left := Plan.runBefore plan.before x s
    let y := x.withResponse left.response
    let v : Invocation S := ⟨.handler plan.handler, y, left.state⟩
    have hcall := (Callee.handler plan.handler).traces y left.state (log ++ b)
    have hfailures : failureOf b = none := by
      rw [failureOf, List.findSome?_eq_none_iff]
      intro w hw
      exact Invocation.failure?_of_ok (hall w hw)
    have hreplies : lastReply b = none := by
      have : b.filterMap (·.reply?) = [] := by
        rw [List.filterMap_eq_nil_iff]
        intro w hw
        simp [Invocation.reply?, hall w hw]
      rw [lastReply, this]
      rfl
    have hleft : plan.run x s = (plan.handler y left.state).andThen y fun outcome =>
        Plan.runAfter (outcome.replyOr .noResult) plan.after := Left.andThen_of_ok hpass x _
    have hskipped : (∃ w ∈ b, w.result ≠ .ok .pass) → [v] = [] := by
      rintro ⟨w, hw, hstop⟩
      exact absurd (hall w hw) hstop
    cases hv : v.result with
    | error failure =>
      refine ⟨b, [v], [], ?_, ⟨hbefore, fun _ => rfl, hskipped, ?_, fun _ => rfl⟩, ?_⟩
      · rw [List.append_nil]
        exact hb.andThen_of_ok hpass (hcall.andThen_of_error hv _ _)
      · rintro ⟨w, hw, hok⟩
        rw [List.mem_singleton.mp hw, Invocation.failure?_of_error hv] at hok
        cases hok
      · rw [List.append_nil, failureOf_append, hfailures, failureOf_cons_of_error hv, hleft]
        exact congrArg Left.result (Left.andThen_of_error hv y _)
    | ok outcome =>
      obtain ⟨a, ha, hafter, hresult⟩ := runAfter_traces plan.after (outcome.replyOr .noResult)
        (y.withResponse v.left.response) v.left.state ((log ++ b) ++ [v])
      refine ⟨b, [v], a, ?_, ⟨hbefore, fun _ => rfl, hskipped, fun _ => hafter, ?_⟩, ?_⟩
      · rw [List.append_assoc]
        exact hb.andThen_of_ok hpass (hcall.andThen_of_ok hv ha)
      · intro hfail
        exact absurd (Invocation.failure?_of_ok hv) (hfail v (by simp))
      · have hrun : (plan.run x s).result = resultOf (outcome.replyOr .noResult) a := by
          rw [hleft, ← hresult]
          exact congrArg Left.result (Left.andThen_of_ok hv y _)
        rw [hrun, List.append_assoc, failureOf_append, hfailures, List.singleton_append,
          failureOf_cons_of_ok hv, Option.none_or, resultOf, terminalReply, hreplies,
          Invocation.replyOr_of_ok hv, lastReply_cons v []]
        cases failureOf a with
        | some failure => rfl
        | none =>
          cases lastReply a with
          | none => rfl
          | some reply => rfl
  · -- An interceptor before the handler has replied.
    refine ⟨b, [], [], ?_, ⟨hbefore, ?_, fun _ => rfl, by simp, fun _ => rfl⟩, ?_⟩
    · rw [List.append_nil]
      exact hb.andThen_of_ok hreply (traces_done _ _ _ _)
    · intro hall
      obtain ⟨w, hw, hstop⟩ := hstop
      exact absurd (hall w hw) hstop
    · rw [List.append_nil, List.append_nil, hnone, terminalReply, hlast]
      exact congrArg Left.result (Left.andThen_of_ok hreply x _)
  · -- An interceptor before the handler has failed.
    refine ⟨b, [], [], ?_, ⟨hbefore, ?_, fun _ => rfl, by simp, fun _ => rfl⟩, ?_⟩
    · rw [List.append_nil, List.append_nil]
      exact hb.andThen_of_error herror _ _
    · intro hall
      obtain ⟨w, hw, hstop⟩ := hstop
      exact absurd (hall w hw) hstop
    · rw [List.append_nil, List.append_nil, hsome]
      exact congrArg Left.result (Left.andThen_of_error herror x _)

/-! ### Recovery -/

/-- Whether an interceptor recovers from a failure: it declares no kinds, or the error or one of those
    that caused it is of a declared kind. -/
def Rescues (i : Interceptor S) (failure : Failure) : Prop :=
  i.recoversFrom = [] ∨ ∃ cause ∈ failure.chain, cause.kind ∈ i.recoversFrom

theorem handles_iff {i : Interceptor S} {failure : Failure} :
    i.handles failure = true ↔ Rescues i failure := by
  unfold Interceptor.handles Rescues Failure.hasKind
  simp only [Bool.or_eq_true, List.isEmpty_iff, List.any_eq_true, beq_iff_eq]
  constructor
  · rintro (h | ⟨kind, hkind, cause, hcause, rfl⟩)
    · exact Or.inl h
    · exact Or.inr ⟨cause, hcause, hkind⟩
  · rintro (h | ⟨cause, hcause, hkind⟩)
    · exact Or.inl h
    · exact Or.inr ⟨cause.kind, hkind, cause, hcause, rfl⟩

/-- The invocations in recovery from a failure, if there is one: that of the first interceptor of the
    chain that recovers from it. -/
structure Recovery (chain : List (Interceptor S)) (failure : Option Failure)
    (c : List (Invocation S)) : Prop where
  of_none : failure = none → c = []
  of_some : ∀ f, failure = some f →
    (∃ front i back, chain = front ++ i :: back ∧ Rescues i f ∧ (∀ j ∈ front, ¬ Rescues j f) ∧
      c.map (·.callee) = [.interceptor i (some f)]) ∨
    (∀ j ∈ chain, ¬ Rescues j f) ∧ c = []

/-- How a request stands after the invocations before its conclusion. -/
def settledOf (b h a c : List (Invocation S)) : Settled :=
  match failureOf (b ++ h ++ a), c with
  | none, _ => .replied (terminalReply b h a)
  | some failure, [] => .failed failure
  | some failure, v :: _ =>
    match v.result with
    | .ok outcome => .recovered (outcome.replyOr .noResult) failure
    | .error failure => .failed failure

theorem find?_logged (is : List (Interceptor S)) (failure : Failure) :
    (is.map Interceptor.logged).find? (·.handles failure) =
      (is.find? (·.handles failure)).map Interceptor.logged := by
  rw [List.find?_map]
  rfl

namespace Plan

variable {plan : Plan S} {x : Exchange} {s : S}

theorem settle_of_ok {reply : Reply} (h : (plan.run x s).result = .ok reply) :
    plan.settle x s = ⟨.replied reply, (plan.run x s).response, (plan.run x s).state⟩ := by
  simp only [settle, h]

theorem settle_of_unrescued {failure : Failure} (h : (plan.run x s).result = .error failure)
    (hnone : plan.rescuer? failure = none) :
    plan.settle x s = ⟨.failed failure, (plan.run x s).response, (plan.run x s).state⟩ := by
  simp only [settle, h, hnone]

theorem settle_of_rescued {failure : Failure} (h : (plan.run x s).result = .error failure)
    {i : Interceptor S} (hi : plan.rescuer? failure = some i) {rescued : Left S Outcome}
    (hrescued : i.call (some failure) (x.withResponse (plan.run x s).response)
      (plan.run x s).state = rescued) :
    plan.settle x s =
      ⟨match rescued.result with
        | .ok outcome => .recovered (outcome.replyOr .noResult) failure
        | .error e => .failed e, rescued.response, rescued.state⟩ := by
  simp only [settle, h, hi, hrescued]
  cases rescued.result with
  | ok outcome => rfl
  | error e => rfl

end Plan

/-- What settles a request, and the log of it. -/
theorem settle_traces (plan : Plan S) (x : Exchange) (s : S) (log : List (Invocation S)) :
    ∃ b h a c,
      plan.logged.settle x (s, log) = ⟨(plan.settle x s).settled, (plan.settle x s).response,
        ((plan.settle x s).state, log ++ (b ++ h ++ a ++ c))⟩ ∧
      Threads x s (b ++ h ++ a ++ c) (plan.settle x s).response (plan.settle x s).state ∧
      Phases plan.before plan.handler plan.after b h a ∧
      Recovery plan.recover (failureOf (b ++ h ++ a)) c ∧
      (plan.settle x s).settled = settledOf b h a c := by
  obtain ⟨b, h, a, htraces, hphases, hresult⟩ := run_traces plan x s log
  have hthreads := htraces.threads
  have herased := htraces.erased
  have hresult' : (plan.logged.run x (s, log)).result = (plan.run x s).result := by
    rw [herased]
    rfl
  cases hfailure : failureOf (b ++ h ++ a) with
  | none =>
    rw [hfailure] at hresult
    refine ⟨b, h, a, [], ?_, ?_, hphases, ⟨fun _ => rfl, ?_⟩, ?_⟩
    · rw [Plan.settle_of_ok hresult, Plan.settle_of_ok (hresult'.trans hresult), herased,
        List.append_nil]
      rfl
    · rw [Plan.settle_of_ok hresult, List.append_nil]
      exact hthreads
    · intro f hf
      rw [hfailure] at hf
      cases hf
    · rw [Plan.settle_of_ok hresult]
      unfold settledOf
      rw [hfailure]
  | some failure =>
    rw [hfailure] at hresult
    have hlogged : plan.logged.rescuer? failure =
        (plan.rescuer? failure).map Interceptor.logged := find?_logged _ _
    cases hrescuer : plan.rescuer? failure with
    | none =>
      rw [hrescuer] at hlogged
      refine ⟨b, h, a, [], ?_, ?_, hphases, ⟨fun _ => rfl, ?_⟩, ?_⟩
      · rw [Plan.settle_of_unrescued hresult hrescuer,
          Plan.settle_of_unrescued (hresult'.trans hresult) hlogged, herased, List.append_nil]
        rfl
      · rw [Plan.settle_of_unrescued hresult hrescuer, List.append_nil]
        exact hthreads
      · intro f hf
        rw [hfailure, Option.some.injEq] at hf
        subst hf
        refine Or.inr ⟨?_, rfl⟩
        intro j hj hrescues
        exact List.find?_eq_none.mp hrescuer j hj (handles_iff.mpr hrescues)
      · rw [Plan.settle_of_unrescued hresult hrescuer]
        unfold settledOf
        rw [hfailure]
    | some i =>
      rw [hrescuer] at hlogged
      let y := x.withResponse (plan.run x s).response
      let v : Invocation S := ⟨.interceptor i (some failure), y, (plan.run x s).state⟩
      have hcall := (Callee.interceptor i (some failure)).traces y (plan.run x s).state
        (log ++ (b ++ h ++ a))
      have hcalled : i.logged.call (some failure)
          (x.withResponse (plan.logged.run x (s, log)).response) (plan.logged.run x (s, log)).state =
          v.left.logged (log ++ (b ++ h ++ a) ++ [v]) := by
        rw [herased]
        rfl
      have hsettle := Plan.settle_of_rescued hresult hrescuer rfl
      have hsettle' := Plan.settle_of_rescued (hresult'.trans hresult) hlogged hcalled
      refine ⟨b, h, a, [v], ?_, ?_, hphases, ⟨?_, ?_⟩, ?_⟩
      · rw [hsettle, hsettle', ← List.append_assoc log (b ++ h ++ a) [v]]
        rfl
      · rw [hsettle]
        exact hthreads.append hcall.threads
      · intro hnone
        rw [hfailure] at hnone
        cases hnone
      · intro f hf
        rw [hfailure, Option.some.injEq] at hf
        subst hf
        obtain ⟨hi, front, back, hchain, hfront⟩ := List.find?_eq_some_iff_append.mp hrescuer
        refine Or.inl ⟨front, i, back, hchain, handles_iff.mp hi, ?_, rfl⟩
        intro j hj hrescues
        have hnot := hfront j hj
        rw [handles_iff.mpr hrescues] at hnot
        cases hnot
      · rw [hsettle]
        unfold settledOf
        rw [hfailure]
        rfl

/-! ### Dispatches -/

theorem firstMatch_logged (path : String) (endpoints : List (Endpoint S)) :
    Table.firstMatch path (endpoints.map Endpoint.logged) =
      (Table.firstMatch path endpoints).map fun m => (m.1.logged, m.2) := by
  induction endpoints with
  | nil => rfl
  | cons e more ih =>
    have hroute : e.logged.route = e.route := rfl
    rw [List.map_cons, Table.firstMatch, Table.firstMatch, ih, hroute]
    cases e.route.pattern.captures path with
    | some params => rfl
    | none => rfl

theorem endpointFor?_logged (t : Table S) (request : Request) :
    t.logged.endpointFor? request = (t.endpointFor? request).map fun m => (m.1.logged, m.2) := by
  unfold Table.endpointFor?
  cases request.verb with
  | error e => rfl
  | ok verb =>
    have hendpoints : t.logged.endpointsOf verb = (t.endpointsOf verb).map Endpoint.logged := by
      unfold Table.endpointsOf
      exact List.filter_map
    simp only [Table.find?, hendpoints, firstMatch_logged]

theorem chain_logged (t : Table S) (controller : String) (kind : InterceptorKind) :
    t.logged.chain controller kind = (t.chain controller kind).map Interceptor.logged := by
  unfold Table.chain
  change ((t.attachments.map _).filter _).filterMap _ = _
  rw [List.filter_map, List.filterMap_map, List.map_filterMap]
  congr 1
  funext a
  change (if a.interceptor.kind = kind then some a.interceptor.logged else none) = _
  by_cases hkind : a.interceptor.kind = kind
  · simp [hkind]
  · simp [hkind]

/-- The interceptors of one kind that apply to an endpoint serving a path, in the order of their
    chain. -/
def Table.applicable (t : Table S) (endpoint : Endpoint S) (path : String)
    (kind : InterceptorKind) : List (Interceptor S) :=
  (t.chain endpoint.route.target.controller kind).filter
    (·.appliesTo endpoint.route.target path)

theorem plan_eq (t : Table S) (endpoint : Endpoint S) (path : String) :
    t.plan endpoint path = ⟨t.applicable endpoint path .before, endpoint.handler,
      t.applicable endpoint path .after, t.chain endpoint.route.target.controller .recover,
      t.applicable endpoint path .conclude⟩ := rfl

theorem applicable_logged (t : Table S) (endpoint : Endpoint S) (path : String)
    (kind : InterceptorKind) :
    t.logged.applicable endpoint.logged path kind =
      (t.applicable endpoint path kind).map Interceptor.logged := by
  unfold Table.applicable
  rw [chain_logged, List.filter_map]
  rfl

theorem plan_logged (t : Table S) (endpoint : Endpoint S) (path : String) :
    t.logged.plan endpoint.logged path = (t.plan endpoint path).logged := by
  rw [plan_eq, plan_eq, applicable_logged, applicable_logged, applicable_logged, chain_logged]
  rfl

/-- The response with a reply written to it, if there is one. -/
def writtenBy (reply : Option Reply) (response : Response) : Response :=
  match reply with
  | some reply => reply.apply response
  | none => response

/-- What serving a request invokes and comes to: the phases until it is settled, and after the reply
    has been written the concluding interceptors `f`; the failure among these counts only if there is
    no other. -/
theorem serve_ends (plan : Plan S) (action : String) (x : Exchange) (s : S)
    (log : List (Invocation S)) :
    ∃ b h a c f,
      plan.logged.serve action x (s, log) =
        ⟨(plan.serve action x s).result, (plan.serve action x s).exchange,
          ((plan.serve action x s).state, log ++ (b ++ h ++ a ++ c ++ f))⟩ ∧
      Threads x s (b ++ h ++ a ++ c) (plan.settle x s).response (plan.settle x s).state ∧
      Phases plan.before plan.handler plan.after b h a ∧
      Recovery plan.recover (failureOf (b ++ h ++ a)) c ∧
      (plan.settle x s).settled = settledOf b h a c ∧
      Threads (x.withResponse (Plan.written (plan.settle x s))) (plan.settle x s).state f
        (plan.serve action x s).exchange.response (plan.serve action x s).state ∧
      UpToFirst (fun v => v.failure? ≠ none)
        (calleesOf (plan.settle x s).settled.failure? plan.conclude) f ∧
      (plan.serve action x s).result =
        match (plan.settle x s).settled.unhandled?
          (match failureOf f with
            | some failure => .error failure
            | none => .ok ()) with
        | some failure => .error (.unhandled action failure)
        | none => .ok true := by
  obtain ⟨b, h, a, c, hsettle, hthreads, hphases, hrecovery, hsettled⟩ :=
    settle_traces plan x s log
  have hwritten : Plan.written (plan.logged.settle x (s, log)) =
      Plan.written (plan.settle x s) := by
    rw [hsettle]
    rfl
  obtain ⟨f, htraces, hconclude, hresult⟩ := runConclude_traces plan.conclude
    (plan.settle x s).settled.failure? (x.withResponse (Plan.written (plan.settle x s)))
    (plan.settle x s).state (log ++ (b ++ h ++ a ++ c))
  refine ⟨b, h, a, c, f, ?_, hthreads, hphases, hrecovery, hsettled, htraces.threads, hconclude, ?_⟩
  · have hconcluded : Plan.runConclude (plan.logged.settle x (s, log)).settled.failure?
        plan.logged.conclude (x.withResponse (Plan.written (plan.logged.settle x (s, log))))
        (plan.logged.settle x (s, log)).state =
        (Plan.runConclude (plan.settle x s).settled.failure? plan.conclude
          (x.withResponse (Plan.written (plan.settle x s))) (plan.settle x s).state).logged
          (log ++ (b ++ h ++ a ++ c) ++ f) := by
      rw [hwritten, hsettle]
      exact htraces.erased
    unfold Plan.serve
    simp only [hconcluded]
    rw [hsettle, List.append_assoc log]
    rfl
  · rw [← hresult]
    rfl

/-- What serving a request invokes. -/
theorem serve_settles (plan : Plan S) (action : String) (x : Exchange) (s : S)
    (log : List (Invocation S)) :
    ∃ b h a c f,
      plan.logged.serve action x (s, log) =
        ⟨(plan.serve action x s).result, (plan.serve action x s).exchange,
          ((plan.serve action x s).state, log ++ (b ++ h ++ a ++ c ++ f))⟩ ∧
      Threads x s (b ++ h ++ a ++ c) (plan.settle x s).response (plan.settle x s).state ∧
      Phases plan.before plan.handler plan.after b h a ∧
      Recovery plan.recover (failureOf (b ++ h ++ a)) c ∧
      (plan.settle x s).settled = settledOf b h a c ∧
      Threads (x.withResponse (Plan.written (plan.settle x s))) (plan.settle x s).state f
        (plan.serve action x s).exchange.response (plan.serve action x s).state ∧
      UpToFirst (fun v => v.failure? ≠ none)
        (calleesOf (plan.settle x s).settled.failure? plan.conclude) f := by
  obtain ⟨b, h, a, c, f, hlog, hthreads, hphases, hrecovery, hsettled, hwritten, hconclude, -⟩ :=
    serve_ends plan action x s log
  exact ⟨b, h, a, c, f, hlog, hthreads, hphases, hrecovery, hsettled, hwritten, hconclude⟩

/-- As `serve_settles`, with the reply and the failure read off the invocations. -/
theorem serve_traces (plan : Plan S) (action : String) (x : Exchange) (s : S)
    (log : List (Invocation S)) :
    ∃ b h a c f response s',
      plan.logged.serve action x (s, log) =
        ⟨(plan.serve action x s).result, (plan.serve action x s).exchange,
          ((plan.serve action x s).state, log ++ (b ++ h ++ a ++ c ++ f))⟩ ∧
      Threads x s (b ++ h ++ a ++ c) response s' ∧
      Phases plan.before plan.handler plan.after b h a ∧
      Recovery plan.recover (failureOf (b ++ h ++ a)) c ∧
      Threads (x.withResponse (writtenBy (settledOf b h a c).reply? response)) s' f
        (plan.serve action x s).exchange.response (plan.serve action x s).state ∧
      UpToFirst (fun v => v.failure? ≠ none)
        (calleesOf (settledOf b h a c).failure? plan.conclude) f := by
  obtain ⟨b, h, a, c, f, hlog, hthreads, hphases, hrecovery, hsettled, hwritten, hconclude⟩ :=
    serve_settles plan action x s log
  refine ⟨b, h, a, c, f, _, _, hlog, hthreads, hphases, hrecovery, ?_, hsettled ▸ hconclude⟩
  rw [← hsettled]
  exact hwritten

/-- What a dispatch through an endpoint runs, with the log and without. -/
theorem dispatch_logged_of_found {t : Table S} (hsealed : t.isSealed = true) {x : Exchange}
    {endpoint : Endpoint S} {params : Params}
    (hfound : t.endpointFor? x.request = some (endpoint, params)) (s : S)
    (log : List (Invocation S)) :
    t.logged.dispatch x (s, log) = (t.plan endpoint x.request.path).logged.serve
      endpoint.route.target.qualified { x with matched := some ⟨endpoint.route, params⟩ }
      (s, log) := by
  have hsealed' : t.logged.isSealed = true := hsealed
  have hfound' : t.logged.endpointFor? x.request = some (endpoint.logged, params) := by
    rw [endpointFor?_logged, hfound]
    rfl
  rw [← plan_logged]
  simp only [Table.dispatch, hsealed', hfound']
  rfl

theorem dispatch_of_found {t : Table S} (hsealed : t.isSealed = true) {x : Exchange}
    {endpoint : Endpoint S} {params : Params}
    (hfound : t.endpointFor? x.request = some (endpoint, params)) (s : S) :
    t.dispatch x s = (t.plan endpoint x.request.path).serve endpoint.route.target.qualified
      { x with matched := some ⟨endpoint.route, params⟩ } s := by
  simp [Table.dispatch, hsealed, hfound]

/-- **What a dispatch invokes.**  In a sealed table, for a request that an endpoint serves, with any
    callbacks: the log of the dispatch is `b ++ h ++ a ++ c ++ f`, and without its log the dispatch is
    that of the table itself.  The interceptors before the handler, the handler, those after it and
    the first one that recovers from a failure are invoked as `Phases` and `Recovery` say, each with
    what the one before it left.  Then the terminal reply of `settledOf`, if there is one, has been
    written once, and the concluding interceptors follow. -/
theorem dispatch_invokes {t : Table S} (hsealed : t.isSealed = true) {x : Exchange}
    {endpoint : Endpoint S} {params : Params}
    (hfound : t.endpointFor? x.request = some (endpoint, params)) (s : S) :
    ∃ b h a c f response s',
      t.logged.dispatch x (s, []) = ⟨(t.dispatch x s).result, (t.dispatch x s).exchange,
        ((t.dispatch x s).state, b ++ h ++ a ++ c ++ f)⟩ ∧
      Threads { x with matched := some ⟨endpoint.route, params⟩ } s (b ++ h ++ a ++ c) response s' ∧
      Phases (t.applicable endpoint x.request.path .before) endpoint.handler
        (t.applicable endpoint x.request.path .after) b h a ∧
      Recovery (t.chain endpoint.route.target.controller .recover) (failureOf (b ++ h ++ a)) c ∧
      Threads ({ x with matched := some ⟨endpoint.route, params⟩ }.withResponse
          (writtenBy (settledOf b h a c).reply? response)) s' f
        (t.dispatch x s).exchange.response (t.dispatch x s).state ∧
      UpToFirst (fun v => v.failure? ≠ none)
        (calleesOf (settledOf b h a c).failure? (t.applicable endpoint x.request.path .conclude))
        f := by
  rw [dispatch_of_found hsealed hfound, dispatch_logged_of_found hsealed hfound]
  exact serve_traces (t.plan endpoint x.request.path) endpoint.route.target.qualified
    { x with matched := some ⟨endpoint.route, params⟩ } s []

theorem verb_of_ofText? {request : Request} {verb : Verb}
    (h : Verb.ofText? request.method = some verb) : request.verb = .ok verb := by
  rw [Request.verb, h]

/-- The only endpoint of a table, found through a path that its pattern matches. -/
theorem endpointFor?_of_captures {t : Table S} {endpoint : Endpoint S} {request : Request}
    {params : Params} (hendpoints : t.endpoints = [endpoint])
    (hverb : request.verb = .ok endpoint.route.verb)
    (hcaptures : endpoint.route.pattern.captures request.path = some params) :
    t.endpointFor? request = some (endpoint, params) := by
  have hof : t.endpointsOf endpoint.route.verb = [endpoint] := by
    rw [Table.endpointsOf, hendpoints, List.filter_cons_of_pos (by simp), List.filter_nil]
  rw [Table.endpointFor?, hverb]
  change Table.firstMatch request.path (t.endpointsOf endpoint.route.verb) = _
  rw [hof, Table.firstMatch, hcaptures]

/-! ### A route with interceptors of every kind -/

/-- What `/` compiles to. -/
def homeRoute : Route where
  verb := .get
  pattern := ⟨"/", "^(?:/?)$", .seqs [.look .textStart,
    .rounds (.one (.folded (.single 47))) 0 (some 1) true, .look .textEnd], []⟩
  target := ⟨"Home", "show"⟩

theorem compile_home : Route.compile {} .get "/" ⟨"Home", "show"⟩ = .ok homeRoute := by
  decide +kernel

/-- A sealed table of this route and interceptors of its controller. -/
def homeTable (handler : Callback S Outcome) (is : List (Interceptor S)) : Table S :=
  (Table.empty ⟨{}, false⟩).run (Table.singleCalls ⟨.get, "/", ⟨"Home", "show"⟩, handler⟩ is)

theorem homeTable_eq (handler : Callback S Outcome) (is : List (Interceptor S)) :
    homeTable handler is = ⟨⟨{}, false⟩, [⟨homeRoute, handler⟩],
      Table.sortAttachments (is.map (⟨"Home", ·⟩)), true⟩ :=
  Table.run_singleCalls compile_home is

theorem isSealed_homeTable (handler : Callback S Outcome) (is : List (Interceptor S)) :
    (homeTable handler is).isSealed = true := by
  rw [homeTable_eq]

def gettingHome : Exchange := Exchange.ofRequest ⟨"GET", "/", [], [], []⟩

theorem endpointFor?_homeTable (handler : Callback S Outcome) (is : List (Interceptor S)) :
    (homeTable handler is).endpointFor? gettingHome.request =
      some (⟨homeRoute, handler⟩, Params.empty) := by
  have hverb : Verb.ofText? "GET" = some .get := by decide
  have hcaptures : homeRoute.pattern.captures "/" = some Params.empty := by decide
  exact endpointFor?_of_captures (by rw [homeTable_eq]) (verb_of_ofText? hverb) hcaptures

/-- Interceptors of every kind around a handler that fails.  The one for another action is left out,
    the one behind the handler is not reached, and the failure is recovered from. -/
theorem dispatch_invokes_rescuer :
    let failing : Callback Nat Outcome := fun x s => ⟨.error (.ofText "lost"), x.response, s + 1⟩
    let enter : Interceptor Nat := .before "enter" fun x s => ⟨.ok .pass, x.response, s + 1⟩
    let other : Interceptor Nat := (Interceptor.before "other" (Left.done .pass)).onlyFor ["edit"]
    let leave : Interceptor Nat := .after "leave" (Left.done .pass)
    let rescue : Interceptor Nat := .recover "rescue" fun _ => Left.done (.reply (.text "rescued"))
    let finish : Interceptor Nat := .conclude "finish" fun _ => Left.done ()
    let t := homeTable failing [enter, other, leave, rescue, finish]
    t.isSealed = true ∧
      t.endpointFor? gettingHome.request = some (⟨homeRoute, failing⟩, Params.empty) ∧
      ∃ b h a c f, (t.logged.dispatch gettingHome (0, [])).state.2 = b ++ h ++ a ++ c ++ f ∧
        Phases [enter] failing [leave] b h a ∧ Recovery [rescue] (failureOf (b ++ h ++ a)) c ∧
        UpToFirst (fun v => v.failure? ≠ none)
          (calleesOf (settledOf b h a c).failure? [finish]) f := by
  intro failing enter other leave rescue finish t
  have hfound := endpointFor?_homeTable failing [enter, other, leave, rescue, finish]
  have hchain : ∀ kind, t.chain "Home" kind =
      [enter, other, leave, rescue, finish].filter (·.kind = kind) := by
    intro kind
    rw [show t = _ from homeTable_eq _ _]
    cases kind <;> rfl
  have happlicable : ∀ kind, t.applicable ⟨homeRoute, failing⟩ "/" kind =
      ([enter, other, leave, rescue, finish].filter (·.kind = kind)).filter
        (·.appliesTo homeRoute.target "/") :=
    fun kind => congrArg (List.filter _) (hchain kind)
  have hbefore : t.applicable ⟨homeRoute, failing⟩ "/" .before = [enter] := by
    have hother : other.appliesTo homeRoute.target "/" = false := by decide +kernel
    rw [happlicable]
    change [enter, other].filter (·.appliesTo homeRoute.target "/") = _
    rw [List.filter_cons_of_pos rfl, List.filter_cons_of_neg (by simp [hother]), List.filter_nil]
  have hafter : t.applicable ⟨homeRoute, failing⟩ "/" .after = [leave] := happlicable .after
  have hrescue : t.chain "Home" .recover = [rescue] := hchain .recover
  have hfinish : t.applicable ⟨homeRoute, failing⟩ "/" .conclude = [finish] :=
    happlicable .conclude
  refine ⟨isSealed_homeTable _ _, hfound, ?_⟩
  obtain ⟨b, h, a, c, f, response, s', hlog, -, hphases, hrecovery, -, hconclude⟩ :=
    dispatch_invokes (t := t) (isSealed_homeTable _ _) hfound 0
  refine ⟨b, h, a, c, f, by rw [hlog], ?_, ?_, ?_⟩
  · rw [← hbefore, ← hafter]
    exact hphases
  · rw [← hrescue]
    exact hrecovery
  · rw [← hfinish]
    exact hconclude

end RequestRouter
