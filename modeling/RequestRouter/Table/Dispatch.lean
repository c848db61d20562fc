/-
  RequestRouter/Table/Dispatch.lean
  =================================
  **Dispatching: a request run through the route that serves it.**

  Interceptors that come before run first; if none of them replies the handler runs, and then those
  that come after. The first failure among these goes to the first interceptor that recovers from it,
  whatever that one's scope. The reply is written, and last of all the concluding interceptors run. A
  failure that nobody recovered from is the error of the dispatch; one of a concluding interceptor is
  so only if there is no other.
-/
import RequestRouter.Table.Basic

namespace RequestRouter

open RequestRouter.Http

/-- The callbacks that may run for a request. -/
structure Plan (S : Type) where
  before : List (Interceptor S)
  handler : Callback S Outcome
  after : List (Interceptor S)
  recover : List (Interceptor S)
  conclude : List (Interceptor S)

namespace Plan

variable {S : Type}

/-- Runs interceptors until one of them replies. -/
def runBefore : List (Interceptor S) → Callback S Outcome
  | [] => Left.done .pass
  | i :: more => fun x s =>
    (i.call none x s).andThen x fun
      | .reply reply => Left.done (.reply reply)
      | .pass => runBefore more

/-- Runs interceptors; each that replies replaces the reply. -/
def runAfter (reply : Reply) : List (Interceptor S) → Callback S Reply
  | [] => Left.done reply
  | i :: more => fun x s =>
    (i.call none x s).andThen x fun outcome => runAfter (outcome.replyOr reply) more

/-- Runs interceptors and handler up to the reply. -/
def run (plan : Plan S) : Callback S Reply := fun x s =>
  (runBefore plan.before x s).andThen x fun
    | .reply reply => Left.done reply
    | .pass => fun x s =>
      (plan.handler x s).andThen x fun outcome => runAfter (outcome.replyOr .noResult) plan.after

def rescuer? (plan : Plan S) (failure : Failure) : Option (Interceptor S) :=
  plan.recover.find? (·.handles failure)

/-- Runs interceptors with the failure that there was, if there was one, up to one that fails. -/
def runConclude (failure : Option Failure) : List (Interceptor S) → Callback S Unit
  | [] => Left.done ()
  | i :: more => fun x s =>
    (i.call failure x s).andThen x fun _ => runConclude failure more

end Plan

/-- How a request stands before the concluding interceptors run. -/
inductive Settled where
  | replied (reply : Reply)
  /-- A failure, and the reply in its place. -/
  | recovered (reply : Reply) (failure : Failure)
  | failed (failure : Failure)
deriving DecidableEq, Repr

namespace Settled

def reply? : Settled → Option Reply
  | .replied reply | .recovered reply _ => some reply
  | .failed _ => none

/-- The failure that concluding interceptors are told. -/
def failure? : Settled → Option Failure
  | .replied _ => none
  | .recovered _ failure | .failed failure => some failure

/-- The failure that nobody recovered from: the one before the conclusion, or that of the
    conclusion. -/
def unhandled? (settled : Settled) (concluded : Except Failure Unit) : Option Failure :=
  match settled, concluded with
  | .failed failure, _ => some failure
  | _, .error failure => some failure
  | _, .ok () => none

end Settled

/-- A request settled, with the response and the state that the callbacks left. -/
structure Settlement (S : Type) where
  settled : Settled
  response : Response
  state : S

/-- What a dispatch leaves: whether a route served the request, the exchange and the state. -/
structure Dispatched (S : Type) where
  result : Except DispatchError Bool
  exchange : Exchange
  state : S

namespace Plan

variable {S : Type}

/-- Runs the callbacks up to the reply and recovers from a failure. -/
def settle (plan : Plan S) (x : Exchange) (s : S) : Settlement S :=
  let left := plan.run x s
  match left.result with
  | .ok reply => ⟨.replied reply, left.response, left.state⟩
  | .error failure =>
    match plan.rescuer? failure with
    | none => ⟨.failed failure, left.response, left.state⟩
    | some rescuer =>
      let rescued := rescuer.call (some failure) (x.withResponse left.response) left.state
      match rescued.result with
      | .ok outcome =>
        ⟨.recovered (outcome.replyOr .noResult) failure, rescued.response, rescued.state⟩
      | .error failure => ⟨.failed failure, rescued.response, rescued.state⟩

/-- The response with the reply written, if there is one. -/
def written (settlement : Settlement S) : Response :=
  match settlement.settled.reply? with
  | some reply => reply.apply settlement.response
  | none => settlement.response

/-- Runs all callbacks for a matched request, on behalf of an action. -/
def serve (plan : Plan S) (action : String) (x : Exchange) (s : S) : Dispatched S :=
  let settlement := plan.settle x s
  let concluded := runConclude settlement.settled.failure? plan.conclude
    (x.withResponse (written settlement)) settlement.state
  let result := match settlement.settled.unhandled? concluded.result with
    | some failure => .error (.unhandled action failure)
    | none => .ok true
  ⟨result, x.withResponse concluded.response, concluded.state⟩

end Plan

namespace Table

variable {S : Type}

/-- The callbacks for a request of a path that an endpoint serves. Scopes do not bind those that
    recover. -/
def plan (t : Table S) (endpoint : Endpoint S) (path : String) : Plan S :=
  let target := endpoint.route.target
  let inScope (kind : InterceptorKind) : List (Interceptor S) :=
    (t.chain target.controller kind).filter (·.appliesTo target path)
  { before := inScope .before
    handler := endpoint.handler
    after := inScope .after
    recover := t.chain target.controller .recover
    conclude := inScope .conclude }

/-- The endpoint that serves a request, with the parameters that it takes. -/
def endpointFor? (t : Table S) (request : Request) : Option (Endpoint S × Params) :=
  match request.verb with
  | .error _ => none
  | .ok verb => t.find? verb request.path

/-- Dispatches a request. The answer says whether a route served it. -/
def dispatch (t : Table S) (x : Exchange) (s : S) : Dispatched S :=
  if !t.isSealed then ⟨.error .notNormalized, x, s⟩
  else match t.endpointFor? x.request with
    | none => ⟨.ok false, x, s⟩
    | some (endpoint, params) =>
      (t.plan endpoint x.request.path).serve endpoint.route.target.qualified
        { x with matched := some ⟨endpoint.route, params⟩ } s

/-- An open table dispatches nothing. -/
theorem dispatch_of_open {t : Table S} (h : t.isSealed = false) (x : Exchange) (s : S) :
    t.dispatch x s = ⟨.error .notNormalized, x, s⟩ := by
  simp [dispatch, h]

/-- A request that no endpoint serves runs no callback. -/
theorem dispatch_of_endpointFor_none {t : Table S} (h : t.isSealed = true) {x : Exchange}
    (hx : t.endpointFor? x.request = none) (s : S) : t.dispatch x s = ⟨.ok false, x, s⟩ := by
  simp [dispatch, h, hx]

/-- Dispatching never changes the request. -/
@[simp] theorem request_dispatch (t : Table S) (x : Exchange) (s : S) :
    (t.dispatch x s).exchange.request = x.request := by
  unfold dispatch
  split
  · rfl
  · split <;> rfl

end Table

end RequestRouter
