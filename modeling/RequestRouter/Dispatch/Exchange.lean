/-
  RequestRouter/Dispatch/Exchange.lean
  ====================================
  **Exchanges: a request, its response so far, and the route that matched.**

  Callbacks see an exchange and a state that they share. They may write the response and the state,
  and leave them written whether they succeed or fail; request and match are never theirs to change.
-/
import RequestRouter.Dispatch.Failure
import RequestRouter.Http.Reply
import RequestRouter.Route

namespace RequestRouter

open RequestRouter.Http

/-- A request, its response so far, and the route that matched. -/
structure Exchange where
  request : Request
  response : Response
  matched : Option RouteMatch
deriving DecidableEq, Repr

namespace Exchange

/-- An exchange with nothing written and no route matched. -/
def ofRequest (request : Request) : Exchange := ⟨request, Response.empty, none⟩

def withResponse (x : Exchange) (response : Response) : Exchange := { x with response := response }

def apply (x : Exchange) (reply : Reply) : Exchange := x.withResponse (reply.apply x.response)

def pathValues (x : Exchange) (name : String) : List String :=
  match x.matched with
  | some m => m.params.getAll name
  | none => []

def pathParam? (x : Exchange) (name : String) : Option String := (x.pathValues name).head?

/-- The anonymous capture at an index. -/
def splat? (x : Exchange) (index : Nat) : Option String :=
  x.matched.bind fun m => m.params.splat? index

/-- The raw texts that a source holds. -/
def values (x : Exchange) : ParamSource → List String
  | .path name => x.pathValues name
  | .splat index => (x.splat? index).toList
  | .query name => x.request.queryAll name
  | .any name =>
    match x.pathValues name with
    | [] => x.request.queryAll name
    | captured => captured

def bind (x : Exchange) (type : ArgumentType) (source : ParamSource) : Except BindError Argument :=
  type.bind source.label (x.values source)

@[simp] theorem request_withResponse (x : Exchange) (r : Response) :
    (x.withResponse r).request = x.request := rfl

@[simp] theorem matched_withResponse (x : Exchange) (r : Response) :
    (x.withResponse r).matched = x.matched := rfl

@[simp] theorem response_withResponse (x : Exchange) (r : Response) :
    (x.withResponse r).response = r := rfl

end Exchange

/-! ### Callbacks -/

/-- What a handler or an interceptor asks for. -/
inductive Outcome where
  /-- Write this reply, and stop if there is more to come. -/
  | reply (reply : Reply)
  /-- Nothing to write. -/
  | pass
deriving DecidableEq, Repr

namespace Outcome

/-- The reply asked for, or the given one. -/
def replyOr (o : Outcome) (dflt : Reply) : Reply :=
  match o with
  | .reply r => r
  | .pass => dflt

end Outcome

/-- What a callback leaves: its result, the response and the shared state. -/
structure Left (S α : Type) where
  result : Except Failure α
  response : Response
  state : S

/-- A callback, or several run as one. -/
abbrev Callback (S α : Type) := Exchange → S → Left S α

namespace Left

variable {S α β : Type}

/-- A result with response and state as they are. -/
def done (a : α) (x : Exchange) (s : S) : Left S α := ⟨.ok a, x.response, s⟩

/-- A result, or a failure, with response and state as they are. -/
def ofExcept (result : Except Failure α) (x : Exchange) (s : S) : Left S α :=
  ⟨result, x.response, s⟩

/-- Goes on from what a callback left, unless it failed. -/
def andThen (left : Left S α) (x : Exchange) (next : α → Callback S β) : Left S β :=
  match left.result with
  | .ok a => next a (x.withResponse left.response) left.state
  | .error e => ⟨.error e, left.response, left.state⟩

theorem andThen_of_ok {left : Left S α} {a : α} (h : left.result = .ok a) (x : Exchange)
    (next : α → Callback S β) :
    left.andThen x next = next a (x.withResponse left.response) left.state := by
  simp [andThen, h]

theorem andThen_of_error {left : Left S α} {e : Failure} (h : left.result = .error e)
    (x : Exchange) (next : α → Callback S β) :
    left.andThen x next = ⟨.error e, left.response, left.state⟩ := by
  simp [andThen, h]

end Left

end RequestRouter
