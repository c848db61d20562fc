/-
  RequestRouter/Table/Basic.lean
  ==============================
  **The table of routes and interceptors.**

  A table takes declarations until it is sealed. Sealing moves the routes without parameters before
  those with parameters and puts interceptors in the order of their priorities; within either the
  order of declaration stays. The first route of a verb whose pattern matches is the one that serves.
-/
import RequestRouter.Interceptor.Basic

namespace RequestRouter

/-- What a table does with its declarations. -/
structure TableOptions where
  compile : CompileOptions
  /-- Whether a route that is already there is an error; otherwise it is passed over. -/
  rejectDuplicates : Bool

/-- A route and what it runs. -/
structure Endpoint (S : Type) where
  route : Route
  handler : Callback S Outcome

/-- An interceptor and the controller that it is for. -/
structure Attachment (S : Type) where
  controller : String
  interceptor : Interceptor S

/-- Routes and interceptors in the order in which they were declared, or sorted once sealed. -/
structure Table (S : Type) where
  options : TableOptions
  endpoints : List (Endpoint S)
  attachments : List (Attachment S)
  isSealed : Bool

namespace Table

variable {S : Type}

/-- A table without declarations. -/
def empty (options : TableOptions) : Table S := ⟨options, [], [], false⟩

/-! ### Looking up -/

def endpointsOf (t : Table S) (verb : Verb) : List (Endpoint S) :=
  t.endpoints.filter (·.route.verb == verb)

/-- The routes of a verb, in the order in which they are tried. -/
def routesOf (t : Table S) (verb : Verb) : List Route := (t.endpointsOf verb).map (·.route)

def routes (t : Table S) : List Route := Verb.all.flatMap t.routesOf

/-- How many routes the table holds. -/
def size (t : Table S) : Nat := t.endpoints.length

def isEmpty (t : Table S) : Bool := t.endpoints.isEmpty

/-- The first endpoint whose pattern matches a path, with the parameters that it takes. -/
def firstMatch (path : String) : List (Endpoint S) → Option (Endpoint S × Params)
  | [] => none
  | e :: more =>
    match e.route.pattern.captures path with
    | some params => some (e, params)
    | none => firstMatch path more

/-- The endpoint that serves a path under a verb, with the parameters that it takes. -/
def find? (t : Table S) (verb : Verb) (path : String) : Option (Endpoint S × Params) :=
  firstMatch path (t.endpointsOf verb)

def findRoute? (t : Table S) (verb : Verb) (path : String) : Option RouteMatch :=
  (t.find? verb path).map fun (endpoint, params) => ⟨endpoint.route, params⟩

/-- Whether anything is attached to a controller. -/
def hasChains (t : Table S) (controller : String) : Bool :=
  t.attachments.any (·.controller == controller)

/-- The interceptors of a controller of one kind, in the order in which they run. -/
def chain (t : Table S) (controller : String) (kind : InterceptorKind) : List (Interceptor S) :=
  (t.attachments.filter (·.controller == controller)).filterMap fun a =>
    if a.interceptor.kind = kind then some a.interceptor else none

/-! ### Declaring -/

/-- Whether a route is already there. -/
def contains (t : Table S) (verb : Verb) (spec : String) : Bool :=
  t.endpoints.any (·.route.hasKey verb spec)

/-- Declares a route. The answer says whether it was added. -/
def register (t : Table S) (verb : Verb) (spec : String) (target : Target)
    (handler : Callback S Outcome) : Except RouteError Bool × Table S :=
  if t.isSealed then (.error (.tableSealed ("route " ++ verb.name ++ " " ++ spec)), t)
  else if t.contains verb spec then
    if t.options.rejectDuplicates then (.error (.duplicate verb spec), t) else (.ok false, t)
  else match Route.compile t.options.compile verb spec target with
    | .error e => (.error e, t)
    | .ok route => (.ok true, { t with endpoints := t.endpoints ++ [⟨route, handler⟩] })

def attach (t : Table S) (controller : String) (interceptor : Interceptor S) :
    Except RouteError Unit × Table S :=
  if t.isSealed then
    (.error (.tableSealed ("interceptor " ++ interceptor.name ++ " on " ++ controller)), t)
  else (.ok (), { t with attachments := t.attachments ++ [⟨controller, interceptor⟩] })

/-! ### Sealing -/

/-- An attachment put before the first of a later or equal priority. -/
def insertAttachment (a : Attachment S) : List (Attachment S) → List (Attachment S)
  | [] => [a]
  | b :: more =>
    if a.interceptor.priority ≤ b.interceptor.priority then a :: b :: more
    else b :: insertAttachment a more

/-- Attachments by priority; equal priorities stay in the order in which they stand. -/
def sortAttachments : List (Attachment S) → List (Attachment S)
  | [] => []
  | a :: more => insertAttachment a (sortAttachments more)

/-- Endpoints without parameters, then those with parameters. -/
def staticFirst (endpoints : List (Endpoint S)) : List (Endpoint S) :=
  endpoints.filter (!·.route.isDynamic) ++ endpoints.filter (·.route.isDynamic)

/-- Seals the table. A sealed table stays as it is. -/
def normalize (t : Table S) : Table S :=
  if t.isSealed then t
  else { t with
    endpoints := staticFirst t.endpoints
    attachments := sortAttachments t.attachments
    isSealed := true }

@[simp] theorem isSealed_normalize (t : Table S) : t.normalize.isSealed = true := by
  unfold normalize
  split
  · assumption
  · rfl

/-- Sealing twice is sealing once. -/
@[simp] theorem normalize_normalize (t : Table S) : t.normalize.normalize = t.normalize := by
  rw [normalize, if_pos (isSealed_normalize t)]

/-- A sealed table takes no route. -/
theorem register_of_sealed {t : Table S} (h : t.isSealed = true) (verb : Verb) (spec : String)
    (target : Target) (handler : Callback S Outcome) :
    t.register verb spec target handler =
      (.error (.tableSealed ("route " ++ verb.name ++ " " ++ spec)), t) := by
  simp [register, h]

/-- A route that is not added leaves the table as it was. -/
theorem register_snd_of_ne_true {t : Table S} {verb : Verb} {spec : String} {target : Target}
    {handler : Callback S Outcome} (h : (t.register verb spec target handler).1 ≠ .ok true) :
    (t.register verb spec target handler).2 = t := by
  unfold register at h ⊢
  split
  · rfl
  · split
    · split <;> rfl
    · split
      · rfl
      · simp_all

end Table

end RequestRouter
