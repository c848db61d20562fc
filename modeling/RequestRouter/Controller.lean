/-
  RequestRouter/Controller.lean
  =============================
  **Controllers: declarations under one name, and how they are put into a table.**

  A declaration stands for a route for each base path, each path and each verb, in that nesting. A
  controller is installed route by route and then interceptor by interceptor, up to the first error.
-/
import RequestRouter.Path
import RequestRouter.Table.Basic

namespace RequestRouter

/-- An action, with the verbs and paths that lead to it. -/
structure Declaration (S : Type) where
  verbs : List Verb
  /-- No paths stand for the root. -/
  paths : List String
  action : String
  handler : Callback S Outcome

/-- Declarations and interceptors under one name. -/
structure Controller (S : Type) where
  name : String
  /-- What stands before every path; nothing stands for the root. -/
  basePaths : List String
  declarations : List (Declaration S)
  interceptors : List (Interceptor S)

/-- One route to be registered. -/
structure Registration (S : Type) where
  verb : Verb
  spec : String
  target : Target
  handler : Callback S Outcome

namespace Controller

variable {S : Type}

/-! ### Declaring -/

/-- A controller without declarations. -/
def empty (name : String) (basePaths : List String) : Controller S := ⟨name, basePaths, [], []⟩

def route (c : Controller S) (verbs : List Verb) (paths : List String) (action : String)
    (handler : Callback S Outcome) : Controller S :=
  { c with declarations := c.declarations ++ [⟨verbs, paths, action, handler⟩] }

def interceptor (c : Controller S) (i : Interceptor S) : Controller S :=
  { c with interceptors := c.interceptors ++ [i] }

def group (c : Controller S) (g : InterceptorGroup S) : Controller S :=
  { c with interceptors := c.interceptors ++ g.flatten }

/-! ### Expanding -/

/-- The texts, or the root if there is none. -/
def orRoot (paths : List String) : List String := if paths.isEmpty then ["/"] else paths

def specs (c : Controller S) (paths : List String) : List String :=
  (orRoot c.basePaths).flatMap fun base => (orRoot paths).map (Path.join base)

def expand (c : Controller S) (d : Declaration S) : List (Registration S) :=
  (c.specs d.paths).flatMap fun spec =>
    (if d.verbs.isEmpty then Verb.all else d.verbs).map fun verb =>
      ⟨verb, spec, ⟨c.name, d.action⟩, d.handler⟩

def registrations (c : Controller S) : List (Registration S) := c.declarations.flatMap c.expand

end Controller

namespace Table

variable {S : Type}

/-- Registers routes up to the first error; the answer counts those added. -/
def registerAll (t : Table S) : List (Registration S) → Except RouteError Nat × Table S
  | [] => (.ok 0, t)
  | r :: more =>
    match t.register r.verb r.spec r.target r.handler with
    | (.error e, t) => (.error e, t)
    | (.ok added, t) =>
      let (rest, t) := t.registerAll more
      (rest.map (· + (if added then 1 else 0)), t)

/-- Attaches interceptors to a controller up to the first error. -/
def attachAll (t : Table S) (controller : String) :
    List (Interceptor S) → Except RouteError Unit × Table S
  | [] => (.ok (), t)
  | i :: more =>
    match t.attach controller i with
    | (.error e, t) => (.error e, t)
    | (.ok (), t) => t.attachAll controller more

/-- Installs a controller; the answer counts the routes added. -/
def install (t : Table S) (c : Controller S) : Except RouteError Nat × Table S :=
  match t.registerAll c.registrations with
  | (.error e, t) => (.error e, t)
  | (.ok added, t) =>
    match t.attachAll c.name c.interceptors with
    | (.error e, t) => (.error e, t)
    | (.ok (), t) => (.ok added, t)

def installAll (t : Table S) : List (Controller S) → Except RouteError (Table S)
  | [] => .ok t
  | c :: more =>
    match t.install c with
    | (.error e, _) => .error e
    | (.ok _, t) => t.installAll more

def ofControllers (options : TableOptions) (controllers : List (Controller S)) :
    Except RouteError (Table S) :=
  ((empty options).installAll controllers).map normalize

theorem isSealed_of_ofControllers {options : TableOptions} {controllers : List (Controller S)}
    {t : Table S} (h : ofControllers options controllers = .ok t) : t.isSealed = true := by
  unfold ofControllers at h
  cases hi : (empty options).installAll controllers with
  | error e => rw [hi] at h; cases h
  | ok u =>
    rw [hi] at h
    cases h
    exact isSealed_normalize u

end Table

end RequestRouter
