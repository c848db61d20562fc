/-
  RequestRouter/Path.lean
  =======================
  **Slash-delimited paths: repeated slashes, dot segments, composition.**

  `collapse` makes every run of slashes one slash. `normalize` resolves `.` and `..` on a stack of
  segments, drops blank segments, and keeps a slash at either end. `join` composes a base and a path
  into one normalized path that starts with a slash.
-/
import RequestRouter.Text.Blank

namespace RequestRouter.Path

open RequestRouter.Text

/-! ### Runs of slashes -/

/-- The characters with each run of slashes made one; `afterSlash` says that a slash precedes. -/
def collapseFrom (afterSlash : Bool) : List Char → List Char
  | [] => []
  | c :: rest =>
    if c = '/' then
      if afterSlash then collapseFrom true rest else '/' :: collapseFrom true rest
    else c :: collapseFrom false rest

/-- The characters with each run of slashes made one. -/
def collapseChars (cs : List Char) : List Char := collapseFrom false cs

/-- The path with each run of slashes made one. -/
def collapse (path : String) : String := String.ofList (collapseChars path.toList)

/-! ### Segments -/

/-- A segment is the text between two slashes. -/
abbrev Segment := List Char

/-- The texts between the slashes; one more than there are slashes. -/
def split : List Char → List Segment
  | [] => [[]]
  | c :: rest =>
    if c = '/' then [] :: split rest
    else match split rest with
      | [] => [[c]]
      | s :: more => (c :: s) :: more

/-- The segments written with a slash between each two. -/
def unsplit : List Segment → List Char
  | [] => []
  | [s] => s
  | s :: more => s ++ '/' :: unsplit more

/-- The segment that names its own directory. -/
def dot : Segment := ['.']

/-- The segment that names the parent. -/
def dotDot : Segment := ['.', '.']

/-- One segment onto the stack of those before it, newest first. A parent segment takes back the
    name before it; with no name to take back it stays. -/
def push (stack : List Segment) (s : Segment) : List Segment :=
  if s = dot then stack
  else if s = dotDot then
    match stack with
    | [] => [dotDot]
    | top :: below => if top = dotDot then dotDot :: stack else below
  else s :: stack

/-- The segments with `.` and `..` resolved as far as possible. -/
def resolve (segments : List Segment) : List Segment := (segments.foldl push []).reverse

def solidSegments (path : List Char) : List Segment := (split path).filter (!isBlank ·)

/-! ### Normal form and composition -/

def normalizeChars (path : List Char) : List Char :=
  if isBlank path then []
  else
    let lead := if path.head? = some '/' then ['/'] else []
    let body := lead ++ unsplit (resolve (solidSegments path))
    let tail := if path.getLast? = some '/' && body.getLast? != some '/' then ['/'] else []
    collapseChars (body ++ tail)

/-- The normal form of a path: dot segments resolved, slashes single, blank text empty. -/
def normalize (path : String) : String := String.ofList (normalizeChars path.toList)

/-- The path with a slash in front, if it has none. -/
def rooted (path : List Char) : List Char :=
  if path.head? = some '/' then path else '/' :: path

def joinChars (base path : List Char) : List Char := normalizeChars (rooted base ++ rooted path)

/-- A base and a path composed into one normalized path. -/
def join (base path : String) : String := String.ofList (joinChars base.toList path.toList)

/-! ### First laws -/

@[simp] theorem collapseFrom_nil (b : Bool) : collapseFrom b [] = [] := rfl

theorem head?_rooted (path : List Char) : (rooted path).head? = some '/' := by
  unfold rooted
  split <;> simp_all

theorem split_ne_nil (cs : List Char) : split cs ≠ [] := by
  cases cs with
  | nil => simp [split]
  | cons c rest =>
    simp only [split]
    split
    · simp
    · split <;> simp

/-- No slash is lost between the segments. -/
theorem unsplit_split (cs : List Char) : unsplit (split cs) = cs := by
  induction cs with
  | nil => rfl
  | cons c rest ih =>
    cases hs : split rest with
    | nil => exact absurd hs (split_ne_nil rest)
    | cons s more =>
      rw [hs] at ih
      by_cases h : c = '/'
      · simp [split, h, hs, unsplit, ih]
      · cases more with
        | nil =>
          simp only [unsplit] at ih
          simp [split, h, hs, unsplit, ih]
        | cons t more =>
          simp only [unsplit] at ih
          simp [split, h, hs, unsplit, ih]

end RequestRouter.Path
