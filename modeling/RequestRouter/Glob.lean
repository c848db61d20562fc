/-
  RequestRouter/Glob.lean
  =======================
  **Texts compared with patterns in which `*` stands for any run and `?` for one character.**

  A scan reads pattern and text side by side. It goes back to the last star it has passed and never
  to an earlier one. A pattern character that equals the character of the text is taken to match it
  before anything else, also when both are stars.
-/
import RequestRouter.Text.Case

namespace RequestRouter

/-- How far pattern and text agree when they are read side by side up to the next star. -/
inductive Glob.Progress where
  /-- The text ended; the pattern matches iff only stars are left of it. -/
  | ended (accepted : Bool)
  /-- A star was passed: what follows it in the pattern, and the text that is left. -/
  | star (pattern text : List Char)
  /-- The pattern cannot go on. -/
  | stuck
deriving DecidableEq, Repr

namespace Glob

/-- Reads pattern and text side by side until one of them ends, a star is passed or they differ. -/
def advance : List Char → List Char → Progress
  | pattern, [] => .ended (pattern.all (· == '*'))
  | [], _ :: _ => .stuck
  | p :: pattern, c :: text =>
    if p = '?' ∨ p = c then advance pattern text
    else if p = '*' then .star pattern (c :: text)
    else .stuck

theorem length_of_advance_star {pattern text pattern' text' : List Char}
    (h : advance pattern text = .star pattern' text') : pattern'.length < pattern.length := by
  fun_induction advance pattern text with
  | case1 => cases h
  | case2 => cases h
  | case3 p pattern c text _ ih => exact Nat.lt_succ_of_lt (ih h)
  | case4 p pattern c text => cases h; simp
  | case5 => cases h

/-- Whether what follows a star matches the text at some later place. -/
def afterStar (pattern text : List Char) : Bool :=
  match _h : advance pattern text with
  | .ended accepted => accepted
  | .star pattern' text' => afterStar pattern' text'
  | .stuck =>
    match text with
    | [] => false
    | _ :: text' => afterStar pattern text'
termination_by (pattern.length, text.length)
decreasing_by
  · exact Prod.Lex.left _ _ (length_of_advance_star _h)
  · exact Prod.Lex.right _ (by simp)

/-- Whether the pattern matches the text, letter case and all. -/
def matchesChars (pattern text : List Char) : Bool :=
  match advance pattern text with
  | .ended accepted => accepted
  | .star pattern' text' => afterStar pattern' text'
  | .stuck => false

end Glob

/-- A pattern over `*` and `?`. -/
structure Glob where
  source : String
  caseSensitive : Bool
deriving DecidableEq, Repr

namespace Glob

/-- A pattern that ignores the case of ASCII letters. -/
def ignoringCase (source : String) : Glob := ⟨source, false⟩

/-- The characters that are compared: as written, or with ASCII capitals made small. -/
def folded (caseSensitive : Bool) (s : String) : List Char :=
  if caseSensitive then s.toList else s.toList.map Char.toLower

def matchesText (g : Glob) (text : String) : Bool :=
  matchesChars (folded g.caseSensitive g.source) (folded g.caseSensitive text)

end Glob

/-- Globs that match where any one of them does. -/
structure GlobSet where
  globs : List Glob
deriving DecidableEq, Repr

namespace GlobSet

def ofSources (sources : List String) : GlobSet := ⟨sources.map Glob.ignoringCase⟩

def matchesText (s : GlobSet) (text : String) : Bool := s.globs.any (·.matchesText text)

def isEmpty (s : GlobSet) : Bool := s.globs.isEmpty

end GlobSet

end RequestRouter
