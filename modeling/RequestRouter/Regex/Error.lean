/-
  RequestRouter/Regex/Error.lean
  ==============================
  **Why a text is no regular expression.**
-/

namespace RequestRouter.Regex

/-- Why a text is no regular expression. -/
inductive Error where
  | unclosedGroup
  | unopenedGroup
  | unclosedClass
  /-- A class item that is no character or class, or a range without ends or upside down. -/
  | badClassItem
  | nothingToRepeat
  /-- A count that is no number, or a range of counts upside down. -/
  | badCount
  /-- Look-ahead and look-behind are no part of the notation. -/
  | lookAround
  | badGroupName
  | duplicateGroupName
  | badFlags
  | badEscape
  | badCodePoint
  | unknownProperty
  /-- An item that could read less than a whole character. -/
  | splitsCharacters
  /-- Groups, classes and repetitions nested too deep. -/
  | tooDeep
  /-- More than the size limit once counted rounds are written out. -/
  | tooLarge
deriving DecidableEq, Repr

/-- How the engine words its errors; `none` for an error whose words are left out. -/
abbrev Wording := Error → Option String

/-- No words. -/
def Wording.silent : Wording := fun _ => none

end RequestRouter.Regex
