/-
  RequestRouter/Regex/Expr.lean
  =============================
  **Regular expressions.**

  An expression reads characters from left to right. Where it can go on in more than one way, the
  ways are ordered: an alternation prefers its left side, a greedy repetition prefers one more round,
  a reluctant one prefers to stop.
-/
import RequestRouter.Regex.CharSet

namespace RequestRouter.Regex

/-- What an expression may ask of a place in the text without reading a character. -/
inductive Assertion where
  | textStart
  | textEnd
  /-- A line starts here; `crlf` counts a carriage return as an end of line as well. -/
  | lineStart (crlf : Bool)
  | lineEnd (crlf : Bool)
  /-- Exactly one of the neighbours is a word character, by Unicode or by ASCII. -/
  | boundary (unicode : Bool)
  | noBoundary (unicode : Bool)
  | wordStart (unicode : Bool)
  | wordEnd (unicode : Bool)
  /-- No word character precedes. -/
  | wordStartHalf (unicode : Bool)
  /-- No word character follows. -/
  | wordEndHalf (unicode : Bool)
deriving DecidableEq, Repr

/-- A regular expression. -/
inductive Expr where
  | empty
  | one (set : CharSet)
  | look (assertion : Assertion)
  /-- The text read by the expression is kept under the index. -/
  | group (index : Nat) (e : Expr)
  | seq (a b : Expr)
  | alt (a b : Expr)
  | rounds (e : Expr) (least : Nat) (most : Option Nat) (greedy : Bool)
deriving DecidableEq, Repr

namespace Expr

def char (c : Char) : Expr := .one (.ofChar c)

def seqs : List Expr → Expr
  | [] => .empty
  | e :: more => more.foldl .seq e

/-- The expressions as alternatives, the first preferred. -/
def alts : List Expr → Expr
  | [] => .empty
  | e :: more => more.foldl .alt e

def readsNothing : Expr → Bool
  | .empty | .look _ => true
  | .one _ => false
  | .group _ e => e.readsNothing
  | .seq a b | .alt a b => a.readsNothing && b.readsNothing
  | .rounds e _ _ _ => e.readsNothing

/-- `least` to `most` rounds. With no round allowed nothing is left of the expression, its groups
    included; an expression that reads nothing is tried once at most. -/
def repeated (e : Expr) (least : Nat) (most : Option Nat) (greedy : Bool) : Expr :=
  if most = some 0 then .empty
  else if e.readsNothing then .rounds e (min least 1) (some (min (most.getD 1) 1)) greedy
  else .rounds e least most greedy

/-- The highest group index that occurs. -/
def groupCount : Expr → Nat
  | .empty | .one _ | .look _ => 0
  | .group index e => max index e.groupCount
  | .seq a b | .alt a b => max a.groupCount b.groupCount
  | .rounds e _ _ _ => e.groupCount

end Expr

end RequestRouter.Regex
