/-
  RequestRouter/Unicode/Table.lean
  ================================
  **A compact written form of interval tables.**

  The larger tables are written as text: two numbers for each interval, the gap before it and its
  length less one, in digits of five bits, low digit first. The alphabet is `A`–`Z`, `a`–`z`, `0`–`9`,
  `-`, `_`; a digit that more digits follow is written 32 places further on.
-/
import RequestRouter.Unicode.Interval

namespace RequestRouter.Unicode

/-- The value of a character of the written form. -/
def tableDigit (c : Char) : Nat :=
  if c.isUpper then c.toNat - 65
  else if c.isLower then c.toNat - 97 + 26
  else if c.isDigit then c.toNat - 48 + 52
  else if c = '-' then 62
  else 63

/-- The numbers of the written form; `value` and `weight` hold the digits read of the next one. -/
def tableNumbers (value weight : Nat) : List Char → List Nat
  | [] => []
  | c :: rest =>
    let d := tableDigit c
    if d < 32 then (value + weight * d) :: tableNumbers 0 1 rest
    else tableNumbers (value + weight * (d - 32)) (weight * 32) rest

/-- Intervals from gaps and lengths, the first gap counted from `start`. -/
def intervalsFrom (start : Nat) : List Nat → Intervals
  | gap :: length :: rest =>
    (start + gap, start + gap + length) :: intervalsFrom (start + gap + length + 1) rest
  | _ => []

def Intervals.ofLines (lines : List String) : Intervals :=
  intervalsFrom 0 (tableNumbers 0 1 (lines.flatMap String.toList))

/-- A property value: its names, normalized, and its characters in written form. -/
structure NamedTable where
  names : List String
  lines : List String

/-- The first table that goes by `name`. -/
def NamedTable.find? (tables : List NamedTable) (name : String) : Option Intervals :=
  (tables.find? (·.names.contains name)).map (Intervals.ofLines ·.lines)

/-- The tables up to the first that goes by `name`. -/
def NamedTable.upTo? : List NamedTable → String → Option (List Intervals)
  | [], _ => none
  | t :: more, name =>
    if t.names.contains name then some [Intervals.ofLines t.lines]
    else (upTo? more name).map (Intervals.ofLines t.lines :: ·)

end RequestRouter.Unicode
