/-
  RequestRouter/Main.lean
  =======================
  **The program: runs its command line and writes what came of it.**
-/
import RequestRouter.Cli

open RequestRouter

/-- Runs the command line. -/
def main (words : List String) : IO UInt32 := do
  let ending := Cli.run words
  (← IO.getStdout).putStr ending.output
  (← IO.getStderr).putStr ending.complaint
  return ending.code.toUInt32
