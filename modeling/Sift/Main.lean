import Sift.CommandLine

/-!
# The program

Arguments, standard input and output around `CommandLine.perform`.
-/

open Sift

/-- Run the program. The standard input is read only if it is needed. -/
def main (arguments : List String) : IO UInt32 := do
  match Invocation.ofArguments? arguments with
  | none =>
    (← IO.getStderr).putStr CommandLine.usageText
    return 2
  | some i =>
    let stdin ← if i.readsInput then (← IO.getStdin).readToEnd else pure ""
    match CommandLine.perform stdin i with
    | .success output =>
      IO.print output
      return 0
    | .failure e =>
      (← IO.getStderr).putStrLn e.message
      return 1
    | .usage =>
      (← IO.getStderr).putStr CommandLine.usageText
      return 2
