import CodeFacts.Command

/-!
The command line: reads the log a command asks about and prints the answer.
-/

open CodeFacts

/-- The date that libraries of a replayed log are stamped with. -/
def replayDate : String := "undated"

/-- Prints the answer to the arguments; the exit code is 1 when there is none. -/
def main (arguments : List String) : IO UInt32 := do
  let command := Command.ofArguments arguments
  let text ←
    match command.log? with
    | some path => IO.FS.readFile path
    | none => pure ""
  match command.answer text replayDate with
  | .ok lines =>
      for line in lines do IO.println line
      return 0
  | .error fault =>
      IO.eprintln fault.message
      return 1
