import Switchboard.Cli.Sample

/-!
# The program

Runs the command line on the sample module, writes what a run has to say and ends with its exit code.
-/

/-- Runs the program with its arguments. An error that no command handles is reported and ends the program with 1. -/
def main (arguments : List String) : IO UInt32 := do
  match Switchboard.Cli.run Switchboard.Cli.sampleModule arguments with
  | .exited code output errors =>
    (← IO.getStdout).putStr output
    (← IO.getStderr).putStr errors
    return code.toUInt32
  | .crashed crash =>
    (← IO.getStderr).putStr (crash.message ++ "\n")
    return 1
