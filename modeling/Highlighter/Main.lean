import Highlighter.Command

/-! The program: highlights files and prints style sheets. -/

def readFile? (path : String) : IO (Option String) := do
  try return some (← IO.FS.readFile path) catch _ => return none

def main (arguments : List String) : IO UInt32 := do
  let report ← Highlighter.Command.runArguments readFile? arguments
  (← IO.getStdout).putStr report.output
  (← IO.getStderr).putStr report.errors
  return report.code
