import Skirmish.CommandLine.Session

/-!
# The program

Reads the files that the command line asks for, and writes what the session gives.
-/

namespace Skirmish.CommandLine

open Skirmish.Content

/-- Why reading fails. The number of a fault may come negated. -/
def faultOf : IO.Error → FileFault
  | .noFileOrDirectory _ _ _ => .missing
  | .inappropriateType _ code _ => if code = 21 ∨ code = -21 then .directory else .throughFile
  | e@(.invalidArgument _ code _) =>
    if code = 36 ∨ code = -36 then .nameTooLong else .other (toString e)
  | e => .other (toString e)

/-- Reads a file. -/
def readText (path : String) : IO (Except FileFault String) := do
  try
    return .ok (← IO.FS.readFile path)
  catch e => return .error (faultOf e)

end Skirmish.CommandLine

open Skirmish.CommandLine

/-- Runs the program. -/
def main (arguments : List String) : IO UInt32 := do
  let paths := ((Request.ofArguments arguments).map Request.files).getD []
  let texts ← paths.mapM fun path => return (path, ← readText path)
  let ending := session (fun path => (texts.lookup path).getD (.error .missing)) arguments
  IO.print ending.output
  match ending with
  | .success _ => pure ()
  | .failure fault => IO.eprintln fault.report
  | .misuse => IO.eprintln Topic.program.text
  return .ofNat ending.exitCode
