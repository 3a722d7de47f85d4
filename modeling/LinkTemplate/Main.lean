import LinkTemplate.CommandLine
/-! # The program -/

namespace LinkTemplate

def usage : String :=
  "Usage: linktemplate expand TEMPLATE [-f|--vars FILE] [-v|--var NAME=VALUE]...\n" ++
  "       linktemplate parse TEMPLATE [--json]\n"

/-- The text of a file, if it can be read and is UTF-8. -/
def readText? (path : Text) : IO (Option Text) := do
  try
    let content ← IO.FS.readFile (String.ofList path)
    return some content.toList
  catch _ => return none

/-- Reads the one file that an action names, if it names one. -/
def filesOf : Action → IO Action.Files
  | .expand _ (some path) _ => do
    let content ← readText? path
    return fun _ => content
  | _ => return fun _ => none

end LinkTemplate

open LinkTemplate

def main (arguments : List String) : IO UInt32 := do
  match CommandLine.read (arguments.map String.toList) with
  | .error .help =>
    IO.print usage
    return 0
  | .error stop =>
    IO.eprint usage
    return stop.exitStatus.toUInt32
  | .ok action =>
    let report := Report.ofResult (action.run (← filesOf action))
    IO.print (String.ofList report.output)
    unless report.complaint.isEmpty do IO.eprintln (String.ofList report.complaint)
    return report.status.toUInt32
