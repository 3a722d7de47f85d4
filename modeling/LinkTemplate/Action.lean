import LinkTemplate.Expansion
import LinkTemplate.Failure
import LinkTemplate.Json.Printer
import LinkTemplate.Listing
import LinkTemplate.Template.Json
/-! # What the command line can ask for -/

namespace LinkTemplate

inductive Action
  /-- Expand a template under the bindings of a file and then of assignments. -/
  | expand (template : Text) (file : Option Text) (assignments : List Text)
  /-- Show the parts of a template, as JSON or one listing a line. -/
  | parse (template : Text) (json : Bool)
  deriving DecidableEq

namespace Action

/-- The text of each file that can be read, by its path. -/
abbrev Files := Text → Option Text

variable [YamlReader]

def loadFile (files : Files) (path : Text) : Except Failure Bindings :=
  let format := Bindings.Format.ofPath path
  match files path with
  | none => .error (.file path)
  | some content =>
    match Bindings.read? format content with
    | none => .error (.fileBindings path format)
    | some bindings => .ok bindings

def loadFile? (files : Files) : Option Text → Except Failure Bindings
  | none => .ok Table.empty
  | some path => loadFile files path

def readTemplate (text : Text) : Except Failure Template :=
  (Template.parse text).mapError .syntaxError

/-- The text that an action prints. The file is read first, then come the assignments and last the
template, so of several failures that one is reported. -/
def run (files : Files) : Action → Except Failure Text
  | expand template file assignments => do
    let loaded ← loadFile? files file
    match loaded.assignAll assignments with
    | (_, some error) => .error (.assignment error)
    | (bindings, none) => return (← readTemplate template).expand bindings
  | parse template json => do
    let template ← readTemplate template
    return if json then template.toJson.print .indented else template.listing Text.isUnprintable

end Action

/-- What a finished run leaves to print and the exit status. -/
structure Report where
  status : Nat
  output : Text
  complaint : Text
  deriving DecidableEq

def Report.ofResult : Except Failure Text → Report
  | .ok output => ⟨0, output ++ ['\n'], []⟩
  | .error failure => ⟨failure.exitStatus, [], "Error: ".toList ++ failure.message⟩

end LinkTemplate
