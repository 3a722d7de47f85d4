import LinkTemplate.Bindings.Assignment
import LinkTemplate.Bindings.Reader
import LinkTemplate.SyntaxError
/-! # Why a request fails -/

namespace LinkTemplate

inductive Failure
  | syntaxError (error : SyntaxError)
  | assignment (error : Assignment.Error)
  /-- The text is not bindings in the format. -/
  | bindings (format : Bindings.Format)
  /-- The file cannot be read as text. -/
  | file (path : Text)
  /-- The file's text is not bindings in the format. -/
  | fileBindings (path : Text) (format : Bindings.Format)
  deriving DecidableEq

namespace Failure

def message : Failure → Text
  | syntaxError error => error.message
  | assignment error => error.message
  | bindings format => format.complaint
  | file path => "Could not read bindings file ".toList ++ path
  | fileBindings path format => "Failed to load ".toList ++ path ++ ": ".toList ++ format.complaint

/-- A malformed template is told apart from everything else. -/
def exitStatus : Failure → Nat
  | syntaxError _ => 2
  | _ => 1

end Failure

end LinkTemplate
