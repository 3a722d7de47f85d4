import LinkTemplate.Bindings
/-!
# Assignments

An assignment `NAME=VALUE` binds a name to a text, which is all that follows the first equals sign.
-/

namespace LinkTemplate

structure Assignment where
  name : Text
  value : Text
  deriving DecidableEq

namespace Assignment

inductive Problem
  | noEqualsSign
  | emptyName
  deriving DecidableEq

/-- A text that is no assignment. -/
structure Error where
  raw : Text
  problem : Problem
  deriving DecidableEq

def Problem.message : Problem → Text
  | noEqualsSign => "expected NAME=VALUE".toList
  | emptyName => "empty name".toList

def Error.message (error : Error) : Text :=
  "Invalid variable assignment '".toList ++ error.raw ++ "': ".toList ++ error.problem.message

def read (raw : Text) : Except Error Assignment :=
  match Text.cut? '=' raw with
  | none => .error ⟨raw, .noEqualsSign⟩
  | some ([], _) => .error ⟨raw, .emptyName⟩
  | some (name, value) => .ok ⟨name, value⟩

end Assignment

namespace Bindings

def assign (bindings : Bindings) (assignment : Assignment) : Bindings :=
  bindings.insert assignment.name (.text assignment.value)

/-- Applies assignments in order up to the first that is none; those before it stay applied. -/
def assignAll (bindings : Bindings) : List Text → Bindings × Option Assignment.Error
  | [] => (bindings, none)
  | raw :: raws =>
    match Assignment.read raw with
    | .error error => (bindings, some error)
    | .ok assignment => (bindings.assign assignment).assignAll raws

end Bindings

end LinkTemplate
