import LinkTemplate.Bindings
import LinkTemplate.Yaml
import LinkTemplate.Yaml.Scalar
/-!
# Values and bindings from YAML

The same shapes as in JSON. A scalar is a text where it is quoted or stands for a string; the names
of variables are taken as they are written, whatever they stand for.
-/

namespace LinkTemplate

/-- The text of a scalar that stands for a string. -/
def Yaml.text? : Yaml → Option Text
  | plain text => if Yaml.kind text = .string then some text else none
  | quoted text => some text
  | _ => none

/-- The text of a scalar, whatever it stands for. -/
def Yaml.scalar? : Yaml → Option Text
  | plain text | quoted text => some text
  | _ => none

namespace Value

def textEntry? (entry : Yaml × Yaml) : Option (Text × Text) := do
  return (← entry.1.text?, ← entry.2.text?)

def ofYaml? : Yaml → Option Value
  | .plain t =>
    match Yaml.kind t with
    | .null => some undefined
    | .string => some (text t)
    | _ => none
  | .quoted t => some (text t)
  | .sequence items => (items.mapM Yaml.text?).map list
  | .mapping entries => (entries.mapM textEntry?).map (table ∘ Table.ofList)

end Value

namespace Bindings

def valueEntry? (entry : Yaml × Yaml) : Option (Text × Value) := do
  return (← entry.1.scalar?, ← Value.ofYaml? entry.2)

/-- A document without a node holds no bindings. -/
def ofYaml? : Yaml → Option Bindings
  | .plain [] => some Table.empty
  | .mapping entries => (entries.mapM valueEntry?).map Table.ofList
  | _ => none

end Bindings

end LinkTemplate
