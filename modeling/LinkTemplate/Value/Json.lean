import LinkTemplate.Json
import LinkTemplate.Bindings
/-!
# Values and bindings as JSON

`null` is the undefined value, a string a text, an array of strings a list and an object of strings
a table. Nothing else is a value.
-/

namespace LinkTemplate

namespace Value

def toJson : Value → Json
  | undefined => .null
  | text t => .string t
  | list items => .array (items.map .string)
  | table entries => .object (entries.entries.map fun (key, item) => (key, .string item))

/-- A member of an object whose value is a string. -/
def textMember? (member : Text × Json) : Option (Text × Text) :=
  member.2.text?.map (member.1, ·)

def ofJson? : Json → Option Value
  | .null => some undefined
  | .string t => some (text t)
  | .array items => (items.mapM Json.text?).map list
  | .object members => (members.mapM textMember?).map (table ∘ Table.ofList)
  | _ => none

end Value

/-- A member of an object whose value can be bound to its name. -/
def Bindings.valueMember? (member : Text × Json) : Option (Text × Value) :=
  (Value.ofJson? member.2).map (member.1, ·)

/-- One member that is no value makes the whole object unreadable, also if its name comes again. -/
def Bindings.ofJson? : Json → Option Bindings
  | .object members => (members.mapM valueMember?).map Table.ofList
  | _ => none

end LinkTemplate
