import LinkTemplate.Text
/-!
# YAML documents

The plain part of YAML: mappings and sequences in block and in flow style, and scalars. A plain
scalar is kept apart from a quoted one, because only a plain one can be something else than a
string. What is left out is an empty plain scalar.
-/

namespace LinkTemplate

inductive Yaml
  | plain (text : Text)
  | quoted (text : Text)
  | sequence (items : List Yaml)
  | mapping (entries : List (Yaml × Yaml))

/-- What stands where a node is left out. -/
def Yaml.absent : Yaml := .plain []

end LinkTemplate
