import LinkTemplate.Text
/-!
# The format of a bindings file

A file whose name ends in `.json`, in letters of either case, holds JSON. Any other holds YAML.
-/

namespace LinkTemplate.Bindings

inductive Format
  | json
  | yaml
  deriving DecidableEq

namespace Format

/-- The last component of a path that names something; empty components and single dots do not. -/
def fileName? (path : Text) : Option Text :=
  ((path.splitOn '/').filter fun part => part ≠ [] ∧ part ≠ ['.']).getLast?

/-- What follows the last dot of a file name. A dot in front does not count, nor do the two dots of
the parent directory. -/
def extension? (name : Text) : Option Text :=
  if name = ['.', '.'] then none
  else match Text.cut? '.' name.reverse with
    | none | some (_, []) => none
    | some (after, _) => some after.reverse

def ofPath (path : Text) : Format :=
  match (fileName? path).bind extension? with
  | none => yaml
  | some extension => if extension.map Char.toLower = "json".toList then json else yaml

def name : Format → Text
  | json => "JSON".toList
  | yaml => "YAML".toList

example : [".json", "..json", "a.JSON/.", "a.json.", "a/.."].map (ofPath ·.toList) =
    [yaml, json, json, yaml, yaml] := by decide

end Format

end LinkTemplate.Bindings
