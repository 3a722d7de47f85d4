import LinkTemplate.Bindings.Format
import LinkTemplate.Json.Reader
import LinkTemplate.Value.Json
/-!
# Reading bindings

YAML is read by a reader that is taken from elsewhere. What is said of bindings files holds for any
such reader, or names what it asks of one.
-/

namespace LinkTemplate

class YamlReader where
  /-- The bindings that a text stands for; `none` if it is not YAML, or no bindings. -/
  read? : Text → Option Bindings

namespace Bindings

/-- Reads the content of a bindings file, wholly or not at all. -/
def read? [YamlReader] (format : Format) (content : Text) : Option Bindings :=
  match format with
  | .json => (Json.read? content).bind ofJson?
  | .yaml => YamlReader.read? content

/-- What is said of a content that cannot be read. -/
def Format.complaint (format : Format) : Text :=
  "Invalid ".toList ++ format.name ++ " variable bindings".toList

end Bindings

end LinkTemplate
