import LinkTemplate.Bindings.Reader
import LinkTemplate.Value.Yaml
import LinkTemplate.Yaml.Reader
/-! # The YAML reader that the program runs with -/

namespace LinkTemplate

/-- Only the plain part of YAML is read. -/
instance plainYaml : YamlReader where
  read? content := (Yaml.read? content).bind Bindings.ofYaml?

end LinkTemplate
