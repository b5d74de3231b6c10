import GuardedLogging.Yaml.Reader
import GuardedLogging.Yaml.Writer

/-!
# A YAML library

The reader and the writer of this project, as the library that its program uses.
-/

namespace GuardedLogging.Yaml

def library : YamlLibrary where
  read
  write := Document.toYaml

end GuardedLogging.Yaml
