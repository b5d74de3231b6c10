import GuardedLogging.CompilationUnit.Document
import GuardedLogging.Document.JsonReader
import GuardedLogging.Document.JsonWriter
import GuardedLogging.Transformation
import GuardedLogging.Yaml

/-!
# Units and reports as JSON and YAML

Units are written with the keys of every mapping in order, and read back from either format. Reports are only written, as JSON with sorted keys on lines of their own, or as YAML with the keys in the order of their meaning.
-/

namespace GuardedLogging

/-- Why a text is no unit. -/
inductive LoadError where
  | json
  | yaml (error : YamlError)
  | shape (error : ShapeError)
deriving DecidableEq, Repr

namespace CompilationUnit

/-- The unit as JSON, on one line. -/
def toJson (unit : CompilationUnit) : String := unit.toDocument.sorted.toJson

def toYaml (yaml : YamlLibrary) (unit : CompilationUnit) : String := yaml.write unit.toDocument.sorted

def ofJson (text : String) : Except LoadError CompilationUnit :=
  match Document.ofJson? text with
  | some document => (ofDocument document).mapError .shape
  | none => .error .json

def ofYaml (yaml : YamlLibrary) (text : String) : Except LoadError CompilationUnit := do
  let document ← (yaml.read text).mapError .yaml
  (ofDocument document).mapError .shape

end CompilationUnit

namespace UnitReport

def toJson (report : UnitReport) : String := report.toDocument.sorted.toJson (some 2)

def toYaml (yaml : YamlLibrary) (report : UnitReport) : String := yaml.write report.toDocument

end UnitReport

end GuardedLogging
