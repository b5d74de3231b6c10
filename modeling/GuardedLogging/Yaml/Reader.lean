import GuardedLogging.Yaml.Node

/-!
# Reading documents from YAML

A text holds at most one document; one without any is null. Keys are single values, and of entries with the same key the last one counts. The entries of a merged mapping come before all others, so they are defaults; of several merged mappings an earlier one counts over a later one.
-/

namespace GuardedLogging.Yaml

/-- What is said of every text that is not YAML. -/
def malformed : YamlError := .malformed "no YAML document"

namespace Node

/-- The entries that merging a value contributes. -/
def mergedEntries : Document → Except YamlError (List (Document.Key × Document))
  | .mapping entries => .ok entries
  | .list items => do
    let parts ← items.reverse.mapM fun item => match item with
      | .mapping entries => .ok entries
      | _ => .error malformed
    return parts.flatten
  | _ => .error malformed

/-- A key. A default key that is not merged is a text like any other. -/
def keyOf : Node → Except YamlError Document.Key
  | scalar (.scalar value) => .ok (.scalar value)
  | scalar (.foreign value) => .ok (.foreign value)
  | scalar .defaultKey => .ok (.text "=")
  | scalar (.failing error) => .error error
  | _ => .error malformed

mutual

def toDocument : Node → Except YamlError Document
  | scalar (.scalar value) => .ok (.scalar value)
  | scalar (.foreign value) => .ok (.foreign value)
  | scalar (.failing error) => .error error
  | scalar _ => .error malformed
  | sequence items => do return .list (← toDocuments items)
  | pairs items => do return .list (← toPairs items)
  | mapping entries => do
    let (merged, own) ← toEntries entries
    return .mapping (Document.entriesOf (merged ++ own))
  | set entries => do
    let (merged, own) ← toEntries entries
    return .foreign (← setValue ((Document.entriesOf (merged ++ own)).map (·.1)))
  | enclosing shown => do return .foreign (← ForeignValue.ofPlain "part" [] shown shown)

def toDocuments : List Node → Except YamlError (List Document)
  | [] => .ok []
  | node :: rest => do return (← node.toDocument) :: (← toDocuments rest)

def toPairs : List Node → Except YamlError (List Document)
  | [] => .ok []
  | mapping [(first, second)] :: rest => do
    let pair ← pairValue (← first.toDocument) (← second.toDocument)
    return .foreign pair :: (← toPairs rest)
  | _ :: _ => .error malformed

/-- The entries that come from merges, and the others. -/
def toEntries :
    List (Node × Node) → Except YamlError (List (Document.Key × Document) × List (Document.Key × Document))
  | [] => .ok ([], [])
  | (scalar .merge, node) :: rest => do
    let first ← mergedEntries (← node.toDocument)
    let (merged, own) ← toEntries rest
    return (first ++ merged, own)
  | (key, node) :: rest => do
    let key ← keyOf key
    let value ← node.toDocument
    let (merged, own) ← toEntries rest
    return (merged, (key, value) :: own)

end

end Node

/-- The document that a text denotes. -/
def read (text : String) : Except YamlError Document :=
  match (tokens? text).bind Node.ofTokens? with
  | none => .error malformed
  | some none => .ok .null
  | some (some node) => node.toDocument

end GuardedLogging.Yaml
