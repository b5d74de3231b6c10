import GuardedLogging.CompilationUnit
import GuardedLogging.Text.Identifier
import GuardedLogging.TransformError

/-!
# Requests for a logger

The annotation `@Commons` on a class asks for a logger. Its member `value` names the field, its member `loggingStrategy` the way of logging; both may be left out, and there are no other members.
-/

namespace GuardedLogging

namespace Annotation

/-- The annotation, by its simple and by its qualified name. -/
def requestNames : List String := ["Commons", "groovy.util.logging.Commons"]

def isRequest (mark : Annotation) : Bool := requestNames.contains mark.name

end Annotation

/-- A field name and the name of a strategy. -/
structure LoggerRequest where
  fieldName : String
  strategy : String
deriving DecidableEq, Repr

namespace LoggerRequest

def defaultFieldName : String := "log"

def defaultStrategy : String := "commons"

def fieldNameKey : String := "value"

def strategyKey : String := "loggingStrategy"

/-- The members that mean nothing, in the order of their code points. -/
def unknownMembers (mark : Annotation) : List String :=
  ((mark.members.map (·.1)).filter fun name => name != fieldNameKey && name != strategyKey).mergeSort
    (· ≤ ·)

/-- The field name, which has to be an identifier. -/
def fieldNameOf (mark : Annotation) : Except TransformError.Cause String :=
  match mark.member? fieldNameKey with
  | none => .ok defaultFieldName
  | some (.text name) => if isIdentifier name then .ok name else .error (.invalidFieldName (.text name))
  | some other => .error (.invalidFieldName other)

/-- The name of the strategy; whether there is one of that name is another question. -/
def strategyOf (mark : Annotation) : Except TransformError.Cause String :=
  match mark.member? strategyKey with
  | none => .ok defaultStrategy
  | some (.text name) => .ok name
  | some other => .error (.invalidStrategyName other)

def ofMark (mark : Annotation) : Except TransformError.Cause LoggerRequest := do
  let unknown := unknownMembers mark
  if unknown.isEmpty then
    let fieldName ← fieldNameOf mark
    return ⟨fieldName, ← strategyOf mark⟩
  else
    throw (.unknownMembers unknown)

end LoggerRequest

end GuardedLogging
