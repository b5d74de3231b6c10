import GuardedLogging.CompilationUnit
import GuardedLogging.LogRecord

/-!
# The logging facade

Loggers are made by a factory; both types are looked up on a class path. The result is a binding. The first operation that needs a binding settles it, and every later one uses that binding, whatever class path it comes with, until the binding is forgotten. A missing type is no error here: the binding then holds placeholders, and type checking the result reports them.
-/

namespace GuardedLogging

namespace Facade

def loggerTypeName : String := "org.apache.commons.logging.Log"

def factoryTypeName : String := "org.apache.commons.logging.LogFactory"

/-- The method of the factory that makes the logger of a class. -/
def factoryMethod : String := "getLog"

end Facade

structure FacadeBinding where
  logger : TypeRef
  factory : TypeRef
deriving DecidableEq, Repr

namespace FacadeBinding

def resolved (binding : FacadeBinding) : Bool :=
  binding.logger.resolved && binding.factory.resolved

def resolve (classPath : ClassPath) : FacadeBinding :=
  ⟨classPath.lookup Facade.loggerTypeName, classPath.lookup Facade.factoryTypeName⟩

/-- What resolving this binding writes to the log: each placeholder, and a warning if there is one. -/
def records (binding : FacadeBinding) : List LogRecord :=
  let placeholders := [binding.logger, binding.factory].filter (!·.resolved)
  let misses := placeholders.map fun type =>
    ⟨.typeLookup, .debug, "Type " ++ type.name ++ " not on class path, using placeholder"⟩
  if binding.resolved then misses
  else
    misses ++ [⟨.facade, .warning, "Commons Logging not found on class path; binding "
      ++ Facade.loggerTypeName ++ " and " ++ Facade.factoryTypeName ++ " by name"⟩]

/-- The field that holds the logger of a class. -/
def loggerField (binding : FacadeBinding) (decl : ClassDecl) (name : String) : Field :=
  { name
    modifiers := .ofList [.privateAccess, .staticMember, .finalMember, .transientMember]
    type := some binding.logger
    initial := .call (.classRef binding.factory) Facade.factoryMethod [.classRef decl.type]
    owner := decl.name }

end FacadeBinding

/-- The binding that is in force, if one has been settled. -/
abbrev BindingState := Option FacadeBinding

namespace BindingState

def settle (state : BindingState) (classPath : ClassPath) : FacadeBinding :=
  state.getD (.resolve classPath)

/-- What settling the binding writes to the log: nothing if it was settled before. -/
def settleRecords (state : BindingState) (classPath : ClassPath) : List LogRecord :=
  match state with
  | some _ => []
  | none => (FacadeBinding.resolve classPath).records

end BindingState

end GuardedLogging
