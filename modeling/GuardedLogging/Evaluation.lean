import GuardedLogging.CompilationUnit
import GuardedLogging.Evaluation.World

/-!
# Evaluation

Evaluating an expression goes from left to right: a receiver before the arguments, the arguments before the method is looked up. A name means what the names in force say, or else the type of that name. Of the branches of a ternary one alone is evaluated.

Loading a class makes it known under its name and then gives each field its initial value, in order; there are no instances, so the class itself holds the fields. The names in force meanwhile are the fields of the class as they stand, in the very map that a program can ask the class for. A method runs with a copy of the fields, its parameters in front of them, and stops at the first statement that returns.
-/

namespace GuardedLogging

/-- Which names are in force: the entries of a field map, whatever they are at the time, or those of a scope. -/
inductive Names (Object : Type) where
  | live (map : Nat)
  | fixed (scope : Scope Object)

section Evaluate

variable {Object State Event : Type}

/-- What a name means, if it is in force. -/
def Names.find? (names : Names Object) (name : String) (situation : Situation Object State) :
    Option (Value Object) :=
  match names with
  | live map => (situation.fieldMaps map).find? name
  | fixed scope => scope.find? name

namespace World

/-- Whether a value counts as true. An empty list does not; of objects and field maps the world decides. -/
def truth (world : World Object State Event) : Value Object → Run Object (Situation Object State) Event Bool
  | .scalar value => return value.isTrue
  | .list ref => do return !(← Run.read (·.lists ref)).isEmpty
  | .object object => Run.ask (world.isTrue · (.object object))
  | .loadedClass _ _ => return true
  | .fieldMap ref => Run.ask (world.isTrue · (.fieldMap ref))
  | .method => return true

/-- A property of a value. A loaded class answers for its name and its fields itself. -/
def property (world : World Object State Event) (receiver : Value Object) (name : String) :
    Run Object (Situation Object State) Event (Value Object) := do
  match receiver, name with
  | .loadedClass _ className, "name" => return .scalar (.text className)
  | .loadedClass ref _, "fields" => return .fieldMap (← Run.read (·.mapOf ref))
  | _, _ =>
    match ← Run.ask (world.property? · receiver name) with
    | some value => return value
    | none => Run.fail (.unknownProperty name receiver)

def call (world : World Object State Event) (receiver : Value Object) (method : String)
    (arguments : List (Value Object)) : Run Object (Situation Object State) Event (Value Object) := do
  match ← Run.ask (world.call? · receiver method arguments) with
  | some value => return value
  | none => Run.fail (.unknownMethod method receiver)

end World

namespace Expr

mutual

def evaluate (world : World Object State Event) (names : Names Object) :
    Expr → Run Object (Situation Object State) Event (Value Object)
  | absent => Run.fail .nothingToEvaluate
  | const value => return .scalar value
  | var name => do
    match ← Run.read fun situation => names.find? name situation <|> situation.types.find? name with
    | some value => return value
    | none => Run.fail (.unknownName name)
  | classRef type => do
    match ← Run.read (·.types.find? type.name) with
    | some value => return value
    | none => Run.fail (.unresolvedType type.name)
  | args arguments => do
    let values ← evaluateAll world names arguments
    let ref ← Run.read (·.made)
    Run.change (·.addList values)
    return .list ref
  | call receiver method arguments => do
    let target ← receiver.evaluate world names
    let values ← evaluateAll world names arguments
    world.call target method values
  | property receiver name => do
    let target ← receiver.evaluate world names
    world.property target name
  | condition inner => do
    let value ← inner.evaluate world names
    return .bool (← world.truth value)
  | not operand => do
    let value ← operand.evaluate world names
    return .bool (!(← world.truth value))
  | ternary test whenTrue whenFalse => do
    let value ← test.evaluate world names
    if ← world.truth value then whenTrue.evaluate world names
    else whenFalse.evaluate world names

def evaluateAll (world : World Object State Event) (names : Names Object) :
    List Expr → Run Object (Situation Object State) Event (List (Value Object))
  | [] => return []
  | expr :: rest => do
    let value ← expr.evaluate world names
    return value :: (← evaluateAll world names rest)

end

end Expr

/-- The value that a field starts with; null if it has no initial value. -/
def Field.start (world : World Object State Event) (names : Names Object) (field : Field) :
    Run Object (Situation Object State) Event (Value Object) :=
  if field.initial.isAbsent then return .null else field.initial.evaluate world names

/-- Gives the fields of a class their values, each where the fields stand as those before it have left them. -/
def initializeFields (world : World Object State Event) (ref : Nat) :
    List Field → Run Object (Situation Object State) Event Unit
  | [] => return ()
  | field :: rest => do
    let map ← Run.read (·.mapOf ref)
    let value ← field.start world (.live map)
    Run.change (·.setField ref field.name value)
    initializeFields world ref rest

/-- Evaluates statements up to the first that returns. Without one the value is null. -/
def runStatements (world : World Object State Event) (names : Names Object) :
    List Statement → Run Object (Situation Object State) Event (Value Object)
  | [] => return .null
  | statement :: rest => do
    let value ← statement.expr.evaluate world names
    if statement.returns then return value else runStatements world names rest

namespace ClassDecl

/-- The situation in which a class is known, but its fields have no values yet. -/
def register (decl : ClassDecl) (situation : Situation Object State) : Situation Object State :=
  situation.addClass decl.name

/-- Loads a class, which is then referred to by the number that it got. -/
def load (world : World Object State Event) (decl : ClassDecl) :
    Run Object (Situation Object State) Event Nat := do
  let ref ← Run.read (·.made)
  Run.change decl.register
  initializeFields world ref decl.fields
  return ref

/-- Runs a method of a loaded class. -/
def invoke (world : World Object State Event) (ref : Nat) (decl : ClassDecl)
    (methodName : String) (arguments : List (Value Object)) :
    Run Object (Situation Object State) Event (Value Object) :=
  match decl.method? methodName with
  | none => Run.fail (.unknownClassMethod decl.name methodName)
  | some method =>
    if arguments.length = method.parameters.length then do
      let fields ← Run.read (·.fields ref)
      let scope := fields.defineAll (method.parameterNames.zip arguments)
      runStatements world (.fixed scope) method.body
    else
      Run.fail (.argumentCount decl.name methodName method.parameters.length arguments.length)

/-- Loads a class and runs one of its methods. -/
def loadAndInvoke (world : World Object State Event) (decl : ClassDecl) (methodName : String)
    (arguments : List (Value Object)) : Run Object (Situation Object State) Event (Value Object) := do
  let ref ← decl.load world
  decl.invoke world ref methodName arguments

end ClassDecl

end Evaluate

end GuardedLogging
