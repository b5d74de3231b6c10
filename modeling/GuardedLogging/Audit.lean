import GuardedLogging.Facade
import GuardedLogging.Level
import GuardedLogging.Request

/-!
# Auditing a unit

An audit reads a unit, transformed or not, and changes nothing. It knows a class's logger from the annotation that asks for it, or else from a field with the facade's logger type; it counts the calls of logging methods on that logger, guarded and unguarded, and lists the type names that do not resolve.

Type checking asks the last question alone, and stops at the first name that does not resolve.
-/

namespace GuardedLogging

namespace Audit

/-- Whether a ternary guards the call in its first branch: the test is its check on the same logger. -/
def isGuard (logger : String) (test whenTrue : Expr) : Bool :=
  match test, whenTrue with
  | .call (.var checked) check _, .call (.var receiver) method _ =>
    isLoggingMethod method && checkName? method == some check && receiver == logger && checked == logger
  | _, _ => false

def isLoggingCall (logger : String) (receiver : Expr) (method : String) : Bool :=
  match receiver with
  | .var name => name == logger && isLoggingMethod method
  | _ => false

/-- How many calls log behind a guard, and how many without one. -/
structure Tally where
  guarded : Nat := 0
  unguarded : Nat := 0
deriving DecidableEq, Repr

namespace Tally

def add (left right : Tally) : Tally :=
  ⟨left.guarded + right.guarded, left.unguarded + right.unguarded⟩

instance : Add Tally := ⟨add⟩

end Tally

mutual

/-- The logging calls in an expression. -/
def tally (logger : String) : Expr → Tally
  | .call receiver method arguments =>
    (if isLoggingCall logger receiver method then ⟨0, 1⟩ else ⟨0, 0⟩)
      + tally logger receiver + tallyAll logger arguments
  | .ternary test whenTrue whenFalse =>
    if isGuard logger test whenTrue then
      ⟨1, 0⟩ + tally logger test + tallyParts logger whenTrue + tally logger whenFalse
    else
      tally logger test + tally logger whenTrue + tally logger whenFalse
  | .condition inner => tally logger inner
  | .not operand => tally logger operand
  | .property receiver _ => tally logger receiver
  | .args arguments => tallyAll logger arguments
  | .absent => {}
  | .const _ => {}
  | .var _ => {}
  | .classRef _ => {}

/-- The logging calls in the children of a call. -/
def tallyParts (logger : String) : Expr → Tally
  | .call receiver _ arguments => tally logger receiver + tallyAll logger arguments
  | _ => {}

def tallyAll (logger : String) : List Expr → Tally
  | [] => {}
  | expr :: rest => tally logger expr + tallyAll logger rest

end

end Audit

/-- What an audit says about one class. -/
structure ClassAudit where
  name : String
  loggerField : Option String
  annotated : Bool
  tally : Audit.Tally
deriving DecidableEq, Repr

namespace ClassDecl

/-- The name of the logger of a class, and whether the class still asks for it. -/
def loggerName (decl : ClassDecl) : Option String × Bool :=
  match decl.annotations.find? Annotation.isRequest with
  | some mark =>
    match mark.member? LoggerRequest.fieldNameKey with
    | some (.text name) => (some name, true)
    | _ => (some LoggerRequest.defaultFieldName, true)
  | none =>
    let isLogger (field : Field) : Bool := field.type.any (·.name == Facade.loggerTypeName)
    ((decl.fields.find? isLogger).map (·.name), false)

def audit (decl : ClassDecl) : ClassAudit :=
  let (loggerField, annotated) := decl.loggerName
  let tally : Audit.Tally := match loggerField with
    | some logger => decl.expressions.foldl (fun sum entry => sum + Audit.tally logger entry.2) {}
    | none => {}
  { name := decl.name, loggerField, annotated, tally }

/-- Every type that the class refers to, each with a description of the place. -/
def typeReferences (decl : ClassDecl) : List (String × TypeRef) :=
  let ofFields := decl.fields.filterMap fun field =>
    field.type.map fun type => ("type of field " ++ decl.name ++ "." ++ field.name, type)
  let ofMethod (method : Method) :=
    let returned := method.returnType.toList.map fun type =>
      ("return type of " ++ decl.name ++ "." ++ method.name ++ "()", type)
    let parameters := method.parameters.filterMap fun parameter =>
      parameter.type.map fun type =>
        ("parameter " ++ parameter.name ++ " of " ++ decl.name ++ "." ++ method.name ++ "()", type)
    returned ++ parameters
  let ofExpressions := decl.expressions.flatMap fun (place, expr) =>
    expr.typeRefs.map fun type => ("class reference in " ++ place, type)
  ofFields ++ decl.methods.flatMap ofMethod ++ ofExpressions

end ClassDecl

/-- What an audit says about a unit. -/
structure UnitAudit where
  unitName : Scalar
  fieldCount : Nat
  methodCount : Nat
  classes : List ClassAudit
  unresolvedTypes : List String
  greatestDepth : Nat
  expressionCount : Nat
  warnings : List String
deriving Repr

namespace UnitAudit

def guarded (audit : UnitAudit) : Nat :=
  audit.classes.foldr (fun decl total => decl.tally.guarded + total) 0

def unguarded (audit : UnitAudit) : Nat :=
  audit.classes.foldr (fun decl total => decl.tally.unguarded + total) 0

def class? (audit : UnitAudit) (name : String) : Option ClassAudit :=
  audit.classes.find? (·.name == name)

/-- A warning is given once. -/
def addWarning (audit : UnitAudit) (warning : String) : UnitAudit :=
  if audit.warnings.contains warning then audit
  else { audit with warnings := audit.warnings ++ [warning] }

/-- What there is to warn of in a class. -/
def warningFor? (audit : ClassAudit) : Option String :=
  if audit.annotated then some (audit.name ++ " is annotated but not transformed")
  else if audit.tally.unguarded = 0 then none
  else some (audit.name ++ " has " ++ toString audit.tally.unguarded
    ++ " unguarded logging call(s) on '" ++ audit.loggerField.getD "None" ++ "'")

end UnitAudit

namespace CompilationUnit

/-- The references of a unit that do not resolve, in the order in which type checking meets them. -/
def unresolvedReferences (unit : CompilationUnit) (classPath : ClassPath) : List (String × TypeRef) :=
  let visible := classPath.withUnit unit
  (unit.classes.flatMap ClassDecl.typeReferences).filter (!visible.contains ·.2.name)

/-- Succeeds if every type reference of the unit resolves; its own classes and the language types do. -/
def checkTypes (unit : CompilationUnit) (classPath : ClassPath) : Except UnresolvedType Unit :=
  match unit.unresolvedReferences classPath with
  | [] => .ok ()
  | (context, type) :: _ => .error ⟨type.name, context⟩

def audit (unit : CompilationUnit) (classPath : ClassPath) : UnitAudit :=
  let expressions := unit.classes.flatMap ClassDecl.expressions
  let unresolved := ((unit.unresolvedReferences classPath).map (·.2.name)).eraseDups.mergeSort (· ≤ ·)
  let classes := unit.classes.map ClassDecl.audit
  let warnings := classes.filterMap UnitAudit.warningFor?
    ++ (if unresolved.isEmpty then [] else ["Unresolved types: " ++ ", ".intercalate unresolved])
  warnings.foldl UnitAudit.addWarning
    { unitName := unit.name
      fieldCount := (unit.classes.flatMap (·.fields)).length
      methodCount := (unit.classes.flatMap (·.methods)).length
      classes
      unresolvedTypes := unresolved
      greatestDepth := (expressions.map (·.2.depth)).foldl max 0
      expressionCount := expressions.length
      warnings := [] }

end CompilationUnit

end GuardedLogging
