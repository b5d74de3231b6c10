import GuardedLogging.Document
import GuardedLogging.Facade
import GuardedLogging.Guard
import GuardedLogging.Request
import GuardedLogging.Strategy

/-!
# Adding loggers to classes

A class that asks for a logger gets a field for it in front of its other fields, the calls on the logger in its initial values and method bodies are guarded, and the annotation is dropped. A method with a parameter of the logger's name is left alone, since the name means the parameter there. The class is changed in place, one step after the other, and everything that can be wrong with it is looked at before the first change.

The classes of a unit are transformed in order, up to the first that fails. The outcome shows the unit as it then is: the classes before the failing one are transformed in it, and the failing one is as its steps left it.
-/

namespace GuardedLogging

/-- What was done to one class. -/
structure ClassReport where
  className : String
  fieldName : String
  strategy : String
  decisions : List Decision
  shadowedMethods : List String
deriving DecidableEq, Repr

namespace ClassReport

/-- The calls that were guarded. -/
def wrapped (report : ClassReport) : Nat := report.decisions.countP Decision.isWrapped

/-- The calls of methods that do not log. -/
def untouched (report : ClassReport) : Nat := report.decisions.count .untouched

/-- The calls left unguarded because their arguments are simple. -/
def skipped (report : ClassReport) : Nat := report.decisions.count .skipped

def alreadyGuarded (report : ClassReport) : Nat := report.decisions.count .alreadyGuarded

def toDocument (report : ClassReport) : Document :=
  .record [("class_name", .text report.className), ("field_name", .text report.fieldName),
    ("strategy", .text report.strategy), ("wrapped_calls", .nat report.wrapped),
    ("untouched_calls", .nat report.untouched), ("skipped_simple_calls", .nat report.skipped),
    ("already_guarded_calls", .nat report.alreadyGuarded),
    ("shadowed_methods", .list (report.shadowedMethods.map .text))]

/-- What transforming the class wrote to the log: each guarded call, then the field. -/
def records (report : ClassReport) : List LogRecord :=
  let guards := report.decisions.filterMap fun decision => match decision with
    | .wrapped level => some ⟨.transformation, .debug,
        "Guarding " ++ report.fieldName ++ "." ++ level.method ++ "() in " ++ report.className⟩
    | _ => none
  guards ++ [⟨.transformation, .info, "Added logger field '" ++ report.fieldName ++ "' to "
    ++ report.className ++ ", guarded " ++ toString report.wrapped ++ " call(s)"⟩]

end ClassReport

namespace Guarding

def guardField (guarding : Guarding) (field : Field) : Field :=
  { field with initial := guarding.guard field.initial }

def guardStatement (guarding : Guarding) (statement : Statement) : Statement :=
  { statement with expr := guarding.guard statement.expr }

/-- Whether the logger's name means a parameter in the method. -/
def isShadowedIn (guarding : Guarding) (method : Method) : Bool :=
  method.parameterNames.contains guarding.logger

def guardMethod (guarding : Guarding) (method : Method) : Method :=
  if guarding.isShadowedIn method then method
  else { method with body := method.body.map guarding.guardStatement }

/-- The decisions taken in the initial values of fields. -/
def decisionsInFields (guarding : Guarding) (fields : List Field) : List Decision :=
  fields.flatMap fun field => guarding.decisions field.initial

/-- The decisions taken in methods; none in those where the logger's name means a parameter. -/
def decisionsInMethods (guarding : Guarding) (methods : List Method) : List Decision :=
  (methods.filter (!guarding.isShadowedIn ·)).flatMap fun method =>
    method.body.flatMap fun statement => guarding.decisions statement.expr

end Guarding

namespace ClassDecl

/-- The first annotation that asks for a logger. -/
def request? (decl : ClassDecl) : Option Annotation :=
  decl.annotations.find? Annotation.isRequest

end ClassDecl

/-- Steps of a transformation, over the class as it is at the moment. A step that fails leaves the class as the steps before it made it. -/
abbrev ClassSteps := ExceptT TransformError.Cause (StateM ClassDecl)

namespace ClassSteps

/-- Takes the steps, from a class as it is: what they answer, and the class as they leave it. -/
def runFrom {α : Type} (steps : ClassSteps α) (decl : ClassDecl) : Except TransformError.Cause α × ClassDecl :=
  steps.run.run decl

/-- Fails if the class has a field of the name already. -/
def requireNew (name : String) : ClassSteps Unit := do
  let decl ← get
  if (decl.field? name).isSome then throw (.duplicateField name) else return ()

def addLogger (binding : FacadeBinding) (name : String) : ClassSteps Unit :=
  modify fun decl => decl.addField (binding.loggerField decl name)

/-- Guards the initial values of the fields behind the first, which is the logger. -/
def guardInitials (guarding : Guarding) : ClassSteps (List Decision) := do
  let decl ← get
  let others := decl.fields.drop 1
  set { decl with fields := decl.fields.take 1 ++ others.map guarding.guardField }
  return guarding.decisionsInFields others

/-- Guards the bodies of the methods in which the logger's name means the logger, and answers also the names of the others. -/
def guardBodies (guarding : Guarding) : ClassSteps (List Decision × List String) := do
  let decl ← get
  set { decl with methods := decl.methods.map guarding.guardMethod }
  let shadowed := decl.methods.filter guarding.isShadowedIn
  return (guarding.decisionsInMethods decl.methods, shadowed.map (·.name))

def dropRequest : ClassSteps Unit :=
  modify fun decl => { decl with annotations := decl.annotations.eraseP Annotation.isRequest }

/-- All steps for a class that asks for a logger by the annotation. An annotation that means nothing is reported before an unknown strategy, and that before a field that exists already. -/
def transform (binding : FacadeBinding) (skipSimple : Bool) (mark : Annotation) : ClassSteps ClassReport := do
  let request ← LoggerRequest.ofMark mark
  let strategy ← Strategy.choose (.named request.strategy)
  requireNew request.fieldName
  addLogger binding request.fieldName
  let guarding : Guarding := ⟨request.fieldName, skipSimple⟩
  let inFields ← guardInitials guarding
  let (inMethods, shadowedMethods) ← guardBodies guarding
  dropRequest
  let decl ← get
  return { className := decl.name, fieldName := request.fieldName, strategy, decisions := inFields ++ inMethods, shadowedMethods }

end ClassSteps

/-- A class after a transformation, with the report or the error; there is no report if the class asks for no logger. -/
structure ClassOutcome where
  decl : ClassDecl
  result : Except TransformError (Option ClassReport)

/-- Transforms a class in place: the outcome has the class as the steps leave it, also if one of them fails. -/
def ClassDecl.transformInPlace (binding : FacadeBinding) (skipSimple : Bool) (decl : ClassDecl) : ClassOutcome :=
  match decl.request? with
  | none => ⟨decl, .ok none⟩
  | some mark =>
    match (ClassSteps.transform binding skipSimple mark).runFrom decl with
    | (.error cause, after) => ⟨after, .error ⟨decl.name, cause⟩⟩
    | (.ok report, after) => ⟨after, .ok (some report)⟩

/-- What was done to the classes of a unit that asked for a logger, in their order. -/
structure UnitReport where
  unitName : Scalar
  classes : List ClassReport
deriving DecidableEq, Repr

namespace UnitReport

def totalWrapped (report : UnitReport) : Nat :=
  report.classes.foldr (fun decl total => decl.wrapped + total) 0

def class? (report : UnitReport) (name : String) : Option ClassReport :=
  report.classes.find? (·.className == name)

def toDocument (report : UnitReport) : Document :=
  .record [("unit", .scalar report.unitName), ("total_wrapped_calls", .nat report.totalWrapped),
    ("classes", .list (report.classes.map ClassReport.toDocument))]

end UnitReport

/-- The classes after a transformation: those reached are transformed, up to the first that fails. -/
structure ClassesOutcome where
  classes : List ClassDecl
  reports : List ClassReport
  error : Option TransformError

namespace ClassesOutcome

def ofClasses (binding : FacadeBinding) (skipSimple : Bool) : List ClassDecl → ClassesOutcome
  | [] => ⟨[], [], none⟩
  | decl :: rest =>
    let outcome := decl.transformInPlace binding skipSimple
    match outcome.result with
    | .error error => ⟨outcome.decl :: rest, [], some error⟩
    | .ok report? =>
      let later := ofClasses binding skipSimple rest
      ⟨outcome.decl :: later.classes, report?.toList ++ later.reports, later.error⟩

end ClassesOutcome

/-- A unit after a transformation, the binding then in force, what was written to the log, and the report or the error. -/
structure UnitOutcome where
  unit : CompilationUnit
  binding : FacadeBinding
  records : List LogRecord
  result : Except TransformError UnitReport

namespace CompilationUnit

/-- Transforms the classes of a unit. The binding is settled first, and the unit's own classes are on the class path for it. -/
def transform (state : BindingState) (classPath : ClassPath) (skipSimple : Bool)
    (unit : CompilationUnit) : UnitOutcome :=
  let visible := classPath.withUnit unit
  let binding := state.settle visible
  let outcome := ClassesOutcome.ofClasses binding skipSimple unit.classes
  { unit := { unit with classes := outcome.classes }
    binding
    records := state.settleRecords visible ++ outcome.reports.flatMap ClassReport.records
    result := match outcome.error with
      | some error => .error error
      | none => .ok ⟨unit.name, outcome.reports⟩ }

end CompilationUnit

/-- Transforms one class by itself, and answers also the binding then in force: a class that asks for no logger does not settle it. -/
def ClassDecl.transformAlone (state : BindingState) (classPath : ClassPath) (skipSimple : Bool)
    (decl : ClassDecl) : BindingState × ClassOutcome :=
  match decl.request? with
  | none => (state, ⟨decl, .ok none⟩)
  | some _ =>
    let binding := state.settle (classPath.extended [decl.name])
    (some binding, decl.transformInPlace binding skipSimple)

end GuardedLogging
