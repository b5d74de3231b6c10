import GuardedLogging.Expr.Equality
import GuardedLogging.Modifiers

/-!
# Compilation units

What a source declares: classes with annotations, fields and methods. The same data is read from sources and from documents; the rules that only sources obey, such as distinct field names, are not part of the types.
-/

namespace GuardedLogging

/-- A mark in front of a class, with named members in the order they were written. -/
structure Annotation where
  name : String
  members : List (String × Scalar) := []
deriving DecidableEq, Repr, Inhabited

namespace Annotation

def member? (mark : Annotation) (name : String) : Option Scalar :=
  mark.members.lookup name

end Annotation

structure Parameter where
  name : String
  type : Option TypeRef := none
deriving DecidableEq, Repr, Inhabited

/-- An expression, evaluated for its effect or to return its value. -/
structure Statement where
  returns : Bool
  expr : Expr
deriving DecidableEq, Repr, Inhabited

/-- A field; it has no initial value if `initial` is absent. The owner is the name of the declaring class. -/
structure Field where
  name : String
  modifiers : Modifiers := {}
  type : Option TypeRef := none
  initial : Expr := .absent
  owner : String
deriving DecidableEq, Repr, Inhabited

structure Method where
  name : String
  modifiers : Modifiers := {}
  returnType : Option TypeRef := none
  parameters : List Parameter := []
  body : List Statement := []
deriving DecidableEq, Repr, Inhabited

namespace Method

def parameterNames (method : Method) : List String :=
  method.parameters.map (·.name)

end Method

/-- A class. Its name is qualified if the unit declares a package. -/
structure ClassDecl where
  name : String
  modifiers : Modifiers := {}
  annotations : List Annotation := []
  fields : List Field := []
  methods : List Method := []
deriving DecidableEq, Repr, Inhabited

namespace ClassDecl

/-- A declared class resolves to itself. -/
def type (decl : ClassDecl) : TypeRef := ⟨decl.name, true⟩

def simpleName (decl : ClassDecl) : String := decl.type.simpleName

def field? (decl : ClassDecl) (name : String) : Option Field :=
  decl.fields.find? (·.name == name)

def method? (decl : ClassDecl) (name : String) : Option Method :=
  decl.methods.find? (·.name == name)

def annotation? (decl : ClassDecl) (name : String) : Option Annotation :=
  decl.annotations.find? (·.name == name)

/-- The class with one more field, which comes first so that its value is there for the others. -/
def addField (decl : ClassDecl) (field : Field) : ClassDecl :=
  { decl with fields := { field with owner := decl.name } :: decl.fields }

/-- Every expression of the class with a description of where it stands. -/
def expressions (decl : ClassDecl) : List (String × Expr) :=
  let initials := (decl.fields.filter (!·.initial.isAbsent)).map fun field =>
    (decl.name ++ "." ++ field.name, field.initial)
  let bodies := decl.methods.flatMap fun method =>
    method.body.map fun statement => (decl.name ++ "." ++ method.name ++ "()", statement.expr)
  initials ++ bodies

end ClassDecl

/-- A unit. Its name, which is usually the stem of a file name, and its package are labels: a document may give them any scalar. -/
structure CompilationUnit where
  name : Scalar
  package : Scalar := .text ""
  classes : List ClassDecl := []
deriving DecidableEq, Repr, Inhabited

namespace CompilationUnit

/-- The first class with this qualified or simple name. -/
def class? (unit : CompilationUnit) (name : String) : Option ClassDecl :=
  unit.classes.find? fun decl => decl.name == name || decl.simpleName == name

def classNames (unit : CompilationUnit) : List String :=
  unit.classes.map (·.name)

end CompilationUnit

/-- The class path that also sees the classes of a unit. -/
def ClassPath.withUnit (classPath : ClassPath) (unit : CompilationUnit) : ClassPath :=
  classPath.extended unit.classNames

end GuardedLogging
