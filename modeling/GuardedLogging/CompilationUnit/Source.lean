import GuardedLogging.CompilationUnit
import GuardedLogging.Expr.Source

/-!
# Units as source text

A unit is written in the language it is read from, one statement a line. A class shows its annotations, then its fields in one block, then each method, with empty lines between the blocks. Types are written as in `Expr.toSource`; no imports are written.
-/

namespace GuardedLogging

namespace Annotation

def memberToSource (member : String × Scalar) : String :=
  member.1 ++ " = " ++ Literal.ofScalar member.2

/-- A single member called `value` is written without its name. -/
def toSource (mark : Annotation) : String :=
  match mark.members with
  | [] => "@" ++ mark.name
  | [("value", value)] => "@" ++ mark.name ++ "(" ++ Literal.ofScalar value ++ ")"
  | members => "@" ++ mark.name ++ "(" ++ ", ".intercalate (members.map memberToSource) ++ ")"

end Annotation

/-- The words in front of a declared name: the modifiers, and the type or `def`. -/
def declarationHead (localTypes : List String) (modifiers : Modifiers) (type : Option TypeRef) : String :=
  let type := match type with
    | some type => type.toSource localTypes
    | none => "def"
  " ".intercalate (modifiers.words ++ [type])

namespace Parameter

def toSource (localTypes : List String) (parameter : Parameter) : String :=
  match parameter.type with
  | some type => type.toSource localTypes ++ " " ++ parameter.name
  | none => parameter.name

end Parameter

namespace Statement

def toSource (localTypes : List String) (statement : Statement) : String :=
  if statement.returns then "return " ++ statement.expr.toSource localTypes
  else statement.expr.toSource localTypes

end Statement

namespace Field

def toSource (localTypes : List String) (field : Field) : String :=
  let head := declarationHead localTypes field.modifiers field.type ++ " " ++ field.name
  if field.initial.isAbsent then head else head ++ " = " ++ field.initial.toSource localTypes

end Field

namespace Method

/-- The lines of a method, its statements indented. -/
def sourceLines (localTypes : List String) (indent : String) (method : Method) : List String :=
  let parameters := ", ".intercalate (method.parameters.map (Parameter.toSource localTypes))
  let head := declarationHead localTypes method.modifiers method.returnType ++ " " ++ method.name
    ++ "(" ++ parameters ++ ") \x7b"
  head :: method.body.map (fun statement => indent ++ statement.toSource localTypes) ++ ["\x7d"]

end Method

namespace ClassDecl

/-- The blocks of a class, which empty lines separate. -/
def sourceBlocks (localTypes : List String) (indent : String) (decl : ClassDecl) : List (List String) :=
  let fields := if decl.fields.isEmpty then [] else [decl.fields.map (Field.toSource localTypes)]
  fields ++ decl.methods.map (Method.sourceLines localTypes indent)

def sourceLines (localTypes : List String) (indent : String) (decl : ClassDecl) : List String :=
  let blocks := (decl.sourceBlocks localTypes indent).map fun block =>
    block.map fun line => if line.isEmpty then "" else indent ++ line
  decl.annotations.map Annotation.toSource
    ++ [" ".intercalate (decl.modifiers.words ++ ["class", decl.simpleName]) ++ " \x7b"]
    ++ [""].intercalate blocks ++ ["\x7d"]

/-- Whether every expression of the class is complete. -/
def isComplete (decl : ClassDecl) : Bool :=
  decl.fields.all (fun field => field.initial.isAbsent || field.initial.isComplete)
    && decl.methods.all fun method => method.body.all (·.expr.isComplete)

end ClassDecl

namespace CompilationUnit

/-- The indentation of one level if nothing else is asked for. -/
def defaultIndent : String := "    "

def sourceLines (indent : String) (unit : CompilationUnit) : List String :=
  let package := if unit.package.isTrue then ["package " ++ unit.package.plain, ""] else []
  package ++ [""].intercalate (unit.classes.map (ClassDecl.sourceLines unit.classNames indent))

/-- The text of a unit; it ends with a line feed. -/
def toSource (unit : CompilationUnit) (indent : String := defaultIndent) : String :=
  "\n".intercalate (unit.sourceLines indent) ++ "\n"

def isComplete (unit : CompilationUnit) : Bool :=
  unit.classes.all ClassDecl.isComplete

/-- The text of a unit in which no expression lacks a child. -/
def toSource? (unit : CompilationUnit) (indent : String := defaultIndent) : Option String :=
  if unit.isComplete then some (unit.toSource indent) else none

end CompilationUnit

end GuardedLogging
