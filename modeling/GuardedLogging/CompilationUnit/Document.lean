import GuardedLogging.CompilationUnit
import GuardedLogging.Expr.Document

/-!
# Units as documents

Every part of a unit is a mapping with fixed keys. Only the names and the expressions of statements are required when a unit is read; unknown keys are ignored. The owner of a field is not written: it is the class around it.
-/

namespace GuardedLogging

namespace Modifiers

def toDocument (modifiers : Modifiers) : Document :=
  .list (modifiers.words.map .text)

def ofDocuments (documents : List Document) : Except ShapeError Modifiers :=
  documents.foldlM (fun modifiers document => do
    let name ← document.asText
    (modifiers.insertName name).mapError .unknownModifier) none

end Modifiers

namespace Annotation

def toDocument (mark : Annotation) : Document :=
  .record [("name", .text mark.name),
    ("members", .record (mark.members.map fun member => (member.1, .scalar member.2)))]

def membersOfDocument : Option Document → Except ShapeError (List (String × Scalar))
  | none => .ok []
  | some document =>
    if !document.isTrue then .ok []
    else do
      (← document.entries .declaration).mapM fun (key, value) => do
        return (← (Document.ofKey key).asText, ← value.asScalar)

def ofDocument (document : Document) : Except ShapeError Annotation := do
  let entries ← document.entries .declaration
  let name ← Document.requiredText entries "name"
  return ⟨name, ← membersOfDocument (Document.lookup entries "members")⟩

end Annotation

namespace Parameter

def toDocument (parameter : Parameter) : Document :=
  .record [("name", .text parameter.name), ("type", TypeRef.optionToDocument parameter.type)]

def ofDocument (document : Document) : Except ShapeError Parameter := do
  let entries ← document.entries .declaration
  let name ← Document.requiredText entries "name"
  return ⟨name, ← TypeRef.optionOfDocument (Document.lookup entries "type")⟩

end Parameter

namespace Statement

def toDocument (statement : Statement) : Document :=
  .record [("kind", .text (if statement.returns then "return" else "expression")),
    ("expression", statement.expr.toDocument)]

/-- Every kind but `return` is that of an expression statement. -/
def ofDocument (document : Document) : Except ShapeError Statement := do
  let entries ← document.entries .statement
  let expr ← Expr.ofDocument (← Document.required entries "expression")
  let returns := match Document.lookup entries "kind" with
    | some (.scalar (.text "return")) => true
    | _ => false
  return ⟨returns, expr⟩

end Statement

namespace Field

def toDocument (field : Field) : Document :=
  .record [("name", .text field.name), ("modifiers", field.modifiers.toDocument),
    ("type", TypeRef.optionToDocument field.type), ("initial_expression", field.initial.toDocument)]

def ofDocument (owner : String) (document : Document) : Except ShapeError Field := do
  let entries ← document.entries .declaration
  let name ← Document.requiredText entries "name"
  let modifiers ← Modifiers.ofDocuments (← Document.membersOr entries "modifiers")
  let type ← TypeRef.optionOfDocument (Document.lookup entries "type")
  let initial ← Expr.ofDocument ((Document.lookup entries "initial_expression").getD .null)
  return { name, modifiers, type, initial, owner }

end Field

namespace Method

def toDocument (method : Method) : Document :=
  .record [("name", .text method.name), ("modifiers", method.modifiers.toDocument),
    ("return_type", TypeRef.optionToDocument method.returnType),
    ("parameters", .list (method.parameters.map Parameter.toDocument)),
    ("body", .list (method.body.map Statement.toDocument))]

def ofDocument (document : Document) : Except ShapeError Method := do
  let entries ← document.entries .declaration
  let name ← Document.requiredText entries "name"
  let modifiers ← Modifiers.ofDocuments (← Document.membersOr entries "modifiers")
  let returnType ← TypeRef.optionOfDocument (Document.lookup entries "return_type")
  let parameters ← (← Document.membersOr entries "parameters").mapM Parameter.ofDocument
  let body ← (← Document.membersOr entries "body").mapM Statement.ofDocument
  return { name, modifiers, returnType, parameters, body }

end Method

namespace ClassDecl

def toDocument (decl : ClassDecl) : Document :=
  .record [("name", .text decl.name), ("modifiers", decl.modifiers.toDocument),
    ("annotations", .list (decl.annotations.map Annotation.toDocument)),
    ("fields", .list (decl.fields.map Field.toDocument)),
    ("methods", .list (decl.methods.map Method.toDocument))]

def ofDocument (document : Document) : Except ShapeError ClassDecl := do
  let entries ← document.entries .declaration
  let name ← Document.requiredText entries "name"
  let modifiers ← Modifiers.ofDocuments (← Document.membersOr entries "modifiers")
  let annotations ← (← Document.membersOr entries "annotations").mapM Annotation.ofDocument
  let fields ← (← Document.membersOr entries "fields").mapM (Field.ofDocument name)
  let methods ← (← Document.membersOr entries "methods").mapM Method.ofDocument
  return { name, modifiers, annotations, fields, methods }

end ClassDecl

namespace CompilationUnit

def toDocument (unit : CompilationUnit) : Document :=
  .record [("name", .scalar unit.name), ("package", .scalar unit.package),
    ("classes", .list (unit.classes.map ClassDecl.toDocument))]

def ofDocument (document : Document) : Except ShapeError CompilationUnit := do
  let entries ← document.entries .unit
  let name ← ((Document.lookup entries "name").getD (.text "")).asScalar
  let package ← ((Document.lookup entries "package").getD (.text "")).asScalar
  let classes ← (← Document.membersOr entries "classes").mapM ClassDecl.ofDocument
  return { name, package, classes }

end CompilationUnit

end GuardedLogging
