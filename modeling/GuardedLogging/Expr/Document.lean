import GuardedLogging.Document.Shape
import GuardedLogging.Expr

/-!
# Expressions as documents

An expression is written as a mapping whose `type` names its root and whose other keys hold the children; an absent expression is null. Reading is the inverse of writing, and ignores keys it does not know.
-/

namespace GuardedLogging

namespace TypeRef

def toDocument (type : TypeRef) : Document :=
  .record [("name", .text type.name), ("resolved", .bool type.resolved)]

def ofEntries (entries : List (Document.Key × Document)) : Except ShapeError TypeRef := do
  let name ← Document.requiredText entries "name"
  return ⟨name, ((Document.lookup entries "resolved").map (·.isTrue)).getD false⟩

def ofDocument (document : Document) : Except ShapeError TypeRef := do
  ofEntries (← document.entries .type)

def optionToDocument : Option TypeRef → Document
  | some type => type.toDocument
  | none => .null

/-- A type that may be missing: null, or no document at all. -/
def optionOfDocument : Option Document → Except ShapeError (Option TypeRef)
  | none => .ok none
  | some (.scalar .null) => .ok none
  | some document => some <$> ofDocument document

/-- A type that must be there. -/
def requiredOfDocument : Document → Except ShapeError TypeRef
  | .scalar .null => .error .nullType
  | document => ofDocument document

end TypeRef

namespace Expr

mutual

def toDocument : Expr → Document
  | absent => .null
  | const value => .record [("type", .text "const"), ("value", .scalar value)]
  | var name => .record [("type", .text "var"), ("name", .text name)]
  | classRef type => .record [("type", .text "class"), ("class", type.toDocument)]
  | args arguments => .record [("type", .text "args"), ("arguments", .list (toDocuments arguments))]
  | call receiver method arguments =>
    .record [("type", .text "call"), ("object", receiver.toDocument), ("method", .text method),
      ("arguments", .list (toDocuments arguments))]
  | property receiver name =>
    .record [("type", .text "property"), ("object", receiver.toDocument), ("property", .text name)]
  | condition inner => .record [("type", .text "bool"), ("expression", inner.toDocument)]
  | not operand => .record [("type", .text "not"), ("expression", operand.toDocument)]
  | ternary test whenTrue whenFalse =>
    .record [("type", .text "ternary"), ("condition", test.toDocument), ("true", whenTrue.toDocument),
      ("false", whenFalse.toDocument)]

def toDocuments : List Expr → List Document
  | [] => []
  | expr :: rest => expr.toDocument :: toDocuments rest

end

mutual

def ofDocument (document : Document) : Except ShapeError Expr :=
  match document with
  | .scalar .null => .ok absent
  | .mapping entries => do
    let kind := ((Document.lookup entries "type").getD .null).plain
    match kind with
    | "const" => return const (← (← Document.required entries "value").asScalar)
    | "var" => return var (← Document.requiredText entries "name")
    | "class" => return classRef (← TypeRef.requiredOfDocument (← Document.required entries "class"))
    | "args" => return args (← ofDocuments (← Document.children .expression entries "arguments"))
    | "call" =>
      let receiver ← ofDocument (← Document.child entries "object")
      let method ← Document.requiredText entries "method"
      return call receiver method (← ofDocuments (← Document.children .expression entries "arguments"))
    | "property" =>
      let receiver ← ofDocument (← Document.child entries "object")
      return property receiver (← Document.requiredText entries "property")
    | "bool" => return condition (← ofDocument (← Document.child entries "expression"))
    | "not" => return not (← ofDocument (← Document.child entries "expression"))
    | "ternary" =>
      let test ← ofDocument (← Document.child entries "condition")
      let whenTrue ← ofDocument (← Document.child entries "true")
      return ternary test whenTrue (← ofDocument (← Document.child entries "false"))
    | _ => throw (.unknownExpression kind)
  | _ => .error (.notAMapping .expression)
termination_by sizeOf document

def ofDocuments (documents : List Document) : Except ShapeError (List Expr) :=
  match documents with
  | [] => .ok []
  | document :: rest => do return (← ofDocument document) :: (← ofDocuments rest)
termination_by sizeOf documents

end

end Expr

end GuardedLogging
