import GuardedLogging.Expr
import GuardedLogging.Token.Literal

/-!
# Expressions as source text

An expression is written with parentheses exactly where it would otherwise bind wrongly: around a ternary that is a receiver, the operand of a negation, or one of the first two parts of a ternary, and around a negation that is a receiver. A marker of a condition leaves no trace. Types declared in the unit and language types are written by their simple names, all others by their qualified names.
-/

namespace GuardedLogging

/-- A type as it is written in a unit that declares the given types. -/
def TypeRef.toSource (localTypes : List String) (type : TypeRef) : String :=
  if localTypes.contains type.name || isLanguageType type.name then type.simpleName else type.name

namespace Expr

def isTernary : Expr → Bool
  | ternary .. => true
  | _ => false

def isNot : Expr → Bool
  | not _ => true
  | _ => false

def parenthesized (inside : Bool) (text : String) : String :=
  if inside then "(" ++ text ++ ")" else text

mutual

/-- The text of an expression; an absent one has none. -/
def toSource (localTypes : List String) : Expr → String
  | absent => ""
  | const value => Literal.ofScalar value
  | var name => name
  | classRef type => type.toSource localTypes
  | args arguments => ", ".intercalate (toSources localTypes arguments)
  | call receiver method arguments =>
    parenthesized (receiver.isTernary || receiver.isNot) (receiver.toSource localTypes) ++ "." ++ method
      ++ "(" ++ ", ".intercalate (toSources localTypes arguments) ++ ")"
  | property receiver name =>
    parenthesized (receiver.isTernary || receiver.isNot) (receiver.toSource localTypes) ++ "." ++ name
  | condition inner => inner.toSource localTypes
  | not operand => "!" ++ parenthesized operand.isTernary (operand.toSource localTypes)
  | ternary test whenTrue whenFalse =>
    parenthesized test.isTernary (test.toSource localTypes) ++ " ? "
      ++ parenthesized whenTrue.isTernary (whenTrue.toSource localTypes) ++ " : "
      ++ whenFalse.toSource localTypes

def toSources (localTypes : List String) : List Expr → List String
  | [] => []
  | expr :: rest => expr.toSource localTypes :: toSources localTypes rest

end

/-- The text of an expression in which no child is missing. -/
def toSource? (localTypes : List String) (expr : Expr) : Option String :=
  if expr.isComplete then some (expr.toSource localTypes) else none

end Expr

end GuardedLogging
