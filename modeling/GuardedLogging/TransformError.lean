import GuardedLogging.Scalar

/-!
# Errors of a transformation

Why a class cannot be transformed. Every error names the class.
-/

namespace GuardedLogging

inductive TransformError.Cause where
  | duplicateField (name : String)
  /-- The strategy, as messages show it, and why it cannot be used. -/
  | strategy (shown reason : String)
  | unknownMembers (names : List String)
  | invalidFieldName (given : Scalar)
  | invalidStrategyName (given : Scalar)
deriving DecidableEq, Repr

structure TransformError where
  className : String
  cause : TransformError.Cause
deriving DecidableEq, Repr

namespace TransformError

def Cause.detail : Cause → String
  | duplicateField name =>
    "class annotated with @Commons cannot declare a field named '" ++ name ++ "'"
  | strategy shown reason => "cannot instantiate logging strategy " ++ shown ++ ": " ++ reason
  | unknownMembers names => "unknown @Commons members: " ++ quotedList names
  | invalidFieldName given => "logger field name must be an identifier, got " ++ given.shown
  | invalidStrategyName given => "loggingStrategy must be a strategy name, got " ++ given.shown

def message (error : TransformError) : String :=
  error.className ++ ": " ++ error.cause.detail

end TransformError

end GuardedLogging
