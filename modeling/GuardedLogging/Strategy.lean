import GuardedLogging.TransformError

/-!
# Logging strategies

A strategy knows one logging facade. It is chosen by one of its names, or is supplied by the program that uses the library; a supplied one may turn out not to be a strategy, or may fail to come into being.
-/

namespace GuardedLogging

/-- How a supplied strategy behaves when it is needed. -/
inductive SuppliedStrategy where
  | working
  | notAStrategy
  | failing (reason : String)
deriving DecidableEq, Repr

inductive StrategyChoice where
  | named (name : String)
  /-- A supplied strategy, with its name and the form in which messages show it. -/
  | supplied (name shown : String) (behaviour : SuppliedStrategy)
deriving DecidableEq, Repr

namespace Strategy

/-- The name under which the strategy for Commons Logging appears in reports. -/
def commonsName : String := "CommonsLoggingStrategy"

/-- The names by which it can be chosen, in the order of their code points. -/
def registeredNames : List String :=
  ["Commons.CommonsLoggingStrategy", "CommonsLoggingStrategy", "commons",
    "groovy.util.logging.Commons.CommonsLoggingStrategy"]

/-- The name of the strategy that a choice comes to. -/
def choose : StrategyChoice → Except TransformError.Cause String
  | .named name =>
    if registeredNames.contains name then .ok commonsName
    else .error (.strategy (quoted name) ("unknown strategy, expected one of " ++ quotedList registeredNames))
  | .supplied name _ .working => .ok name
  | .supplied _ shown .notAStrategy => .error (.strategy shown "not a LoggingStrategy subclass")
  | .supplied _ shown (.failing reason) =>
    .error (.strategy shown (if reason.isEmpty then "RuntimeError" else reason))

end Strategy

end GuardedLogging
