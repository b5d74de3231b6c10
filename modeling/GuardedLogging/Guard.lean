import GuardedLogging.Expr
import GuardedLogging.Level

/-!
# Guarded calls

A guarded call asks the logger whether the level is enabled and is evaluated only if it is. Inserting guards goes through an expression from the leaves to the root; each call on the logger meets one of a few fates, which depend on the call alone. A call that stands behind its own check already is left as it is, and so is the check.
-/

namespace GuardedLogging

namespace Expr

/-- The call behind the check that its method goes with; null if the level is not enabled. -/
def guarded (receiver : Expr) (check : String) (inner : Expr) : Expr :=
  ternary (call receiver check []) inner (const .null)

/-- As `guarded`, with the check named after the method. The empty method has no check. -/
def guardedCall? (receiver : Expr) (method : String) (inner : Expr) : Option Expr :=
  (checkName? method).map fun check => guarded receiver check inner

end Expr

/-- What becomes of a call. -/
inductive CallFate where
  /-- The receiver is not the logger. -/
  | elsewhere
  /-- The method does not log. -/
  | untouched
  /-- The arguments cost nothing to evaluate. -/
  | skipped
  | wrapped (level : Level)
deriving DecidableEq, Repr

/-- A decision taken on a call on the logger. -/
inductive Decision where
  | untouched
  | skipped
  | wrapped (level : Level)
  | alreadyGuarded
deriving DecidableEq, Repr

def Decision.isWrapped : Decision → Bool
  | wrapped _ => true
  | _ => false

def CallFate.decisions : CallFate → List Decision
  | elsewhere => []
  | untouched => [.untouched]
  | skipped => [.skipped]
  | wrapped level => [.wrapped level]

/-- Guards go around the calls on one logger, and around those with simple arguments only if these are not to be skipped. -/
structure Guarding where
  logger : String
  skipSimple : Bool
deriving DecidableEq, Repr

namespace Guarding

def isLogger (guarding : Guarding) : Expr → Bool
  | .var name => name == guarding.logger
  | _ => false

def fate (guarding : Guarding) (receiver : Expr) (method : String) (arguments : List Expr) : CallFate :=
  if !guarding.isLogger receiver then .elsewhere
  else
    match Level.ofMethod? method with
    | none => .untouched
    | some level =>
      if guarding.skipSimple && arguments.all Expr.isSimple then .skipped else .wrapped level

/-- Whether the first branch of a ternary is a call on the logger and the test its check, without arguments. -/
def isGuard (guarding : Guarding) (test whenTrue : Expr) : Bool :=
  match test, whenTrue with
  | .call checked check [], .call receiver method _ =>
    guarding.isLogger receiver && guarding.isLogger checked
      && (Level.ofMethod? method).any (·.check == check)
  | _, _ => false

/-- A call whose children are done, guarded if that is its fate. -/
def wrap (guarding : Guarding) (receiver : Expr) (method : String) (arguments : List Expr) : Expr :=
  match guarding.fate receiver method arguments with
  | .wrapped level => .guarded receiver level.check (.call receiver method arguments)
  | _ => .call receiver method arguments

mutual

def guard (guarding : Guarding) : Expr → Expr
  | .call receiver method arguments =>
    guarding.wrap (guarding.guard receiver) method (guarding.guardAll arguments)
  | .ternary test whenTrue whenFalse =>
    if guarding.isGuard test whenTrue then
      .ternary test (guarding.guardParts whenTrue) (guarding.guard whenFalse)
    else
      .ternary (guarding.guard test) (guarding.guard whenTrue) (guarding.guard whenFalse)
  | .condition inner => .condition (guarding.guard inner)
  | .not operand => .not (guarding.guard operand)
  | .property receiver name => .property (guarding.guard receiver) name
  | .args arguments => .args (guarding.guardAll arguments)
  | .absent => .absent
  | .const value => .const value
  | .var name => .var name
  | .classRef type => .classRef type

/-- A call with guards in its children, itself left as it is. -/
def guardParts (guarding : Guarding) : Expr → Expr
  | .call receiver method arguments =>
    .call (guarding.guard receiver) method (guarding.guardAll arguments)
  | other => other

def guardAll (guarding : Guarding) : List Expr → List Expr
  | [] => []
  | expr :: rest => guarding.guard expr :: guarding.guardAll rest

end

mutual

/-- The decisions taken in an expression, in the order in which guarding takes them. -/
def decisions (guarding : Guarding) : Expr → List Decision
  | .call receiver method arguments =>
    guarding.decisions receiver ++ guarding.decisionsAll arguments
      ++ (guarding.fate receiver method arguments).decisions
  | .ternary test whenTrue whenFalse =>
    if guarding.isGuard test whenTrue then
      .alreadyGuarded :: guarding.decisionsInParts whenTrue ++ guarding.decisions whenFalse
    else
      guarding.decisions test ++ guarding.decisions whenTrue ++ guarding.decisions whenFalse
  | .condition inner => guarding.decisions inner
  | .not operand => guarding.decisions operand
  | .property receiver _ => guarding.decisions receiver
  | .args arguments => guarding.decisionsAll arguments
  | .absent => []
  | .const _ => []
  | .var _ => []
  | .classRef _ => []

/-- The decisions taken in the children of a call. -/
def decisionsInParts (guarding : Guarding) : Expr → List Decision
  | .call receiver _ arguments => guarding.decisions receiver ++ guarding.decisionsAll arguments
  | _ => []

def decisionsAll (guarding : Guarding) : List Expr → List Decision
  | [] => []
  | expr :: rest => guarding.decisions expr ++ guarding.decisionsAll rest

end

end Guarding

end GuardedLogging
