import GuardedLogging.Text.Upper

/-!
# Logging levels

A logger has one method for each of six levels, and one that asks whether the level is enabled: `debug` goes with `isDebugEnabled`.
-/

namespace GuardedLogging

inductive Level where
  | fatal
  | error
  | warn
  | info
  | debug
  | trace
deriving DecidableEq, Repr

namespace Level

def all : List Level := [fatal, error, warn, info, debug, trace]

/-- The method that logs at this level. -/
def method : Level → String
  | fatal => "fatal"
  | error => "error"
  | warn => "warn"
  | info => "info"
  | debug => "debug"
  | trace => "trace"

/-- The method that asks whether this level is enabled. -/
def check : Level → String
  | fatal => "isFatalEnabled"
  | error => "isErrorEnabled"
  | warn => "isWarnEnabled"
  | info => "isInfoEnabled"
  | debug => "isDebugEnabled"
  | trace => "isTraceEnabled"

def ofMethod? (name : String) : Option Level :=
  all.find? (·.method == name)

def ofCheck? (name : String) : Option Level :=
  all.find? (·.check == name)

theorem mem_all (level : Level) : level ∈ all := by
  cases level <;> simp [all]

theorem ofMethod?_method (level : Level) : ofMethod? level.method = some level := by
  cases level <;> decide

theorem ofMethod?_eq_some_iff {name : String} {level : Level} :
    ofMethod? name = some level ↔ name = level.method := by
  constructor
  · intro h
    exact (beq_iff_eq.mp (List.find?_some (p := fun level : Level => level.method == name) h)).symm
  · rintro rfl
    exact ofMethod?_method level

theorem ofMethod?_check (level : Level) : ofMethod? level.check = none := by
  cases level <;> decide

end Level

def isLoggingMethod (name : String) : Bool := (Level.ofMethod? name).isSome

/-- The name of the method that asks whether a logging method has an effect: `is`, the name with its first character in upper case, `Enabled`. The empty name has none. -/
def checkName? (method : String) : Option String :=
  match method.toList with
  | [] => none
  | c :: rest => some ("is" ++ String.ofList (upperChar c ++ rest) ++ "Enabled")

/-- Why a name has no check. -/
def emptyMethodMessage : String := "logging method name must not be empty"

theorem checkName?_method (level : Level) : checkName? level.method = some level.check := by
  cases level <;> rfl

end GuardedLogging
