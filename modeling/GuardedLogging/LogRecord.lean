/-!
# Log records

What the program reports about its own work: the part of the program that speaks, how urgent it is, and the message.
-/

namespace GuardedLogging

/-- The parts of the program that write records. -/
inductive LogSource where
  | typeLookup
  | facade
  | transformation
  | commandLine
deriving DecidableEq, Repr

namespace LogSource

/-- The name of the logger that all others belong to. -/
def rootName : String := "logguard"

def name : LogSource → String
  | typeLookup => rootName ++ ".typesystem"
  | facade => rootName ++ ".strategies.commons"
  | transformation => rootName ++ ".transform"
  | commandLine => rootName ++ ".cli"

end LogSource

/-- How urgent a record is. -/
inductive Severity where
  | debug
  | info
  | warning
  | error
  | critical
deriving DecidableEq, Repr

namespace Severity

def number : Severity → Int
  | debug => 10
  | info => 20
  | warning => 30
  | error => 40
  | critical => 50

end Severity

structure LogRecord where
  source : LogSource
  severity : Severity
  message : String
deriving DecidableEq, Repr

end GuardedLogging
