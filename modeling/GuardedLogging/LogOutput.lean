import GuardedLogging.LogRecord
import GuardedLogging.Text.Blank
import GuardedLogging.Text.Upper

/-!
# Log lines

Records are shown from a level on. Levels are numbers, some of which have names; a level is asked for by name or number. A line shows the logger's name, the name of the level, in colour if wanted, and the message.

The level zero stands for the level of the loggers around, which is that of warnings, and records of level zero and below are never shown. The records of foreign loggers, and all records as long as no output has been set up, are shown as their message alone, from warnings on.
-/

namespace GuardedLogging

namespace LogLevel

def warning : Int := Severity.warning.number

/-- The levels with names. A level can have more than one; the first is the one that lines show. -/
def names : List (String × Int) :=
  [("CRITICAL", 50), ("FATAL", 50), ("ERROR", 40), ("WARNING", 30), ("WARN", 30), ("INFO", 20),
    ("DEBUG", 10), ("NOTSET", 0)]

/-- The level of a name, in any case and with white space around it; the default for other names. -/
def ofName (name : Option String) (default : Int := warning) : Int :=
  match name with
  | some name => (names.lookup (upperText (strip name))).getD default
  | none => default

/-- The name that lines show. -/
def name (level : Int) : String :=
  match names.find? (·.2 == level) with
  | some (name, _) => name
  | none => "Level " ++ toString level

/-- The escape that starts the colour of a level. -/
def color (level : Int) : String :=
  let code := if level = 10 then "36" else if level = 20 then "32" else if level = 30 then "33"
    else if level = 40 then "31" else if level = 50 then "41" else "0"
  "\x1b[" ++ code ++ "m"

def colorReset : String := "\x1b[0m"

end LogLevel

/-- A record as loggers take it: any logger, any level. -/
structure LogEntry where
  logger : String
  level : Int
  message : String
deriving DecidableEq, Repr

def LogRecord.entry (record : LogRecord) : LogEntry :=
  ⟨record.source.name, record.severity.number, record.message⟩

/-- How the records of the program are shown: from which level on, and whether in colour. -/
structure LogOutput where
  level : Int
  color : Bool := false
deriving DecidableEq, Repr

namespace LogEntry

/-- Whether the entry comes from the program itself. -/
def isOwn (entry : LogEntry) : Bool :=
  entry.logger == LogSource.rootName || entry.logger.startsWith (LogSource.rootName ++ ".")

/-- Whether an entry is at least at a level, given where level zero ends. -/
def reaches (entry : LogEntry) (level : Int) : Bool :=
  0 < entry.level && (if level = 0 then LogLevel.warning else level) ≤ entry.level

def line (entry : LogEntry) (color : Bool) : String :=
  let name := LogLevel.name entry.level
  let shown := if color then LogLevel.color entry.level ++ name ++ LogLevel.colorReset else name
  entry.logger ++ " [" ++ shown ++ "]: " ++ entry.message ++ "\n"

/-- The line of an entry in a log file. -/
def fileLine (entry : LogEntry) : String :=
  "[" ++ LogLevel.name entry.level ++ "] " ++ entry.logger ++ ": " ++ entry.message ++ "\n"

/-- What is shown of an entry, under the output that is set up, if one is. -/
def shown (output : Option LogOutput) (entry : LogEntry) : String :=
  match entry.isOwn, output with
  | true, some output => if entry.reaches output.level then entry.line output.color else ""
  | _, _ => if entry.reaches LogLevel.warning then entry.message ++ "\n" else ""

end LogEntry

namespace LogOutput

/-- What is shown of several entries. -/
def text (output : Option LogOutput) (entries : List LogEntry) : String :=
  String.join (entries.map (LogEntry.shown output))

/-- The lines of the entries in a log file. -/
def fileText (output : LogOutput) (entries : List LogEntry) : String :=
  String.join ((entries.filter fun entry => entry.isOwn && entry.reaches output.level).map LogEntry.fileLine)

end LogOutput

end GuardedLogging
