import GuardedLogging.CommandLine.Run
import GuardedLogging.Yaml.Library

/-!
# The program

The outer layer: it asks the system for everything that a command may want to know, runs the command, and does what the command decided.
-/

namespace GuardedLogging.Main

open CommandLine

def usage : String :=
  "usage: logguard [-h] [--version] [--config FILE] [--log-level LEVEL] COMMAND\n\n"
    ++ "  transform SOURCE [-o FILE] [--report yaml|json] [--check]\n"
    ++ "  analyze SOURCE\n"

def readFile (path : String) : IO (Except FileError (List UInt8)) := do
  try
    return .ok (← IO.FS.readBinFile path).toList
  catch
    | .noFileOrDirectory .. => return .error .missing
    | _ => return .error .isDirectory

/-- Whether something can be opened; behind a directory's name a slash and a point can. -/
def canOpen (path : String) : IO Bool := do
  try
    let _ ← IO.FS.Handle.mk path .read
    return true
  catch _ => return false

/-- Why a file cannot be written. -/
def obstacle? (path : String) : IO (Option FileError) := do
  let directory := String.ofList ((path.toList.reverse.dropWhile (· != '/')).reverse)
  if path.isEmpty then return some .missing
  else if ← canOpen (path ++ "/.") then return some .isDirectory
  else if directory.isEmpty then return none
  else if ← canOpen (directory ++ ".") then return none
  else return some .missing

/-- What the system answers to all that the command can ask. -/
def surroundingsOf (invocation : Invocation) : IO Surroundings := do
  let values ← [Settings.pathVariable, Settings.levelVariable].mapM fun name => do
    return (name, ← IO.getEnv name)
  let environment? (name : String) : Option String := (values.lookup name).join
  let settingsPath := invocation.settingsPath <|> Settings.nonempty? (environment? Settings.pathVariable)
  let (source, output) := match invocation.command with
    | .transform source options => (source, options.output)
    | .analyze source => (source, none)
  let contents ← (settingsPath.toList ++ [source]).mapM fun path => do return (path, ← readFile path)
  let read (path : String) : Except FileError (List UInt8) := (contents.lookup path).getD (.error .missing)
  let logFile := match Settings.load Yaml.library read environment? invocation.settingsPath with
    | .ok settings => settings.logFile.path?
    | .error _ => none
  let obstacles ← (output.toList ++ logFile.toList).mapM fun path => do return (path, ← obstacle? path)
  return { read, writeError? := fun path => (obstacles.lookup path).join, environment? }

def apply : FileChange → IO Unit
  | .append path text => do (← IO.FS.Handle.mk path .append).putStr text
  | .replace path text => IO.FS.writeFile path text

def execute (invocation : Invocation) : IO UInt32 := do
  match run Yaml.library (← surroundingsOf invocation) none invocation with
  | .ok outcome =>
    outcome.effects.changes.forM apply
    IO.print outcome.effects.stdout
    IO.eprint outcome.effects.stderr
    return UInt32.ofNat outcome.exitCode
  | .error _ =>
    IO.eprint (programName ++ ": a file or a setting cannot be used\n")
    return 1

end GuardedLogging.Main

open GuardedLogging in
def main (words : List String) : IO UInt32 :=
  match CommandLine.Invocation.ofWords words with
  | .ok invocation => Main.execute invocation
  | .error .help => do
    IO.print Main.usage
    return 0
  | .error .version => do
    IO.print CommandLine.versionLine
    return 0
  | .error .usage => do
    IO.eprint Main.usage
    return 2
