import GuardedLogging.Audit
import GuardedLogging.CommandLine.Arguments
import GuardedLogging.CompilationUnit.Source
import GuardedLogging.Exchange
import GuardedLogging.LogOutput
import GuardedLogging.Settings
import GuardedLogging.Transformation

/-!
# Running a command

A command reads the settings and one source file, and either transforms the unit and writes it out, or shows what an audit says. What it does to the world is collected as effects, in the order in which they happen: what it prints, and what it writes to files.

An error of the settings, the source or the transformation is printed and ends the command with exit code 1; then nothing else has been written. The output file is written only after the unit has been transformed and checked.
-/

namespace GuardedLogging.CommandLine

def programName : String := "logguard"

def versionLine : String := programName ++ " 0.1.0\n"

/-- What a command can ask of the system: the bytes of a file, why a file cannot be written, and the environment. -/
structure Surroundings where
  read : FileReader
  writeError? : String → Option FileError
  environment? : String → Option String

inductive FileChange where
  | append (path text : String)
  | replace (path text : String)
deriving DecidableEq, Repr

structure Effects where
  stdout : String := ""
  stderr : String := ""
  changes : List FileChange := []
deriving DecidableEq, Repr

namespace Effects

def append (first second : Effects) : Effects :=
  ⟨first.stdout ++ second.stdout, first.stderr ++ second.stderr, first.changes ++ second.changes⟩

instance : Append Effects := ⟨append⟩

end Effects

/-- Errors that the program does not handle. -/
inductive Crash where
  | file (path : String) (error : FileError)
  | settings (error : SettingsError)
  /-- The settings name something as log file that is no path. -/
  | logFile
deriving DecidableEq, Repr

structure Outcome where
  exitCode : Nat
  effects : Effects
  binding : BindingState

/-- Where the records of a command go. -/
structure LogTarget where
  output : LogOutput
  file : Option String

namespace LogTarget

/-- What logging several records does. -/
def log (target : LogTarget) (records : List LogRecord) : Effects :=
  let entries := records.map LogRecord.entry
  { stderr := LogOutput.text (some target.output) entries
    changes := match target.file with
      | some path => [.append path (target.output.fileText entries)]
      | none => [] }

/-- The target that options and settings ask for. A log file is opened at once; the empty path stands for the current directory. -/
def ofSettings (surroundings : Surroundings) (logLevel : Option String) (settings : Settings) :
    Except Crash LogTarget := do
  let level := (Settings.nonempty? logLevel).getD settings.logLevel
  let output : LogOutput := { level := LogLevel.ofName (some level) }
  match settings.logFile, settings.logFile.path? with
  | .scalar .null, _ => return ⟨output, none⟩
  | _, some path =>
    if path.isEmpty then throw (.file path .isDirectory)
    else
      match surroundings.writeError? path with
      | some error => throw (.file path error)
      | none => return ⟨output, some path⟩
  | _, none => throw .logFile

end LogTarget

/-- An error that is printed and ends the command. -/
def complaint (message : String) : Effects :=
  { stderr := programName ++ ": " ++ message ++ "\n" }

/-- A report as it is printed. -/
def reportText (yaml : YamlLibrary) (format : ReportFormat) (report : UnitReport) : String :=
  match format with
  | .yaml => report.toYaml yaml
  | .json => report.toJson ++ "\n"

/-- The lines that show an audit. -/
def auditText (audit : UnitAudit) : String :=
  let classLine (decl : ClassAudit) : String :=
    "  " ++ decl.name ++ ": logger=" ++ (Settings.nonempty? decl.loggerField).getD "(none)" ++ " guarded="
      ++ toString decl.tally.guarded ++ " unguarded=" ++ toString decl.tally.unguarded ++ "\n"
  let warnings := if audit.warnings.isEmpty then ""
    else "\n  Warnings (" ++ toString audit.warnings.length ++ "):\n"
      ++ String.join (audit.warnings.map fun warning => "    - " ++ warning ++ "\n")
  "Unit: " ++ audit.unitName.plain ++ "\n  Classes: " ++ toString audit.classes.length
    ++ "\n  Guarded logging calls: " ++ toString audit.guarded
    ++ "\n  Unguarded logging calls: " ++ toString audit.unguarded ++ "\n"
    ++ String.join (audit.classes.map classLine) ++ warnings

section Commands

variable (yaml : YamlLibrary) (surroundings : Surroundings) (settings : Settings) (target : LogTarget) (binding : BindingState)

/-- The unit of the source file, or what a source that has none leads to. -/
def readSource (path : String) : Except Crash (Except Outcome CompilationUnit) :=
  match CompilationUnit.parseFile surroundings.read path with
  | .ok unit => .ok (.ok unit)
  | .error (.file path .missing) =>
    .ok (.error ⟨1, target.log [] ++ complaint (SourceFileError.missingMessage path), binding⟩)
  | .error (.file path error) => .error (.file path error)
  | .error (.source error) => .ok (.error ⟨1, target.log [] ++ complaint error.message, binding⟩)

/-- Writes the transformed unit to the output file, or else to the standard output, and then the report. -/
def deliver (options : TransformOptions) (unit : CompilationUnit) (report : UnitReport) :
    Except FileError Effects := do
  let shownReport : Effects := { stderr := (options.report.map fun format => reportText yaml format report).getD "" }
  match Settings.nonempty? options.output with
  | none => return { stdout := unit.toSource } ++ shownReport
  | some path =>
    match surroundings.writeError? path with
    | some error => throw error
    | none =>
      let written : Effects := { changes := [.replace path unit.toSource] }
      return written ++ target.log [⟨.commandLine, .info, "Wrote " ++ path⟩] ++ shownReport

def runTransform (source : String) (options : TransformOptions) : Except Crash Outcome := do
  match ← readSource surroundings target binding source with
  | .error outcome => return outcome
  | .ok unit =>
    let transformed := unit.transform binding settings.visibleTypes settings.skipSimple
    let logged := target.log transformed.records
    let binding := some transformed.binding
    match transformed.result with
    | .error error => return ⟨1, logged ++ complaint error.message, binding⟩
    | .ok report =>
      let checked := if options.check then transformed.unit.checkTypes settings.visibleTypes else .ok ()
      match checked with
      | .error error => return ⟨1, logged ++ complaint error.message, binding⟩
      | .ok () =>
        match deliver yaml surroundings target options transformed.unit report with
        | .ok effects => return ⟨0, logged ++ effects, binding⟩
        | .error .missing =>
          let path := options.output.getD ""
          return ⟨1, logged ++ complaint (FileError.missingMessage path), binding⟩
        | .error error => throw (.file (options.output.getD "") error)

def runAnalyze (source : String) : Except Crash Outcome := do
  match ← readSource surroundings target binding source with
  | .error outcome => return outcome
  | .ok unit =>
    let audit := unit.audit settings.visibleTypes
    return ⟨0, target.log [] ++ { stdout := auditText audit }, binding⟩

end Commands

/-- Runs a command. The binding is the one in force before and after it. -/
def run (yaml : YamlLibrary) (surroundings : Surroundings) (binding : BindingState) (invocation : Invocation) :
    Except Crash Outcome := do
  match Settings.load yaml surroundings.read surroundings.environment? invocation.settingsPath with
  | .error error =>
    match error.message? with
    | some message => return ⟨1, complaint message, binding⟩
    | none => throw (.settings error)
  | .ok settings =>
    let target ← LogTarget.ofSettings surroundings invocation.logLevel settings
    match invocation.command with
    | .transform source options => runTransform yaml surroundings settings target binding source options
    | .analyze source => runAnalyze surroundings settings target binding source

end GuardedLogging.CommandLine
