import GuardedLogging.CommandLine.Options
import GuardedLogging.Step

/-!
# The arguments of the program

Options for the whole program come first, then the name of a command and the options and arguments of the command. A command has one argument, the path of a source file.

Words are judged from left to right: a request for help or for the version is answered at once, a word that cannot be right is an error at once, and words too many or too few are errors in the end.
-/

namespace GuardedLogging.CommandLine

inductive ReportFormat where
  | yaml
  | json
deriving DecidableEq, Repr

structure TransformOptions where
  output : Option String := none
  report : Option ReportFormat := none
  check : Bool := false
deriving DecidableEq, Repr

inductive Command where
  | transform (source : String) (options : TransformOptions)
  | analyze (source : String)
deriving DecidableEq, Repr

structure Invocation where
  settingsPath : Option String := none
  logLevel : Option String := none
  command : Command
deriving DecidableEq, Repr

/-- Why a command line starts no command. -/
inductive Stop where
  | help
  | version
  | usage
deriving DecidableEq, Repr

/-- What an option stands for. -/
inductive Key where
  | help
  | version
  | settings
  | logLevel
  | output
  | report
  | check
deriving DecidableEq, Repr

def helpOptions : List (OptionName Key) := [⟨"-h", .help, false⟩, ⟨"--help", .help, false⟩]

def programOptions : List (OptionName Key) :=
  helpOptions ++ [⟨"--version", .version, false⟩, ⟨"--config", .settings, true⟩, ⟨"--log-level", .logLevel, true⟩]

def transformOptions : List (OptionName Key) :=
  helpOptions ++ [⟨"-o", .output, true⟩, ⟨"--output", .output, true⟩, ⟨"--report", .report, true⟩,
    ⟨"--check", .check, false⟩]

/-- What has been read of the words of a command. -/
structure Progress where
  options : TransformOptions := {}
  source : Option String := none
  /-- Whether the last word was the source. -/
  atSource : Bool := false
  /-- Whether there was a word too many. -/
  excess : Bool := false

/-- The value behind an option: attached, or the next word if that is an argument. -/
def takeValue {Key : Type} (attached : Option (List Char)) (words : List (Word Key)) :
    Except Stop (Step (Word Key) String (words.length + 1)) :=
  match attached, words with
  | some value, words => .ok (.stay (String.ofList value) words)
  | none, .argument text :: rest => .ok (Step.next text rest).optional
  | none, _ => .error .usage

/-- Options without a value; requests for information stop the program. -/
def applyFlags (check : Bool) : List Key → Except Stop Bool
  | [] => .ok check
  | .help :: _ => .error .help
  | .version :: _ => .error .version
  | .check :: rest => applyFlags true rest
  | _ :: rest => applyFlags check rest

def TransformOptions.set (options : TransformOptions) (key : Key) (value : String) :
    Except Stop TransformOptions :=
  match key, value with
  | .report, "yaml" => .ok { options with report := some .yaml }
  | .report, "json" => .ok { options with report := some .json }
  | .report, _ => .error .usage
  | _, value => .ok { options with output := some value }

/-- Reads the words of a command. -/
def readCommand (known : List (OptionName Key)) (progress : Progress) (words : List (Word Key)) :
    Except Stop Progress :=
  match words with
  | [] => .ok progress
  | .argument text :: rest =>
    if progress.source.isNone then
      readCommand known { progress with source := some text, atSource := true } rest
    else readCommand known { progress with excess := true, atSource := false } rest
  | .separator :: rest =>
    let allowed := progress.source.isNone || progress.atSource
    readCommand known { progress with excess := progress.excess || !allowed, atSource := false } rest
  | .unknown :: rest => readCommand known { progress with excess := true, atSource := false } rest
  | .option option attached :: rest =>
    match Options.expand? known option attached with
    | none => .error .usage
    | some expansion =>
      match expansion.valued with
      | none => do
        let check ← applyFlags progress.options.check expansion.flags
        let excess := progress.excess || expansion.isLeftOver
        let options := { progress.options with check }
        readCommand known { progress with options, excess, atSource := false } rest
      | some (key, attached) => do
        let ⟨value, after, _⟩ ← takeValue attached rest
        let check ← applyFlags progress.options.check expansion.flags
        let options ← TransformOptions.set { progress.options with check } key value
        readCommand known { progress with options, atSource := false } after
termination_by words.length

/-- The command of a name with its words, and whether there are words too many. -/
def commandOf (name : String) (words : List String) : Except Stop (Command × Bool) := do
  let read (known : List (OptionName Key)) : Except Stop (String × Progress) := do
    match Options.classifyAll? known words with
    | none => throw .usage
    | some classified =>
      let progress ← readCommand known {} classified
      match progress.source with
      | some source => return (source, progress)
      | none => throw .usage
  match name with
  | "transform" =>
    let (source, progress) ← read transformOptions
    return (.transform source progress.options, progress.excess)
  | "analyze" =>
    let (source, progress) ← read helpOptions
    return (.analyze source, progress.excess)
  | _ => throw .usage

/-- Reads the words in front of the command, and then the command. The words are given classified and as they are. -/
def readProgram (settingsPath logLevel : Option String) (excess : Bool) :
    (classified : List (Word Key)) → (words : List String) → Except Stop Invocation
  | .argument name :: _, _ :: words => do
    let (command, tooMany) ← commandOf name words
    if excess || tooMany then throw .usage else return { settingsPath, logLevel, command }
  | .unknown :: rest, _ :: words => readProgram settingsPath logLevel true rest words
  | .option option attached :: rest, _ :: words =>
    match Options.expand? programOptions option attached with
    | none => .error .usage
    | some expansion =>
      match expansion.valued with
      | none => do
        let _ ← applyFlags false expansion.flags
        readProgram settingsPath logLevel (excess || expansion.isLeftOver) rest words
      | some (key, some value) => do
        let _ ← applyFlags false expansion.flags
        let value := some (String.ofList value)
        if key = .settings then readProgram value logLevel excess rest words
        else readProgram settingsPath value excess rest words
      | some (key, none) =>
        match rest, words with
        | .argument text :: rest, _ :: words => do
          let _ ← applyFlags false expansion.flags
          if key = .settings then readProgram (some text) logLevel excess rest words
          else readProgram settingsPath (some text) excess rest words
        | _, _ => .error .usage
  | _, _ => .error .usage

/-- What the words of a command line ask for. -/
def Invocation.ofWords (words : List String) : Except Stop Invocation :=
  match Options.classifyAll? programOptions words with
  | none => .error .usage
  | some classified => readProgram none none false classified words

end GuardedLogging.CommandLine
