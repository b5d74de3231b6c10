import GuardedLogging.Files
import GuardedLogging.Yaml

/-!
# Settings

Settings are a mapping with four known keys, each of which may be left out. They come from a YAML file, whose path is given or else named by an environment variable; without a file everything has its default. Another environment variable overrides the log level.
-/

namespace GuardedLogging

structure Settings where
  classPath : List String := []
  skipSimple : Bool := false
  logLevel : String := "WARNING"
  /-- Where records are written besides the error output; null for nowhere. It is kept as given. -/
  logFile : Document := .null
deriving Repr

inductive SettingsError where
  | notAMapping
  /-- The unknown keys, in order, as messages show them. -/
  | unknownKeys (shown : List String)
  /-- Several unknown keys of kinds that have no common order. -/
  | unorderedKeys
  | classPath
  | skipSimple
  | file (path : String) (error : FileError)
  | yaml (path : String) (error : YamlError)
  | encoding (bytes : List UInt8) (error : Utf8.DecodeError)
deriving DecidableEq, Repr

namespace SettingsError

def missingFileMessage (path : String) : String := "Config file not found: " ++ path

/-- The text of an error, for those that the settings themselves are to blame for. -/
def message? : SettingsError → Option String
  | notAMapping => some "configuration must be a mapping"
  | unknownKeys shown => some ("Unknown configuration keys: [" ++ ", ".intercalate shown ++ "]")
  | unorderedKeys => none
  | classPath => some "'classpath' must be a list of type names"
  | skipSimple => some "'skip_simple_arguments' must be true or false"
  | file path .missing => some (missingFileMessage path)
  | file _ _ => none
  | yaml path (.malformed detail) => some ("Invalid YAML in " ++ path ++ ": " ++ detail)
  | yaml _ (.badValue message) => some message
  | yaml _ .breakdown => none
  | encoding bytes error => some (error.message bytes)

end SettingsError

namespace Settings

def knownKeys : List String := ["classpath", "skip_simple_arguments", "log_level", "log_file"]

/-- The environment variable that names the file. -/
def pathVariable : String := "LOGGUARD_CONFIG"

/-- The environment variable that overrides the log level, unless it is empty. -/
def levelVariable : String := "LOGGUARD_LOG_LEVEL"

/-- Keys in order, if any two of them have one. -/
def orderKeys? (keys : List Document.Key) : Option (List Document.Key) :=
  let areOrdered := keys.all fun left => keys.all fun right => (left.isLess? right).isSome
  if keys.length ≤ 1 || areOrdered then
    some (keys.mergeSort fun left right => right.isLess? left != some true)
  else none

def checkKeys (entries : List (Document.Key × Document)) : Except SettingsError Unit :=
  let isKnown (key : Document.Key) : Bool := key.text?.any knownKeys.contains
  let unknown := (entries.map (·.1)).filter (!isKnown ·)
  match unknown, orderKeys? unknown with
  | [], _ => .ok ()
  | _, some keys => .error (.unknownKeys (keys.map Document.Key.shown))
  | _, none => .error .unorderedKeys

/-- The names on the class path. Anything that counts as false stands for none. -/
def readClassPath (entries : List (Document.Key × Document)) : Except SettingsError (List String) :=
  let given := (Document.lookup entries "classpath").getD .null
  if !given.isTrue then .ok []
  else
    match given with
    | .list items =>
      let text? (item : Document) : Option String :=
        match item with
        | .scalar (.text name) => some name
        | _ => none
      match items.mapM text? with
      | some names => .ok names
      | none => .error .classPath
    | _ => .error .classPath

def readSkipSimple (entries : List (Document.Key × Document)) : Except SettingsError Bool :=
  match Document.lookup entries "skip_simple_arguments" with
  | none => .ok false
  | some (.scalar (.bool skip)) => .ok skip
  | some _ => .error .skipSimple

/-- The level as running text. Anything that counts as false stands for the default. -/
def readLogLevel (entries : List (Document.Key × Document)) : String :=
  let given := (Document.lookup entries "log_level").getD .null
  if given.isTrue then given.plain else ({} : Settings).logLevel

/-- The settings in a document; null stands for the defaults. -/
def ofDocument (document : Document) : Except SettingsError Settings :=
  match document with
  | .scalar .null => .ok {}
  | .mapping entries => do
    checkKeys entries
    let classPath ← readClassPath entries
    let skipSimple ← readSkipSimple entries
    return {
      classPath
      skipSimple
      logLevel := readLogLevel entries
      logFile := (Document.lookup entries "log_file").getD .null }
  | _ => .error .notAMapping

def ofFile (yaml : YamlLibrary) (read : FileReader) (path : String) : Except SettingsError Settings := do
  let bytes ← (read path).mapError (.file path)
  let text ← (textOfBytes bytes).mapError (.encoding bytes)
  let document ← (yaml.read text).mapError (.yaml path)
  ofDocument document

/-- An environment variable that is set to something. -/
def nonempty? (value : Option String) : Option String :=
  value.filter (!·.isEmpty)

/-- The settings in force for a path that may have been given, and an environment. -/
def load (yaml : YamlLibrary) (read : FileReader) (environment? : String → Option String)
    (path : Option String) : Except SettingsError Settings := do
  let path := path <|> nonempty? (environment? pathVariable)
  let settings ← match path with
    | some path => ofFile yaml read path
    | none => pure {}
  match nonempty? (environment? levelVariable) with
  | some level => return { settings with logLevel := level }
  | none => return settings

def visibleTypes (settings : Settings) : ClassPath := .ofList settings.classPath

end Settings

inductive ClassPathError where
  | yaml (error : YamlError)
  | notAList
deriving DecidableEq, Repr

namespace ClassPath

/-- The class path in a document: a list of names, or a mapping with such a list. -/
def ofDocument (document : Document) : Except ClassPathError ClassPath :=
  let names : Document := match document with
    | .scalar .null => .list []
    | .mapping entries => (Document.lookup entries "classpath").getD (.list [])
    | other => other
  match names with
  | .list items =>
    let text? (item : Document) : Option String :=
      match item with
      | .scalar (.text name) => some name
      | _ => none
    match items.mapM text? with
    | some names => .ok (.ofList names)
    | none => .error .notAList
  | _ => .error .notAList

def ofYaml (yaml : YamlLibrary) (text : String) : Except ClassPathError ClassPath := do
  ofDocument (← (yaml.read text).mapError .yaml)

def notAListMessage : String := "class path YAML must be a list of type names"

end ClassPath

end GuardedLogging
