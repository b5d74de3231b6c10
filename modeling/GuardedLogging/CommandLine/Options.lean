import GuardedLogging.Text.Digit

/-!
# Options and arguments

A word of a command line is an option or an argument. Options start with a dash; a long one may be cut short as long as no other option starts that way, and may carry its value behind an equals sign; a short one may carry its value, or another short option, right behind its letter. A word of two dashes makes arguments of all words behind it. A dash alone, a negative number, and a word with a blank that is no option are arguments.
-/

namespace GuardedLogging.CommandLine

/-- An option by its name, with what it stands for, and whether it needs a value. -/
structure OptionName (Key : Type) where
  name : String
  key : Key
  takesValue : Bool

/-- What a word holds behind the name of an option: a text behind an equals sign, or whatever is right behind a letter. -/
inductive Attachment where
  | assigned (value : List Char)
  | joined (rest : List Char)

/-- What a word is. -/
inductive Word (Key : Type) where
  | argument (text : String)
  /-- Two dashes. -/
  | separator
  | option (option : OptionName Key) (attached : Option Attachment)
  | unknown

/-- The options that a word stands for: those that need no value, and at last perhaps one that does, with its value if that is attached. Letters that are no option may be left over. -/
structure Expansion (Key : Type) where
  flags : List Key
  valued : Option (Key × Option (List Char)) := none
  isLeftOver : Bool := false

namespace Options

variable {Key : Type}

def find? (options : List (OptionName Key)) (name : List Char) : Option (OptionName Key) :=
  options.find? (·.name.toList == name)

/-- Splits at the first equals sign. -/
def splitEquals (word : List Char) : List Char × Option Attachment :=
  match word.span (· != '=') with
  | (name, []) => (name, none)
  | (name, _ :: value) => (name, some (.assigned value))

/-- The options that a word can mean which is not the name of one. -/
def candidates (options : List (OptionName Key)) (word : List Char) :
    List (OptionName Key × Option Attachment) :=
  match word with
  | '-' :: '-' :: _ =>
    let (start, attached) := splitEquals word
    (options.filter (start.isPrefixOf ·.name.toList)).map fun option => (option, attached)
  | _ =>
    options.filterMap fun option =>
      if option.name.toList == word.take 2 then some (option, some (.joined (word.drop 2)))
      else if word.isPrefixOf option.name.toList then some (option, none)
      else none

def isNegativeNumber (word : List Char) : Bool :=
  match word with
  | '-' :: digits =>
    match digits.span isDecimalDigit with
    | (_ :: _, []) => true
    | (_, '.' :: fraction) => !fraction.isEmpty && fraction.all isDecimalDigit
    | _ => false
  | _ => false

/-- What a word in front of a separator is; nothing if it is an ambiguous option. -/
def classify? (options : List (OptionName Key)) (text : String) : Option (Word Key) :=
  let word := text.toList
  if word.head? != some '-' then some (.argument text)
  else
    match find? options word with
    | some option => some (.option option none)
    | none =>
      if word.length = 1 then some (.argument text)
      else
        match splitEquals word with
        | (name, some value) =>
          match find? options name with
          | some option => some (.option option (some value))
          | none => guess word
        | _ => guess word
where
  guess (word : List Char) : Option (Word Key) :=
    match candidates options word with
    | [] =>
      if isNegativeNumber word || word.contains ' ' then some (.argument text) else some .unknown
    | [(option, attached)] => some (.option option attached)
    | _ => none

/-- What the words are; nothing if one is ambiguous. -/
def classifyAll? (options : List (OptionName Key)) : List String → Option (List (Word Key))
  | [] => some []
  | "--" :: rest => some (.separator :: rest.map .argument)
  | word :: rest => do return (← classify? options word) :: (← classifyAll? options rest)

/-- An option with its value, if that is known, or one that needs none. -/
def alone (option : OptionName Key) (value : Option (List Char)) : Expansion Key :=
  if option.takesValue then { flags := [], valued := some (option.key, value) }
  else { flags := [option.key] }

/-- What an option and the letters right behind it stand for; nothing if a value is attached to an option that takes none. -/
def cluster? (options : List (OptionName Key)) (option : OptionName Key) :
    List Char → Option (Expansion Key)
  | [] => none
  | letter :: rest =>
    if option.takesValue then some (alone option (some (letter :: rest)))
    else if letter == '-' then none
    else
      let behind (expansion : Expansion Key) : Expansion Key :=
        { expansion with flags := option.key :: expansion.flags }
      match find? options ['-', letter], rest with
      | none, _ => some { flags := [option.key], isLeftOver := true }
      | some next, [] => some (behind (alone next none))
      | some next, '=' :: value => if next.takesValue then some (behind (alone next (some value))) else none
      | some next, rest => (cluster? options next rest).map behind

/-- What an option of a word stands for; nothing if a value is attached to an option that takes none. -/
def expand? (options : List (OptionName Key)) (option : OptionName Key) (attached : Option Attachment) :
    Option (Expansion Key) :=
  match attached with
  | none => some (alone option none)
  | some (.assigned value) => if option.takesValue then some (alone option (some value)) else none
  | some (.joined rest) => cluster? options option rest

end Options

end GuardedLogging.CommandLine
