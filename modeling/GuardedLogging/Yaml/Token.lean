import GuardedLogging.Yaml.ScalarText

/-!
# Tokens

Indentation and line ends are structure, and the reader of tokens turns them into tokens of their own. A mapping is known by its colons, so the start of a mapping and the mark of a key are put in front of a key only when the colon behind it is found. A key that has no mark of its own stands on one line and takes up to 1024 characters.
-/

namespace GuardedLogging.Yaml

inductive Token where
  | version (major : Nat)
  | tagHandle (handle expansion : String)
  /-- A directive that means nothing. -/
  | directive
  | documentStart
  | documentEnd
  | blockSequenceStart
  | blockMappingStart
  | blockEnd
  | flowSequenceStart
  | flowSequenceEnd
  | flowMappingStart
  | flowMappingEnd
  | blockEntry
  | flowEntry
  | key
  | value
  | alias (name : String)
  | anchor (name : String)
  /-- A tag, by a handle that a directive expands, if there is one, and the rest of its name. -/
  | tag (handle : Option String) (name : String)
  | scalar (text : String) (plain : Bool)
deriving DecidableEq, Repr, Inhabited

/-- A place where a key may have started: the number of tokens before it, and whether nothing but a key may stand there. -/
structure KeyStart where
  tokenCount : Nat
  place : Place
  required : Bool

structure Scanner where
  place : Place
  tokens : Array Token := #[]
  flowLevel : Nat := 0
  /-- The column of the innermost block collection, and those of the others around it. -/
  indent : Int := -1
  outerIndents : List Int := []
  keyAllowed : Bool := true
  /-- The possible keys, by flow level. -/
  keyStarts : List (Nat × KeyStart) := []

namespace Scanner

def inFlow (scanner : Scanner) : Bool := scanner.flowLevel != 0

def push (scanner : Scanner) (token : Token) : Scanner :=
  { scanner with tokens := scanner.tokens.push token }

/-- Forgets the possible key of this flow level, which must not be a required one. -/
def dropKeyStart (scanner : Scanner) : Option Scanner :=
  match scanner.keyStarts.lookup scanner.flowLevel with
  | some start =>
    if start.required then none
    else some { scanner with keyStarts := scanner.keyStarts.filter (·.1 != scanner.flowLevel) }
  | none => some scanner

/-- Forgets the possible keys that are too far back. -/
def dropStaleKeyStarts (scanner : Scanner) : Option Scanner :=
  let isStale (start : KeyStart) : Bool :=
    start.place.line != scanner.place.line || start.place.index + 1024 < scanner.place.index
  if scanner.keyStarts.any fun entry => isStale entry.2 && entry.2.required then none
  else some { scanner with keyStarts := scanner.keyStarts.filter (!isStale ·.2) }

/-- Notes that a key may start here. -/
def saveKeyStart (scanner : Scanner) : Option Scanner :=
  if scanner.keyAllowed then do
    let start : KeyStart :=
      { tokenCount := scanner.tokens.size
        place := scanner.place
        required := !scanner.inFlow && scanner.indent == scanner.place.column }
    let scanner ← scanner.dropKeyStart
    return { scanner with keyStarts := (scanner.flowLevel, start) :: scanner.keyStarts }
  else some scanner

/-- Ends the block collections that are indented further than a column. -/
def unwindFrom (column : Int) : List Int → Int → Array Token → List Int × Int × Array Token
  | [], indent, tokens => ([], indent, tokens)
  | outer :: outers, indent, tokens =>
    if column < indent then unwindFrom column outers outer (tokens.push .blockEnd)
    else (outer :: outers, indent, tokens)

def unwind (scanner : Scanner) (column : Int) : Scanner :=
  if scanner.inFlow then scanner
  else
    let (outerIndents, indent, tokens) := unwindFrom column scanner.outerIndents scanner.indent scanner.tokens
    { scanner with outerIndents, indent, tokens }

/-- Starts a block collection at a column, unless one is there; its token comes after `position` others. -/
def openBlock (scanner : Scanner) (column : Nat) (position : Nat) (token : Token) : Scanner :=
  if scanner.indent < column then
    { scanner with
      outerIndents := scanner.indent :: scanner.outerIndents
      indent := column
      tokens := scanner.tokens.insertIdxIfInBounds position token }
  else scanner

/-- Takes `count` characters as a token. -/
def take (scanner : Scanner) (count : Nat) (token : Token) : Scanner :=
  { scanner with place := scanner.place.advance count, tokens := scanner.tokens.push token }

/-- Skips blanks, comments and line ends. Outside of flow collections a key may start on a new line. -/
def skipToToken : (fuel : Nat) → Scanner → Scanner
  | 0, scanner => scanner
  | fuel + 1, scanner =>
    let place := scanner.place.skipComment
    match place.takeBreak? with
    | some (_, place) =>
      skipToToken fuel { scanner with place, keyAllowed := scanner.keyAllowed || !scanner.inFlow }
    | none => { scanner with place }

def isNameChar (c : Char) : Bool := c.isAlphanum || c == '-' || c == '_'

/-- Takes the name of an anchor or alias behind its sign. -/
def takeName? (place : Place) : Option (String × Place) :=
  let (name, place) := place.takeWhile isNameChar
  let ends := isSeparator place.peek || ['?', ':', ',', ']', '\x7d', '%', '@', '`'].contains place.peek
  if name.isEmpty || !ends then none else some (String.ofList name, place)

def isTagChar (c : Char) : Bool :=
  isNameChar c || ";/?:@&=+$,.!~*'()[]%".toList.contains c

/-- The characters that pairs of hexadecimal digits behind percent signs encode. -/
def unescapeTag : (fuel : Nat) → List Char → Option (List UInt8)
  | _, [] => some []
  | 0, _ => none
  | fuel + 1, '%' :: high :: low :: rest => do
    let code ← Hex.read? [high, low]
    return UInt8.ofNat code :: (← unescapeTag fuel rest)
  | _, ['%'] => none
  | _, ['%', _] => none
  | fuel + 1, c :: rest => do return c.toString.toUTF8.toList ++ (← unescapeTag fuel rest)

/-- Takes the rest of the name of a tag, which is not empty. -/
def takeTagName? (place : Place) : Option (String × Place) := do
  let (name, place) := place.takeWhile isTagChar
  let bytes ← unescapeTag (name.length + 1) name
  let text ← String.fromUTF8? ⟨bytes.toArray⟩
  if name.isEmpty then none else some (text, place)

/-- Takes a handle: an exclamation mark, or a name between two. -/
def takeHandle? (place : Place) : Option (String × Place) :=
  if place.peek != '!' then none
  else if place.peek 1 == ' ' then some ("!", place.next)
  else
    let (name, after) := place.next.takeWhile isNameChar
    if after.peek == '!' then some ("!" ++ String.ofList name ++ "!", after.next) else none

/-- Whether an exclamation mark stands in the word behind the first character. -/
def hasHandle (place : Place) : Bool :=
  ((place.rest.drop 1).takeWhile fun c => !(c == ' ' || isBreakOrEnd c)).contains '!'

/-- Takes a tag, of which the first exclamation mark stands at the place. -/
def takeTag? (place : Place) : Option (Token × Place) := do
  let (token, place) ←
    if place.peek 1 == '<' then do
      let (name, place) ← takeTagName? (place.advance 2)
      if place.peek == '>' then some (Token.tag none name, place.next) else none
    else if isSeparator (place.peek 1) then some (.tag none "!", place.next)
    else do
      let (handle, place) ← if hasHandle place then takeHandle? place else some ("!", place.next)
      let (name, place) ← takeTagName? place
      some (.tag (some handle) name, place)
  if place.peek == ' ' || isBreakOrEnd place.peek then some (token, place) else none

/-- Takes a natural number. -/
def takeNumber? (place : Place) : Option (Nat × Place) :=
  let (digits, place) := place.takeWhile Char.isDigit
  if digits.isEmpty then none
  else some (digits.foldl (fun number c => number * 10 + (c.toNat - '0'.toNat)) 0, place)

/-- Takes a directive with its line; the percent sign stands at the place. -/
def takeDirective? (place : Place) : Option (Token × Place) := do
  let endsWord (place : Place) : Bool := place.peek == ' ' || isBreakOrEnd place.peek
  let (name, place) := place.next.takeWhile isNameChar
  if name.isEmpty || !endsWord place then none
  let (token, place) ←
    match String.ofList name with
    | "YAML" => do
      let (major, place) ← takeNumber? (place.skipWhile (· == ' '))
      if place.peek != '.' then none
      let (_, place) ← takeNumber? place.next
      if endsWord place then some (Token.version major, place) else none
    | "TAG" => do
      let (handle, place) ← takeHandle? (place.skipWhile (· == ' '))
      if place.peek != ' ' then none
      let (expansion, place) ← takeTagName? (place.skipWhile (· == ' '))
      if endsWord place then some (.tagHandle handle expansion, place) else none
    | _ => some (.directive, place.skipWhile (!isBreakOrEnd ·))
  some (token, ← place.restOfLine?)

/-- Ends all block collections, as the marks of documents and directives do. -/
def leaveDocument (scanner : Scanner) : Option Scanner := do
  let scanner ← (scanner.unwind (-1)).dropKeyStart
  return { scanner with keyAllowed := false }

def fetchFlowStart (scanner : Scanner) (token : Token) : Option Scanner := do
  let scanner ← scanner.saveKeyStart
  return { scanner with flowLevel := scanner.flowLevel + 1, keyAllowed := true }.take 1 token

def fetchFlowEnd (scanner : Scanner) (token : Token) : Option Scanner := do
  let scanner ← scanner.dropKeyStart
  if scanner.inFlow then
    return { scanner with flowLevel := scanner.flowLevel - 1, keyAllowed := false }.take 1 token
  else none

/-- The mark of an entry or key in a block collection, which starts the collection if it is the first one. -/
def fetchBlockMark (scanner : Scanner) (start token : Token) (keyAllowed : Bool) : Option Scanner := do
  if !scanner.inFlow && !scanner.keyAllowed then none
  let opened := if scanner.inFlow then scanner
    else scanner.openBlock scanner.place.column scanner.tokens.size start
  let scanner ← { opened with keyAllowed }.dropKeyStart
  return scanner.take 1 token

/-- The colon behind a key. If the key had no mark, it gets one now. -/
def fetchValue (scanner : Scanner) : Option Scanner :=
  match scanner.keyStarts.lookup scanner.flowLevel with
  | some start =>
    let marked := { scanner with
      keyStarts := scanner.keyStarts.filter (·.1 != scanner.flowLevel)
      tokens := scanner.tokens.insertIdxIfInBounds start.tokenCount .key
      keyAllowed := false }
    let opened := if marked.inFlow then marked
      else marked.openBlock start.place.column start.tokenCount .blockMappingStart
    some (opened.take 1 .value)
  | none => scanner.fetchBlockMark .blockMappingStart .value !scanner.inFlow

/-- A token that may start a key, and after which no other key may start. -/
def fetchContent (scanner : Scanner) (taken? : Option (Token × Place)) : Option Scanner := do
  let scanner ← scanner.saveKeyStart
  let (token, place) ← taken?
  return { scanner with place, keyAllowed := false }.push token

def fetchPlain (scanner : Scanner) : Option Scanner := do
  let scanner ← scanner.saveKeyStart
  let (text, place, overBreak) := takePlain scanner.inFlow (scanner.indent + 1) scanner.place
  return { scanner with place, keyAllowed := overBreak }.push (.scalar text true)

def fetchBlockText (scanner : Scanner) (folded : Bool) : Option Scanner := do
  let scanner ← { scanner with keyAllowed := true }.dropKeyStart
  let (text, place) ← takeBlock? folded scanner.indent scanner.place
  return { scanner with place }.push (.scalar text false)

/-- Whether a scalar without quotes can start here. -/
def startsPlain (scanner : Scanner) : Bool :=
  let c := scanner.place.peek
  !(isSeparator c || "-?:,[]\x7b\x7d#&*!|>'\"%@`".toList.contains c)
    || (!isSeparator (scanner.place.peek 1) && (c == '-' || (!scanner.inFlow && (c == '?' || c == ':'))))

/-- Takes the next token; blanks in front of it have been skipped and the text is not at its end. -/
def fetch (scanner : Scanner) : Option Scanner :=
  let place := scanner.place
  let marksBlock := isSeparator (place.peek 1)
  let marksKey := scanner.inFlow || marksBlock
  let atMargin := place.column = 0
  let isMark := atMargin && place.isDocumentMark
  match place.peek with
  | '%' =>
    if atMargin then do
      let scanner ← scanner.leaveDocument
      let (token, place) ← takeDirective? place
      return { scanner with place }.push token
    else none
  | '[' => scanner.fetchFlowStart .flowSequenceStart
  | '\x7b' => scanner.fetchFlowStart .flowMappingStart
  | ']' => scanner.fetchFlowEnd .flowSequenceEnd
  | '\x7d' => scanner.fetchFlowEnd .flowMappingEnd
  | ',' => do
    let scanner ← { scanner with keyAllowed := true }.dropKeyStart
    return scanner.take 1 .flowEntry
  | '*' => scanner.fetchContent ((takeName? place.next).map fun (name, place) => (.alias name, place))
  | '&' => scanner.fetchContent ((takeName? place.next).map fun (name, place) => (.anchor name, place))
  | '!' => scanner.fetchContent (takeTag? place)
  | '\'' => scanner.fetchContent ((takeQuoted? place).map fun (text, place) => (.scalar text false, place))
  | '"' => scanner.fetchContent ((takeQuoted? place).map fun (text, place) => (.scalar text false, place))
  | c =>
    if isMark then do
      let scanner ← scanner.leaveDocument
      return scanner.take 3 (if c == '-' then .documentStart else .documentEnd)
    else if c == '-' && marksBlock then scanner.fetchBlockMark .blockSequenceStart .blockEntry true
    else if c == '?' && marksKey then scanner.fetchBlockMark .blockMappingStart .key !scanner.inFlow
    else if c == ':' && marksKey then scanner.fetchValue
    else if (c == '|' || c == '>') && !scanner.inFlow then scanner.fetchBlockText (c == '>')
    else if scanner.startsPlain then scanner.fetchPlain
    else none

/-- Takes all tokens. Every turn takes a character, so the length of the text bounds the turns. -/
def fetchAll : (fuel : Nat) → Scanner → Option Scanner
  | 0, _ => none
  | fuel + 1, scanner => do
    let scanner ← (skipToToken (scanner.place.rest.length + 1) scanner).dropStaleKeyStarts
    let scanner := scanner.unwind scanner.place.column
    if scanner.place.rest.isEmpty then scanner.leaveDocument else fetchAll fuel (← scanner.fetch)

end Scanner

/-- The tokens of a text; nothing if the text has none. -/
def tokens? (text : String) : Option (List Token) := do
  let chars := text.toList
  if chars.all isAllowed then
    let start : Place := { rest := chars }
    let start := if start.peek == byteOrderMark then start.next else start
    let scanner ← Scanner.fetchAll (chars.length + 1) { place := start }
    return scanner.tokens.toList
  else none

end GuardedLogging.Yaml
