import GuardedLogging.Yaml.Plain
import GuardedLogging.Yaml.Token

/-!
# Nodes

A node is a scalar, a sequence or a mapping. A scalar without quotes and without a tag denotes what it looks like, one in quotes is a text, and a tag decides for itself. An alias stands for the node that its anchor marks, which must come first; within that node it stands for the node itself.

Every node takes tokens, but a missing one takes none; so the number of tokens, counted a few times each, bounds the turns of the reader.
-/

namespace GuardedLogging.Yaml

inductive Node where
  | scalar (meaning : PlainMeaning)
  | sequence (items : List Node)
  | mapping (entries : List (Node × Node))
  /-- A sequence of mappings with one entry each, which stand for pairs. -/
  | pairs (items : List Node)
  /-- A mapping of which only the keys count. -/
  | set (entries : List (Node × Node))
  /-- A node around this one, in the form in which messages show it. -/
  | enclosing (shown : String)
deriving Repr, Inhabited

namespace Node

/-- A missing node is null. -/
def empty : Node := scalar (.scalar .null)

/-- The names of tags whose handle is written `!!`. -/
def standardTags : String := "tag:yaml.org,2002:"

/-- The truth value of a word in any mixture of cases. -/
def boolOf? (text : String) : Option Bool :=
  let word := text.toLower
  if trueWords.contains word then some true
  else if falseWords.contains word then some false
  else none

/-- What a scalar with a tag denotes, if the tag is one of a scalar. -/
def taggedScalar? (tag text : String) : Option PlainMeaning :=
  let chars := text.toList
  let meaning? : Option PlainMeaning :=
    match String.ofList (tag.toList.drop standardTags.length) with
    | "str" => some (.scalar (.text text))
    | "null" => some (.scalar .null)
    | "bool" => some (((boolOf? text).map fun value => .scalar (.bool value)).getD (.failing .breakdown))
    | "int" =>
      match Numeral.baseWithoutDigits? chars, Numeral.integer? chars with
      | some base, _ => some (.failing (Numeral.faultOf base ""))
      | none, some number => some (.scalar (.int number))
      | none, none => some (.failing (if text.isEmpty then .breakdown else Numeral.faultOf 10 text))
    | "float" =>
      match Numeral.real? chars, Numeral.integer? chars with
      | some number, _ => some (.scalar (.real number))
      | none, some number => some (.scalar (.real (.ofInt number)))
      | none, none => some (.failing (.badValue ("could not convert string to float: " ++ quoted text)))
    | "timestamp" => some (((Timestamp.stamp? chars).map Timestamp.meaning).getD (.failing .breakdown))
    | "binary" =>
      match Bytes.value text with
      | .ok value => some (.foreign value)
      | .error error => some (.failing error)
    | "merge" => some .merge
    | "value" => some .defaultKey
    | _ => none
  if tag.startsWith standardTags then meaning? else none

/-- What a scalar denotes. The tag `!` alone asks to read it as if it had no quotes. -/
def scalarOf? (tag : Option String) (text : String) (plain : Bool) : Option Node :=
  match tag with
  | none => some (scalar (if plain then plainMeaning text else .scalar (.text text)))
  | some "!" => some (scalar (plainMeaning text))
  | some tag => (taggedScalar? tag text).map scalar

/-- A sequence with a tag, if the tag is one of a sequence. -/
def sequenceOf? (tag : Option String) (items : List Node) : Option Node :=
  if tag.isNone || tag == some "!" || tag == some (standardTags ++ "seq") then some (sequence items)
  else if tag == some (standardTags ++ "omap") || tag == some (standardTags ++ "pairs") then some (pairs items)
  else none

/-- A mapping with a tag, if the tag is one of a mapping. -/
def mappingOf? (tag : Option String) (entries : List (Node × Node)) : Option Node :=
  if tag.isNone || tag == some "!" || tag == some (standardTags ++ "map") then some (mapping entries)
  else if tag == some (standardTags ++ "set") then some (set entries)
  else none

/-- The anchors so far with their nodes, as far as these have been read. -/
abbrev Anchors := List (String × Node)

/-- The expansions of the handles of tags. -/
abbrev TagHandles := List (String × String)

def defaultHandles : TagHandles := [("!", "!"), ("!!", standardTags)]

/-- What has been read, and the tokens and anchors after it. -/
abbrev Reading (α : Type) := α × List Token × Anchors

/-- The anchor and the tag in front of a node, in either order. -/
def takeProperties (handles : TagHandles) (tokens : List Token) :
    Option (Option String × Option String × List Token) :=
  let expand? (handle : Option String) (name : String) : Option String :=
    match handle with
    | none => some name
    | some handle => (handles.lookup handle).map (· ++ name)
  match tokens with
  | .anchor name :: .tag handle tag :: rest => do return (some name, some (← expand? handle tag), rest)
  | .tag handle tag :: .anchor name :: rest => do return (some name, some (← expand? handle tag), rest)
  | .anchor name :: rest => some (some name, none, rest)
  | .tag handle tag :: rest => do return (none, some (← expand? handle tag), rest)
  | rest => some (none, none, rest)

/-- What the node in front of these tokens is within itself. -/
def withinItself : List Token → Node
  | .flowMappingStart :: _ => enclosing "\x7b...\x7d"
  | .blockMappingStart :: _ => enclosing "\x7b...\x7d"
  | _ => enclosing "[...]"

/-- Notes that an anchor has been met, in front of these tokens; no two nodes have the same one. -/
def openAnchor (anchors : Anchors) (tokens : List Token) : Option String → Option Anchors
  | none => some anchors
  | some name => if anchors.any (·.1 == name) then none else some ((name, withinItself tokens) :: anchors)

/-- Notes the node of an anchor. -/
def closeAnchor (anchors : Anchors) (node : Node) : Option String → Anchors
  | none => anchors
  | some name => (name, node) :: anchors.filter (·.1 != name)

def endsEntry : List Token → Bool
  | .key :: _ => true
  | .value :: _ => true
  | .blockEnd :: _ => true
  | _ => false

def endsItem : List Token → Bool
  | .blockEntry :: _ => true
  | .blockEnd :: _ => true
  | _ => false

/-- Where a node stands: in a flow collection, in a block, or as a part of a block mapping, in which a sequence need not be indented. -/
inductive Position where
  | flow
  | block
  | entry
deriving DecidableEq

mutual

def read (handles : TagHandles) : (fuel : Nat) → Position → List Token → Anchors → Option (Reading Node)
  | 0, _, _, _ => none
  | _, _, .alias name :: rest, anchors => do
    let node ← anchors.lookup name
    some (node, rest, anchors)
  | fuel + 1, position, tokens, anchors => do
    let (anchor, tag, tokens) ← takeProperties handles tokens
    let outer ← openAnchor anchors tokens anchor
    let (node, rest, inner) : Reading Node ←
      match tokens with
      | .scalar text plain :: rest => do some (← scalarOf? tag text plain, rest, outer)
      | .flowSequenceStart :: rest => do
        let (items, rest, inner) ← readFlowItems handles fuel true rest outer
        some (← sequenceOf? tag items, rest, inner)
      | .flowMappingStart :: rest => do
        let (entries, rest, inner) ← readFlowEntries handles fuel true rest outer
        some (← mappingOf? tag entries, rest, inner)
      | .blockSequenceStart :: rest =>
        if position = .flow then none
        else do
          let (items, rest, inner) ← readItems handles fuel rest outer
          some (← sequenceOf? tag items, rest, inner)
      | .blockMappingStart :: rest =>
        if position = .flow then none
        else do
          let (entries, rest, inner) ← readEntries handles fuel rest outer
          some (← mappingOf? tag entries, rest, inner)
      | .blockEntry :: _ =>
        if position = .entry then do
          let (items, rest, inner) ← readUnindentedItems handles fuel tokens outer
          some (← sequenceOf? tag items, rest, inner)
        else if anchor.isSome || tag.isSome then do some (← scalarOf? tag "" tag.isNone, tokens, outer)
        else none
      | tokens =>
        if anchor.isSome || tag.isSome then do some (← scalarOf? tag "" tag.isNone, tokens, outer)
        else none
    some (node, rest, closeAnchor inner node anchor)

/-- The items of an indented sequence, up to its end. -/
def readItems (handles : TagHandles) : (fuel : Nat) → List Token → Anchors → Option (Reading (List Node))
  | 0, _, _ => none
  | fuel + 1, .blockEntry :: rest, anchors => do
    let (item, rest, anchors) ←
      if endsItem rest then some (empty, rest, anchors) else read handles fuel .block rest anchors
    let (items, rest, anchors) ← readItems handles fuel rest anchors
    some (item :: items, rest, anchors)
  | _, .blockEnd :: rest, anchors => some ([], rest, anchors)
  | _, _, _ => none

/-- The items of a sequence that is not indented; anything else ends it. -/
def readUnindentedItems (handles : TagHandles) :
    (fuel : Nat) → List Token → Anchors → Option (Reading (List Node))
  | 0, _, _ => none
  | fuel + 1, .blockEntry :: rest, anchors => do
    let (item, rest, anchors) ←
      if endsItem rest || endsEntry rest then some (empty, rest, anchors)
      else read handles fuel .block rest anchors
    let (items, rest, anchors) ← readUnindentedItems handles fuel rest anchors
    some (item :: items, rest, anchors)
  | _, tokens, anchors => some ([], tokens, anchors)

/-- A key or value behind its mark, which is missing if the next mark follows. -/
def readPart (handles : TagHandles) : (fuel : Nat) → List Token → Anchors → Option (Reading Node)
  | 0, _, _ => none
  | fuel + 1, tokens, anchors =>
    if endsEntry tokens then some (empty, tokens, anchors) else read handles fuel .entry tokens anchors

/-- The entries of a block mapping, up to its end. -/
def readEntries (handles : TagHandles) :
    (fuel : Nat) → List Token → Anchors → Option (Reading (List (Node × Node)))
  | 0, _, _ => none
  | _, .blockEnd :: rest, anchors => some ([], rest, anchors)
  | fuel + 1, .key :: rest, anchors => do
    let (key, rest, anchors) ← readPart handles fuel rest anchors
    let (value, rest, anchors) ←
      match rest with
      | .value :: rest => readPart handles fuel rest anchors
      | rest => some (empty, rest, anchors)
    let (entries, rest, anchors) ← readEntries handles fuel rest anchors
    some ((key, value) :: entries, rest, anchors)
  | _, _, _ => none

/-- A key or value in a flow collection, which is missing if a mark or the end follows. -/
def readFlowPart (handles : TagHandles) (close : Token) (atValue : Bool) :
    (fuel : Nat) → List Token → Anchors → Option (Reading Node)
  | 0, _, _ => none
  | fuel + 1, tokens, anchors =>
    match tokens with
    | .flowEntry :: _ => some (empty, tokens, anchors)
    | token :: _ =>
      if token = close || (atValue && token = .value) then some (empty, tokens, anchors)
      else read handles fuel .flow tokens anchors
    | [] => none

/-- A key behind its mark, and the value behind a colon, if there is one. -/
def readFlowPair (handles : TagHandles) (close : Token) :
    (fuel : Nat) → List Token → Anchors → Option (Reading (Node × Node))
  | 0, _, _ => none
  | fuel + 1, tokens, anchors => do
    let (key, rest, anchors) ← readFlowPart handles close true fuel tokens anchors
    let (value, rest, anchors) ←
      match rest with
      | .value :: rest => readFlowPart handles close false fuel rest anchors
      | rest => some (empty, rest, anchors)
    some ((key, value), rest, anchors)

/-- The items of a flow sequence. A single pair may stand for a mapping. -/
def readFlowItems (handles : TagHandles) :
    (fuel : Nat) → (first : Bool) → List Token → Anchors → Option (Reading (List Node))
  | 0, _, _, _ => none
  | _, _, .flowSequenceEnd :: rest, anchors => some ([], rest, anchors)
  | fuel + 1, first, tokens, anchors => do
    let tokens ← match first, tokens with
      | true, tokens => some tokens
      | false, .flowEntry :: rest => some rest
      | false, _ => none
    match tokens with
    | .flowSequenceEnd :: rest => some ([], rest, anchors)
    | .key :: rest =>
      let (pair, rest, anchors) ← readFlowPair handles .flowSequenceEnd fuel rest anchors
      let (items, rest, anchors) ← readFlowItems handles fuel false rest anchors
      some (mapping [pair] :: items, rest, anchors)
    | tokens =>
      let (item, rest, anchors) ← read handles fuel .flow tokens anchors
      let (items, rest, anchors) ← readFlowItems handles fuel false rest anchors
      some (item :: items, rest, anchors)

/-- The entries of a flow mapping. A value may be missing. -/
def readFlowEntries (handles : TagHandles) :
    (fuel : Nat) → (first : Bool) → List Token → Anchors → Option (Reading (List (Node × Node)))
  | 0, _, _, _ => none
  | _, _, .flowMappingEnd :: rest, anchors => some ([], rest, anchors)
  | fuel + 1, first, tokens, anchors => do
    let tokens ← match first, tokens with
      | true, tokens => some tokens
      | false, .flowEntry :: rest => some rest
      | false, _ => none
    match tokens with
    | .flowMappingEnd :: rest => some ([], rest, anchors)
    | .key :: rest =>
      let (pair, rest, anchors) ← readFlowPair handles .flowMappingEnd fuel rest anchors
      let (entries, rest, anchors) ← readFlowEntries handles fuel false rest anchors
      some (pair :: entries, rest, anchors)
    | tokens =>
      let (key, rest, anchors) ← read handles fuel .flow tokens anchors
      let (entries, rest, anchors) ← readFlowEntries handles fuel false rest anchors
      some ((key, empty) :: entries, rest, anchors)

end

/-- The directives in front of a document: at most one version, which must be 1, and handles, each at most once. -/
def takeDirectives : (versioned : Bool) → TagHandles → List Token → Option (TagHandles × List Token)
  | versioned, handles, .version major :: rest =>
    if versioned || major != 1 then none else takeDirectives true handles rest
  | versioned, handles, .tagHandle handle expansion :: rest =>
    if handles.any (·.1 == handle) then none
    else takeDirectives versioned ((handle, expansion) :: handles) rest
  | versioned, handles, .directive :: rest => takeDirectives versioned handles rest
  | _, handles, rest => some (handles, rest)

/-- Drops the end marks of documents. -/
def dropEnds (tokens : List Token) : List Token :=
  tokens.dropWhile (· == .documentEnd)

/-- The document behind its start mark; it may be empty. -/
def readExplicit (tokens : List Token) : Option (Node × List Token) := do
  let (own, tokens) ← takeDirectives false [] tokens
  match tokens with
  | .documentStart :: rest =>
    let isEmpty := match rest with
      | [] => true
      | .version _ :: _ => true
      | .tagHandle _ _ :: _ => true
      | .directive :: _ => true
      | .documentStart :: _ => true
      | .documentEnd :: _ => true
      | _ => false
    if isEmpty then some (empty, rest)
    else
      let (node, rest, _) ← read (own ++ defaultHandles) (8 * rest.length + 8) .block rest []
      some (node, rest)
  | _ => none

/-- The node of the only document of a text. A text without a document has none. -/
def ofTokens? (tokens : List Token) : Option (Option Node) := do
  let startsExplicitly := match tokens with
    | [] => true
    | .version _ :: _ => true
    | .tagHandle _ _ :: _ => true
    | .directive :: _ => true
    | .documentStart :: _ => true
    | _ => false
  if startsExplicitly then
    if tokens.isEmpty then some none
    else
      let (node, rest) ← readExplicit tokens
      if (dropEnds rest).isEmpty then some (some node) else none
  else
    let (node, rest, _) ← read defaultHandles (8 * tokens.length + 8) .block tokens []
    if (dropEnds rest).isEmpty then some (some node) else none

end Node

end GuardedLogging.Yaml
