import GuardedLogging.Document
import GuardedLogging.Text.Hex
import GuardedLogging.Yaml.Place
import GuardedLogging.Yaml.Plain

/-!
# Writing documents as YAML

Collections are written as indented blocks, empty ones as a pair of brackets. A sequence that is the value of a key stands at the column of the key. A text is written without quotes where it then denotes itself, else in single quotes, and in double quotes if it needs escapes. Only printable ASCII is written.

A line that is wider than 80 columns is broken at the next blank; the scalar goes on in a new line, indented by two more than the collection around it.
-/

namespace GuardedLogging.Yaml.Writer

def width : Nat := 80

def step : Nat := 2

/-- Keys of this length and longer ones are marked as keys. The tag of a key counts, though it is not written. -/
def keyBound : Nat := 128

/-- What is written so far, the last character first, and the column behind it. -/
structure Output where
  reversed : List Char := []
  column : Nat := 0

namespace Output

def write (output : Output) (text : List Char) : Output :=
  { reversed := text.reverse ++ output.reversed, column := output.column + text.length }

/-- Ends the line with the given line end. -/
def newLine (output : Output) (c : Char := '\n') : Output :=
  { reversed := c :: output.reversed, column := 0 }

/-- Fills the line with blanks up to a column. -/
def fillTo (output : Output) (column : Nat) : Output :=
  output.write (List.replicate (column - output.column) ' ')

/-- Goes to a column, in this line if it is a fresh one. -/
def goTo (output : Output) (fresh : Bool) (column : Nat) : Output :=
  (if fresh then output else output.newLine).fillTo column

def text (output : Output) : String := String.ofList output.reversed.reverse

end Output

/-- How a scalar is written. -/
inductive Style where
  | plain
  | single
  | double
deriving DecidableEq, Repr

/-- Line ends as scalars hold them. -/
def isLineEnd (c : Char) : Bool := isBreak c && c != '\r'

def isSpace (c : Char) : Bool := c == ' '

/-- Whether a character of the first kind stands right before one of the second kind. -/
def hasPair (first second : Char → Bool) : List Char → Bool
  | a :: b :: rest => (first a && second b) || hasPair first second (b :: rest)
  | _ => false

/-- Whether the first character would be read as structure. -/
def startsWithMark : List Char → Bool
  | [] => false
  | c :: rest =>
    "#,[]\x7b\x7d&*!|>'\"%@`".toList.contains c
      || ("?:-".toList.contains c && isSeparator (rest.headD '\x00'))

/-- Whether a later character would be read as structure. -/
def hasMarkInside : List Char → Bool
  | a :: b :: rest =>
    (b == ':' && isSeparator (rest.headD '\x00')) || (b == '#' && isSeparator a) || hasMarkInside (b :: rest)
  | _ => false

/-- Whether the text starts like a mark between documents. -/
def startsWithDocumentMark (text : List Char) : Bool :=
  ['-', '-', '-'].isPrefixOf text || ['.', '.', '.'].isPrefixOf text

/-- Whether the text can stand in single quotes: it needs no escapes, and no blank meets a line end. -/
def fitsSingleQuotes (text : List Char) : Bool :=
  text.all (fun c => c == '\n' || (' ' ≤ c && c ≤ '~'))
    && !hasPair isSpace isLineEnd text && !hasPair isLineEnd isSpace text

/-- Whether the text can stand without quotes, whatever it then denotes. -/
def fitsPlain (text : List Char) : Bool :=
  fitsSingleQuotes text && !text.any isLineEnd && !text.head?.any isSpace && !text.getLast?.any isSpace
    && !startsWithDocumentMark text && !startsWithMark text && !hasMarkInside text

def styleOf (text : String) : Style :=
  if denotesItself text && fitsPlain text.toList then .plain
  else if fitsSingleQuotes text.toList then .single
  else .double

/-- Writes a text without quotes. -/
def writePlain (split : Bool) (indent : Nat) : (previous : Char) → List Char → Output → Output
  | _, [], output => output
  | previous, c :: rest, output =>
    let alone := c == ' ' && previous != ' ' && rest.head? != some ' '
    let output := if alone && split && width < output.column then output.newLine.fillTo indent
      else output.write [c]
    writePlain split indent c rest output

/-- Writes the inside of single quotes. A line end is written twice unless another one stands before it. -/
def writeSingle (split : Bool) (indent : Nat) : (previous : Option Char) → List Char → Output → Output
  | _, [], output => output
  | previous, c :: rest, output =>
    let output :=
      if c == ' ' then
        let alone := previous.any (· != ' ') && rest.head?.any (· != ' ')
        if alone && split && width < output.column then output.newLine.fillTo indent else output.write [c]
      else if isLineEnd c then
        let output := if c == '\n' && !previous.any isLineEnd then output.newLine else output
        let output := output.newLine c
        if rest.head?.any isLineEnd then output else output.fillTo indent
      else if c == '\'' then output.write ['\'', '\'']
      else output.write [c]
    writeSingle split indent (some c) rest output

/-- The letters that stand for characters behind a backslash. -/
def escapes : List (Char × Char) :=
  [('\x00', '0'), ('\x07', 'a'), ('\x08', 'b'), ('\t', 't'), ('\n', 'n'), ('\x0b', 'v'), ('\x0c', 'f'),
    ('\r', 'r'), ('\x1b', 'e'), ('"', '"'), ('\\', '\\'), ('\x85', 'N'), ('\xa0', '_'), ('\u2028', 'L'),
    ('\u2029', 'P')]

/-- The escape of a character, if it needs one. -/
def escape? (c : Char) : Option (List Char) :=
  match escapes.lookup c with
  | some letter => some ['\\', letter]
  | none =>
    if ' ' ≤ c && c ≤ '~' then none
    else if c.toNat ≤ 0xff then some ('\\' :: 'x' :: Hex.upper 2 c.toNat)
    else if c.toNat ≤ 0xffff then some ('\\' :: 'u' :: Hex.upper 4 c.toNat)
    else some ('\\' :: 'U' :: Hex.upper 8 c.toNat)

/-- Breaks a line inside double quotes. A blank at the start of the next line is escaped. -/
def breakDouble (indent : Nat) (next : Option Char) (output : Output) : Output :=
  let output := ((output.write ['\\']).newLine).fillTo indent
  if next == some ' ' then output.write ['\\'] else output

/-- Writes the inside of double quotes. A line may be broken before a blank and around an escape, but not at either end. -/
def writeDouble (split : Bool) (indent : Nat) :
    (first afterEscape : Bool) → List Char → Output → Output
  | _, _, [], output => output
  | first, afterEscape, c :: rest, output =>
    let mayBreak := split && !first && !rest.isEmpty
    match escape? c with
    | some escaped =>
      let output := output.write escaped
      let output := if mayBreak && width + 1 < output.column then breakDouble indent rest.head? output else output
      writeDouble split indent false true rest output
    | none =>
      let breaks := mayBreak && (c == ' ' || afterEscape) && width < output.column
      let output := if breaks then breakDouble indent (some c) output else output
      writeDouble split indent false false rest (output.write [c])

/-- A real number; it always has a point. -/
def realText (value : Binary64) : String :=
  let layout : FloatLayout := { Scalar.realLayout with infinity := ".inf", notANumber := ".nan" }
  let (mantissa, exponent) := (layout.render value).toList.span (· != 'e')
  if exponent.isEmpty || mantissa.contains '.' then String.ofList (mantissa ++ exponent)
  else String.ofList (mantissa ++ ['.', '0'] ++ exponent)

/-- The text of a scalar that is no text itself. -/
def wordOf : Scalar → String
  | .null => "null"
  | .bool true => "true"
  | .bool false => "false"
  | .int value => toString value
  | .real value => realText value
  | .text value => value

def writeScalar (split : Bool) (indent : Nat) (value : Scalar) (output : Output) : Output :=
  match value with
  | .text text =>
    match styleOf text with
    | .plain => writePlain split indent ' ' text.toList output
    | .single => (writeSingle split indent none text.toList (output.write ['\''])).write ['\'']
    | .double => (writeDouble split indent true false text.toList (output.write ['"'])).write ['"']
  | other => output.write (wordOf other).toList

/-- The length of the short form of a tag. -/
def tagLength : Scalar → Nat
  | .null => 6
  | .bool _ => 6
  | .int _ => 5
  | .real _ => 7
  | .text _ => 5

/-- Whether a key can be written without a mark, on one line. -/
def isSimpleKey (key : Scalar) : Bool :=
  let text := (wordOf key).toList
  tagLength key + text.length < keyBound && !text.isEmpty && !text.any isLineEnd

mutual

/-- Writes a document behind the mark of an item, in a sequence that stands at the column. -/
def writeItem (column : Nat) (document : Document) (output : Output) : Output :=
  match document with
  | .scalar value => writeScalar true (column + step) value (output.write [' '])
  | .foreign value => output.write (' ' :: value.plain.toList)
  | .list [] => output.write " []".toList
  | .mapping [] => output.write " \x7b\x7d".toList
  | .list (item :: rest) => writeItems true (column + step) (item :: rest) output
  | .mapping (entry :: rest) => writeEntries true (column + step) (entry :: rest) output

/-- Writes the value of a key, in a mapping that stands at the column. -/
def writeValue (column : Nat) (document : Document) (output : Output) : Output :=
  match document with
  | .scalar value => writeScalar true (column + step) value (output.write [' '])
  | .foreign value => output.write (' ' :: value.plain.toList)
  | .list [] => output.write " []".toList
  | .mapping [] => output.write " \x7b\x7d".toList
  | .list (item :: rest) => writeItems false column (item :: rest) output
  | .mapping (entry :: rest) => writeEntries false (column + step) (entry :: rest) output

/-- Writes the items of a sequence, the first one in the same line if that is fresh. -/
def writeItems (fresh : Bool) (column : Nat) (items : List Document) (output : Output) : Output :=
  match items with
  | [] => output
  | item :: rest =>
    let output := writeItem column item ((output.goTo fresh column).write ['-'])
    writeItems false column rest output

/-- Writes the entries of a mapping, the first one in the same line if that is fresh. -/
def writeEntries (fresh : Bool) (column : Nat) (entries : List (Document.Key × Document)) (output : Output) :
    Output :=
  match entries with
  | [] => output
  | (key, value) :: rest =>
    let output := output.goTo fresh column
    let output :=
      match key with
      | .foreign key => writeValue column value ((output.write key.plain.toList).write [':'])
      | .scalar key =>
        if isSimpleKey key then
          writeValue column value ((writeScalar false (column + step) key output).write [':'])
        else
          let output := writeScalar true (column + step) key (output.write ['?', ' '])
          writeItem column value ((output.goTo false column).write [':'])
    writeEntries false column rest output

end

end GuardedLogging.Yaml.Writer

namespace GuardedLogging.Document

/-- A document as YAML. -/
def toYaml (document : Document) : String :=
  let output : Yaml.Writer.Output :=
    match document with
    | .scalar value => Yaml.Writer.writeScalar true Yaml.Writer.step value {}
    | .foreign value => ({} : Yaml.Writer.Output).write value.plain.toList
    | .list [] => ({} : Yaml.Writer.Output).write "[]".toList
    | .mapping [] => ({} : Yaml.Writer.Output).write "\x7b\x7d".toList
    | .list items => Yaml.Writer.writeItems true 0 items {}
    | .mapping entries => Yaml.Writer.writeEntries true 0 entries {}
  output.newLine.text

end GuardedLogging.Document
