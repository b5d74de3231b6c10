/-!
# Places in a text

Indentation carries meaning, so a reader keeps its line and its column. The end of a text shows as the character with code zero, which no text contains.
-/

namespace GuardedLogging.Yaml

/-- Characters that end a line. -/
def isBreak (c : Char) : Bool :=
  c == '\r' || c == '\n' || c == '\x85' || c == '\u2028' || c == '\u2029'

def isEnd (c : Char) : Bool := c == '\x00'

def isBreakOrEnd (c : Char) : Bool := isBreak c || isEnd c

/-- Characters that separate tokens: blanks, line ends and the end of the text. -/
def isSeparator (c : Char) : Bool := c == ' ' || c == '\t' || isBreakOrEnd c

def isBlank (c : Char) : Bool := c == ' ' || c == '\t'

/-- The mark that may stand at the very start of a text and takes no column. -/
def byteOrderMark : Char := '\ufeff'

/-- Whether a text may hold the character at all. -/
def isAllowed (c : Char) : Bool :=
  c == '\t' || c == '\n' || c == '\r' || (' ' ≤ c && c ≤ '~') || c == '\x85'
    || ('\xa0' ≤ c && c ≤ '\ufffd') || 0x10000 ≤ c.toNat

/-- The rest of a text and where it starts. -/
structure Place where
  rest : List Char
  index : Nat := 0
  line : Nat := 0
  column : Nat := 0
deriving Repr, Inhabited

namespace Place

/-- The character `offset` places on. -/
def peek (place : Place) (offset : Nat := 0) : Char :=
  (place.rest.drop offset).headD '\x00'

/-- The place after the next character. A carriage return ends a line only if no line feed follows. -/
def next (place : Place) : Place :=
  match place.rest with
  | [] => place
  | c :: rest =>
    let place := { place with rest, index := place.index + 1 }
    if isBreak c && !(c == '\r' && rest.head? == some '\n') then
      { place with line := place.line + 1, column := 0 }
    else if c == byteOrderMark then place
    else { place with column := place.column + 1 }

def advance (place : Place) : (count : Nat) → Place
  | 0 => place
  | count + 1 => place.next.advance count

/-- Splits off the longest part whose characters all satisfy `p`. -/
def takeWhile (place : Place) (p : Char → Bool) : List Char × Place :=
  let taken := place.rest.takeWhile p
  (taken, place.advance taken.length)

def skipWhile (place : Place) (p : Char → Bool) : Place :=
  (place.takeWhile p).2

/-- Splits off a line end, if the text continues with one, in the form in which scalars keep it. -/
def takeBreak? (place : Place) : Option (Char × Place) :=
  let c := place.peek
  if c == '\r' && place.peek 1 == '\n' then some ('\n', place.advance 2)
  else if c == '\u2028' || c == '\u2029' then some (c, place.next)
  else if isBreak c then some ('\n', place.next)
  else none

/-- Whether one of the marks between documents stands here. -/
def isDocumentMark (place : Place) : Bool :=
  let front := place.rest.take 3
  (front == ['-', '-', '-'] || front == ['.', '.', '.']) && isSeparator (place.peek 3)

/-- Skips blanks and a comment, up to the end of the line. -/
def skipComment (place : Place) : Place :=
  let place := place.skipWhile (· == ' ')
  if place.peek == '#' then place.skipWhile (!isBreakOrEnd ·) else place

/-- The next line, if nothing but blanks and a comment stand before it. -/
def restOfLine? (place : Place) : Option Place :=
  let place := place.skipComment
  if isEnd place.peek then some place else place.takeBreak?.map (·.2)

end Place

end GuardedLogging.Yaml
