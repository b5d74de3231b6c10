import GuardedLogging.Text.Hex
import GuardedLogging.Yaml.Place

/-!
# Scalars in a text

A scalar stands without quotes, in single or double quotes, or as a block of indented lines. Line ends inside a scalar are folded: a single one becomes a blank, and of several the first is dropped. Only a literal block keeps its lines.

Loops are bounded by the length of the rest of the text, since every turn takes a character.
-/

namespace GuardedLogging.Yaml

/-- The text of folded line ends: the first one, and the others. -/
def foldBreaks (first : Char) (others : List Char) : List Char :=
  if first != '\n' then first :: others else if others.isEmpty then [' '] else others

namespace PlainText

def isFlowMark (c : Char) : Bool := [',', '?', '[', ']', '\x7b', '\x7d'].contains c

/-- Whether a colon in front of the character ends a scalar. -/
def endsAfterColon (inFlow : Bool) (c : Char) : Bool :=
  isSeparator c || (inFlow && [',', '[', ']', '\x7b', '\x7d'].contains c)

/-- The length of the word at the front. -/
def wordLength (inFlow : Bool) : List Char → Nat
  | [] => 0
  | c :: rest =>
    if isSeparator c || (c == ':' && endsAfterColon inFlow (rest.headD '\x00')) || (inFlow && isFlowMark c) then 0
    else wordLength inFlow rest + 1

/-- The line ends and blanks after a line end; nothing if a mark between documents is reached. -/
def moreBreaks : (fuel : Nat) → Place → Option (List Char) × Place
  | 0, place => (some [], place)
  | fuel + 1, place =>
    if place.peek == ' ' then moreBreaks fuel place.next
    else
      match place.takeBreak? with
      | none => (some [], place)
      | some (c, place) =>
        if place.isDocumentMark then (none, place)
        else
          let (others, place) := moreBreaks fuel place
          (others.map (c :: ·), place)

/-- The gap between two words, the place after it, and whether it goes over a line end. -/
def takeGap (place : Place) : List Char × Place × Bool :=
  let (blanks, place) := place.takeWhile (· == ' ')
  match place.takeBreak? with
  | none => (blanks, place, false)
  | some (first, place) =>
    if place.isDocumentMark then ([], place, true)
    else
      let (others, place) := moreBreaks (place.rest.length + 1) place
      ((others.map (foldBreaks first)).getD [], place, true)

/-- The words of a scalar with the gaps between them, the place after the last gap, and whether that gap goes over a line end. -/
def takeWords (inFlow : Bool) (indent : Int) :
    (fuel : Nat) → (gap : List Char) → (overBreak : Bool) → Place → List Char × Place × Bool
  | 0, _, overBreak, place => ([], place, overBreak)
  | fuel + 1, gap, overBreak, place =>
    let length := wordLength inFlow place.rest
    if place.peek == '#' || length = 0 then ([], place, overBreak)
    else
      let word := place.rest.take length
      let (next, place, overBreak) := takeGap (place.advance length)
      if next.isEmpty || place.peek == '#' || (!inFlow && (place.column : Int) < indent) then
        (gap ++ word, place, overBreak)
      else
        let (others, place, overBreak) := takeWords inFlow indent fuel next overBreak place
        (gap ++ word ++ others, place, overBreak)

end PlainText

/-- A scalar without quotes, the place after it, and whether a line ended behind it. -/
def takePlain (inFlow : Bool) (indent : Int) (place : Place) : String × Place × Bool :=
  let (text, place, overBreak) := PlainText.takeWords inFlow indent (place.rest.length + 1) [] false place
  (String.ofList text, place, overBreak)

namespace QuotedText

/-- The characters that a letter behind a backslash stands for. -/
def escapes : List (Char × Char) :=
  [('0', '\x00'), ('a', '\x07'), ('b', '\x08'), ('t', '\t'), ('\t', '\t'), ('n', '\n'), ('v', '\x0b'),
    ('f', '\x0c'), ('r', '\r'), ('e', '\x1b'), (' ', ' '), ('"', '"'), ('\\', '\\'), ('/', '/'),
    ('N', '\x85'), ('_', '\xa0'), ('L', '\u2028'), ('P', '\u2029')]

/-- How many digits follow a letter that starts a code point. -/
def codeWidth? : Char → Option Nat
  | 'x' => some 2
  | 'u' => some 4
  | 'U' => some 8
  | _ => none

/-- A character by its code point, if there is one. -/
def charOf? (code : Nat) : Option Char :=
  if code.isValidChar then some (Char.ofNat code) else none

/-- The line ends at the starts of lines; no scalar goes over a mark between documents. -/
def takeBreaks : (fuel : Nat) → Place → Option (List Char × Place)
  | 0, place => some ([], place)
  | fuel + 1, place =>
    if place.isDocumentMark then none
    else
      let place := place.skipWhile isBlank
      match place.takeBreak? with
      | none => some ([], place)
      | some (c, place) => (takeBreaks fuel place).map fun (others, place) => (c :: others, place)

/-- Blanks and line ends; the scalar must not end with the text. -/
def takeSpace (place : Place) : Option (List Char × Place) := do
  let (blanks, place) := place.takeWhile isBlank
  if isEnd place.peek then none
  else
    match place.takeBreak? with
    | none => some (blanks, place)
    | some (first, place) =>
      let (others, place) ← takeBreaks (place.rest.length + 1) place
      some (foldBreaks first others, place)

/-- What a backslash and the characters behind it stand for. -/
def takeEscape (place : Place) : Option (List Char × Place) :=
  let c := place.peek
  match escapes.lookup c, codeWidth? c with
  | some meant, _ => some ([meant], place.next)
  | none, some width => do
    let digits := place.next.rest.take width
    let c ← charOf? (← Hex.read? digits)
    if digits.length = width then some ([c], place.next.advance width) else none
  | none, none => do
    let (_, place) ← place.takeBreak?
    takeBreaks (place.rest.length + 1) place

/-- The characters up to the closing quote, and the place behind it. -/
def takeInside (double : Bool) : (fuel : Nat) → Place → Option (List Char × Place)
  | 0, _ => none
  | fuel + 1, place => do
    let c := place.peek
    let isPair := !double && c == '\'' && place.peek 1 == '\''
    if c == (if double then '"' else '\'') && !isPair then some ([], place.next)
    else
      let (part, place) ←
        if isSeparator c then takeSpace place
        else if isPair then some ([c], place.advance 2)
        else if double && c == '\\' then takeEscape place.next
        else some ([c], place.next)
      let (others, place) ← takeInside double fuel place
      some (part ++ others, place)

end QuotedText

/-- A scalar in quotes, the first of which stands at the place, and the place behind the second. -/
def takeQuoted? (place : Place) : Option (String × Place) :=
  let double := place.peek == '"'
  (QuotedText.takeInside double (place.rest.length + 1) place.next).map fun (text, place) =>
    (String.ofList text, place)

namespace BlockText

/-- What becomes of the line ends behind the last line: all are dropped, one is kept, or all are kept. -/
inductive Chomping where
  | strip
  | clip
  | keep
deriving DecidableEq, Repr

structure Header where
  chomping : Chomping := .clip
  indentation : Option Nat := none

/-- The marks behind the sign of a block, each at most once. -/
def takeHeader? (place : Place) : Option (Header × Place) :=
  let chomping? (c : Char) : Option Chomping :=
    if c == '+' then some .keep else if c == '-' then some .strip else none
  let digit? (c : Char) : Option Nat := if c.isDigit then some (c.toNat - '0'.toNat) else none
  let front := place.peek
  let back := place.peek 1
  let (header, place) : Header × Place :=
    match chomping? front, digit? front with
    | some chomping, _ =>
      match digit? back with
      | some digit => (⟨chomping, some digit⟩, place.advance 2)
      | none => (⟨chomping, none⟩, place.next)
    | none, some digit =>
      match chomping? back with
      | some chomping => (⟨chomping, some digit⟩, place.advance 2)
      | none => (⟨.clip, some digit⟩, place.next)
    | none, none => ({}, place)
  if header.indentation == some 0 || !(place.peek == ' ' || isBreakOrEnd place.peek) then none
  else some (header, place)

/-- Skips blanks up to a column. -/
def skipIndent (indent : Nat) : (fuel : Nat) → Place → Place
  | 0, place => place
  | fuel + 1, place =>
    if place.column < indent && place.peek == ' ' then skipIndent indent fuel place.next else place

/-- The line ends of empty lines, each indented at most as far as the block. -/
def takeBreaks (indent : Nat) : (fuel : Nat) → Place → List Char × Place
  | 0, place => ([], place)
  | fuel + 1, place =>
    let place := skipIndent indent indent place
    match place.takeBreak? with
    | none => ([], place)
    | some (c, place) =>
      let (others, place) := takeBreaks indent fuel place
      (c :: others, place)

/-- The line ends in front of a block, and the greatest column that is reached in front of its text. -/
def takeLeadingBreaks : (fuel : Nat) → (greatest : Nat) → Place → List Char × Nat × Place
  | 0, greatest, place => ([], greatest, place)
  | fuel + 1, greatest, place =>
    if place.peek == ' ' then takeLeadingBreaks fuel (max greatest place.next.column) place.next
    else
      match place.takeBreak? with
      | none => ([], greatest, place)
      | some (c, place) =>
        let (others, greatest, place) := takeLeadingBreaks fuel greatest place
        (c :: others, greatest, place)

/-- The lines of a block, given the line ends in front of them. -/
def takeLines (folded : Bool) (chomping : Chomping) (indent : Nat) :
    (fuel : Nat) → (breaks : List Char) → Place → List Char × Place
  | 0, _, place => ([], place)
  | fuel + 1, breaks, place =>
    if place.column != indent || isEnd place.peek then
      (if chomping = .keep then breaks else [], place)
    else
      let startsBlank := isBlank place.peek
      let (line, place) := place.takeWhile (!isBreakOrEnd ·)
      let (ending, place) := match place.takeBreak? with
        | some (c, place) => ([c], place)
        | none => ([], place)
      let (following, place) := takeBreaks indent (place.rest.length + 1) place
      if place.column = indent && !isEnd place.peek then
        let folds := folded && ending == ['\n'] && !startsBlank && !isBlank place.peek
        let gap := if !folds then ending else if following.isEmpty then [' '] else []
        let (others, place) := takeLines folded chomping indent fuel following place
        (breaks ++ line ++ gap ++ others, place)
      else
        let tail := match chomping with
          | .strip => []
          | .clip => ending
          | .keep => ending ++ following
        (breaks ++ line ++ tail, place)

end BlockText

/-- A block, whose sign stands at the place, in a collection that is indented to a column. -/
def takeBlock? (folded : Bool) (indent : Int) (place : Place) : Option (String × Place) := do
  let (header, place) ← BlockText.takeHeader? place.next
  let place ← place.restOfLine?
  let least := (max 1 (indent + 1)).toNat
  let fuel := place.rest.length + 1
  let (breaks, indent, place) := match header.indentation with
    | some extra =>
      let indent := least + extra - 1
      let (breaks, place) := BlockText.takeBreaks indent fuel place
      (breaks, indent, place)
    | none =>
      let (breaks, greatest, place) := BlockText.takeLeadingBreaks fuel 0 place
      (breaks, max least greatest, place)
  let (text, place) := BlockText.takeLines folded header.chomping indent fuel breaks place
  some (String.ofList text, place)

end GuardedLogging.Yaml
