import GuardedLogging.Document
import GuardedLogging.Step

/-!
# Documents read from JSON

Besides what JSON defines, the numbers `NaN`, `Infinity` and `-Infinity` are accepted. A key that is written twice keeps its first place and its last value. A text is one document or nothing: the reader gives no reasons.
-/

namespace GuardedLogging

namespace Document

namespace Json

def isBlank (c : Char) : Bool :=
  c == ' ' || c == '\t' || c == '\n' || c == '\r'

/-- The character of an escape of one letter. -/
def escaped? : Char → Option Char
  | '"' => some '"'
  | '\\' => some '\\'
  | '/' => some '/'
  | 'b' => some '\x08'
  | 'f' => some '\x0c'
  | 'n' => some '\n'
  | 'r' => some '\r'
  | 't' => some '\t'
  | _ => none

/-- Reads the four digits of a code unit. -/
def takeUnit? (input : List Char) : Option (Step Char Nat input.length) :=
  match input with
  | a :: b :: c :: d :: rest => (Hex.read? [a, b, c, d]).map fun unit => ⟨unit, rest, by simp only [List.length_cons]; omega⟩
  | _ => none

/-- Reads what follows a backslash: a letter, or one or two code units that give a character. -/
def takeEscape? (input : List Char) : Option (Step Char Char input.length) :=
  match input with
  | 'u' :: digits => do
    let unit ← takeUnit? digits
    have hunit := unit.shorter
    if 0xD800 ≤ unit.value ∧ unit.value < 0xDC00 then
      match h : unit.rest with
      | '\\' :: 'u' :: digits' =>
        let low ← takeUnit? digits'
        if 0xDC00 ≤ low.value ∧ low.value < 0xE000 then
          some ⟨Char.ofNat (0x10000 + (unit.value - 0xD800) * 0x400 + (low.value - 0xDC00)), low.rest, by
            have := low.shorter; simp [h] at hunit; simp only [List.length_cons]; omega⟩
        else none
      | _ => none
    else
      some ⟨Char.ofNat unit.value, unit.rest, Nat.lt_succ_of_lt hunit⟩
  | c :: rest => (escaped? c).map fun c => (.next c rest)
  | [] => none

/-- Reads one character of a text, which must not be a control character. -/
def takeChar? (input : List Char) : Option (Step Char Char input.length) :=
  match input with
  | '\\' :: rest => (takeEscape? rest).map (·.optional)
  | c :: rest => if c < ' ' then none else some (.next c rest)
  | [] => none

/-- Reads the rest of a text up to its closing quote. -/
def readText (input : List Char) : Option (Step Char (List Char) input.length) :=
  match input with
  | [] => none
  | '"' :: rest => some (.next [] rest)
  | c :: rest => do
    let first ← takeChar? (c :: rest)
    have : first.rest.length < rest.length + 1 := first.shorter
    let others ← readText first.rest
    some ⟨first.value :: others.value, others.rest, Nat.lt_trans others.shorter this⟩
termination_by input.length

/-- The parts of a number: digits before the point, digits after it, and the exponent. -/
structure Numeral where
  whole : List Char
  fraction : Option (List Char)
  exponent : Option Int

def Numeral.scalar (numeral : Numeral) (negative : Bool) : Scalar :=
  let number (digits : List Char) := digits.foldl (fun n c => n * 10 + (c.toNat - '0'.toNat)) 0
  match numeral.fraction, numeral.exponent with
  | none, none =>
    let value : Int := number numeral.whole
    .int (if negative then -value else value)
  | fraction, exponent =>
    let fraction := fraction.getD []
    .real (.ofDecimal negative (number (numeral.whole ++ fraction))
      (exponent.getD 0 - fraction.length))

/-- Reads at least one digit. -/
def takeDigits? (input : List Char) : Option (Step Char (List Char) input.length) :=
  match input with
  | c :: rest =>
    if c.isDigit then
      let others := Step.takeWhile Char.isDigit rest
      some ⟨c :: others.value, others.rest, others.shorter⟩
    else none
  | [] => none

/-- Reads a fraction, if there is one: a point and at least one digit. -/
def takeFraction (input : List Char) : Step Char (Option (List Char)) (input.length + 1) :=
  match input with
  | '.' :: rest =>
    match takeDigits? rest with
    | some digits => ⟨some digits.value, digits.rest, by have := digits.shorter; simp only [List.length_cons]; omega⟩
    | none => .stay none ('.' :: rest)
  | input => .stay none input

/-- Reads a sign, if there is one, and tells whether it is that of negative numbers. -/
def takeSign (input : List Char) : Step Char Bool (input.length + 1) :=
  match input with
  | '-' :: rest => ⟨true, rest, by simp only [List.length_cons]; omega⟩
  | '+' :: rest => ⟨false, rest, by simp only [List.length_cons]; omega⟩
  | input => .stay false input

/-- Reads an exponent, if there is one: its letter, perhaps a sign, and at least one digit. -/
def takeExponent (input : List Char) : Step Char (Option Int) (input.length + 1) :=
  match input with
  | c :: rest =>
    let sign := takeSign rest
    match takeDigits? sign.rest with
    | some digits =>
      if c == 'e' || c == 'E' then
        let value : Int := digits.value.foldl (fun n c => n * 10 + ((c.toNat : Int) - '0'.toNat)) 0
        ⟨some (if sign.value then -value else value), digits.rest, by
          have := sign.shorter; have := digits.shorter; simp only [List.length_cons]; omega⟩
      else .stay none (c :: rest)
    | none => .stay none (c :: rest)
  | [] => .stay none []

/-- Reads the digits in front of a point. No digit follows a leading zero. -/
def takeWhole? (input : List Char) : Option (Step Char (List Char) input.length) :=
  match input with
  | '0' :: rest => some (.next ['0'] rest)
  | input => takeDigits? input

/-- Reads a number without its sign. -/
def takeNumeral? (input : List Char) : Option (Step Char Numeral input.length) := do
  let whole ← takeWhole? input
  let fraction := takeFraction whole.rest
  let exponent := takeExponent fraction.rest
  some ⟨⟨whole.value, fraction.value, exponent.value⟩, exponent.rest, by
    have := whole.shorter; have := fraction.shorter; have := exponent.shorter; omega⟩

/-- Reads a scalar other than a text. -/
def takeScalar? (input : List Char) : Option (Step Char Scalar input.length) :=
  match input with
  | 'n' :: 'u' :: 'l' :: 'l' :: rest => some ⟨.null, rest, by simp only [List.length_cons]; omega⟩
  | 't' :: 'r' :: 'u' :: 'e' :: rest => some ⟨.bool true, rest, by simp only [List.length_cons]; omega⟩
  | 'f' :: 'a' :: 'l' :: 's' :: 'e' :: rest => some ⟨.bool false, rest, by simp only [List.length_cons]; omega⟩
  | 'N' :: 'a' :: 'N' :: rest => some ⟨.real .nan, rest, by simp only [List.length_cons]; omega⟩
  | 'I' :: 'n' :: 'f' :: 'i' :: 'n' :: 'i' :: 't' :: 'y' :: rest =>
    some ⟨.real (.infinite false), rest, by simp only [List.length_cons]; omega⟩
  | '-' :: 'I' :: 'n' :: 'f' :: 'i' :: 'n' :: 'i' :: 't' :: 'y' :: rest =>
    some ⟨.real (.infinite true), rest, by simp only [List.length_cons]; omega⟩
  | '-' :: rest =>
    (takeNumeral? rest).map fun step => (step.map fun numeral => numeral.scalar true).optional
  | input => (takeNumeral? input).map fun step => step.map fun numeral => numeral.scalar false

def skipBlanks (input : List Char) : Step Char (List Char) (input.length + 1) :=
  Step.takeWhile isBlank input

mutual

/-- Reads a value; blanks may stand in front of it. -/
def readValue (input : List Char) : Option (Step Char Document input.length) :=
  let start := skipBlanks input
  have hstart := start.shorter
  match h : start.rest with
  | '"' :: rest => do
    let step ← readText rest
    have := step.shorter
    some ⟨.text (String.ofList step.value), step.rest, by simp [h] at hstart; omega⟩
  | '[' :: rest =>
    let inside := skipBlanks rest
    have hinside := inside.shorter
    match h' : inside.rest with
    | ']' :: rest' => some ⟨.list [], rest', by simp [h] at hstart; simp [h'] at hinside; omega⟩
    | _ => do
      have : rest.length < input.length := by simp [h] at hstart; omega
      let step ← readItems rest
      some ⟨.list step.value, step.rest, by have := step.shorter; omega⟩
  | '\x7b' :: rest =>
    let inside := skipBlanks rest
    have hinside := inside.shorter
    match h' : inside.rest with
    | '\x7d' :: rest' => some ⟨.mapping [], rest', by simp [h] at hstart; simp [h'] at hinside; omega⟩
    | _ => do
      have : rest.length < input.length := by simp [h] at hstart; omega
      let step ← readEntries rest
      some ⟨.mapping (entriesOf step.value), step.rest, by have := step.shorter; omega⟩
  | rest => do
    let step ← takeScalar? rest
    some ⟨.scalar step.value, step.rest, by have := step.shorter; have := congrArg List.length h; omega⟩
termination_by 2 * input.length

/-- Reads the items of a list up to its end. -/
def readItems (input : List Char) : Option (Step Char (List Document) input.length) := do
  let item ← readValue input
  have := item.shorter
  let next := skipBlanks item.rest
  have hnext := next.shorter
  match h : next.rest with
  | ',' :: rest =>
    have : rest.length < input.length := by simp [h] at hnext; omega
    let items ← readItems rest
    some ⟨item.value :: items.value, items.rest, by have := items.shorter; omega⟩
  | ']' :: rest => some ⟨[item.value], rest, by simp [h] at hnext; omega⟩
  | _ => none
termination_by 2 * input.length + 1

/-- Reads the entries of a mapping up to its end. -/
def readEntries (input : List Char) : Option (Step Char (List (Key × Document)) input.length) :=
  let start := skipBlanks input
  have hstart := start.shorter
  match h : start.rest with
  | '"' :: rest => do
    let key ← readText rest
    have hkey := key.shorter
    let middle := skipBlanks key.rest
    have hmiddle := middle.shorter
    match h' : middle.rest with
    | ':' :: rest' =>
      have hrest : rest'.length < input.length := by
        simp [h] at hstart; simp [h'] at hmiddle; omega
      let value ← readValue rest'
      have hvalue := value.shorter
      let next := skipBlanks value.rest
      have hnext := next.shorter
      let entry := (Key.text (String.ofList key.value), value.value)
      match h'' : next.rest with
      | ',' :: rest'' =>
        have hlast : rest''.length < input.length := by simp [h''] at hnext; omega
        let entries ← readEntries rest''
        some ⟨entry :: entries.value, entries.rest, by have := entries.shorter; omega⟩
      | '\x7d' :: rest'' => some ⟨[entry], rest'', by simp [h''] at hnext; omega⟩
      | _ => none
    | _ => none
  | _ => none
termination_by 2 * input.length + 1

end

end Json

/-- The document that a text denotes as JSON. -/
def ofJson? (text : String) : Option Document := do
  let step ← Json.readValue text.toList
  if step.rest.all Json.isBlank then some step.value else none

end Document

end GuardedLogging
