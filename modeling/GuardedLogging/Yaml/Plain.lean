import GuardedLogging.Text.Hex
import GuardedLogging.Yaml.Foreign

/-!
# Plain scalars

A scalar without quotes denotes what it looks like: nothing, a truth value, an integer, a real number, a date or a point in time, or else a text. Some look like a value that there is not. Integers may be binary, octal, hexadecimal or sexagesimal, and the digits of a number may be grouped by low lines. Two texts have a meaning as keys only: `<<` merges another mapping, and `=` stands for a default value.
-/

namespace GuardedLogging.Yaml

inductive PlainMeaning where
  | scalar (value : Scalar)
  | foreign (value : ForeignValue)
  | merge
  | defaultKey
  | failing (error : YamlError)
deriving DecidableEq, Repr, Inhabited

def nullWords : List String := ["~", "null", "Null", "NULL", ""]

def trueWords : List String := ["yes", "Yes", "YES", "true", "True", "TRUE", "on", "On", "ON"]

def falseWords : List String := ["no", "No", "NO", "false", "False", "FALSE", "off", "Off", "OFF"]

namespace Numeral

/-- The sign in front of a number, and the rest. -/
def splitSign : List Char → Option Bool × List Char
  | '-' :: rest => (some true, rest)
  | '+' :: rest => (some false, rest)
  | text => (none, text)

/-- The parts of a text between colons. -/
def splitColons : List Char → List (List Char)
  | [] => [[]]
  | ':' :: rest => [] :: splitColons rest
  | c :: rest =>
    match splitColons rest with
    | [] => [[c]]
    | part :: parts => (c :: part) :: parts

/-- Whether all are low lines or digits of the base. -/
def areGrouped (base : Nat) (digits : List Char) : Bool :=
  digits.all fun c => c == '_' || (Hex.value? c).any (· < base)

/-- The number that digits denote, whatever low lines are among them. -/
def value (base : Nat) (digits : List Char) : Nat :=
  digits.foldl (fun number c => ((Hex.value? c).map (number * base + ·)).getD number) 0

/-- Whether the text is one of the numbers from 0 to 59. -/
def isSixtieth : List Char → Bool
  | [unit] => unit.isDigit
  | [ten, unit] => '0' ≤ ten && ten ≤ '5' && unit.isDigit
  | _ => false

def startsWithDigit : List Char → Bool
  | first :: _ => first.isDigit
  | [] => false

/-- The number that parts between colons denote, from the greatest to the least. -/
def sexagesimal (parts : List (List Char)) : Nat :=
  parts.foldl (fun number part => number * 60 + value 10 part) 0

/-- An integer without its sign. -/
def natural? (text : List Char) : Option Nat :=
  let based (base : Nat) (digits : List Char) : Option Nat :=
    if areGrouped base digits && !digits.isEmpty then some (value base digits) else none
  match text with
  | ['0'] => some 0
  | '0' :: 'b' :: digits => based 2 digits
  | '0' :: 'x' :: digits => based 16 digits
  | '0' :: digits => based 8 digits
  | text =>
    match splitColons text with
    | [] => none
    | whole :: parts =>
      if startsWithDigit whole && areGrouped 10 whole && parts.all isSixtieth then
        some (sexagesimal (whole :: parts))
      else none

def integer? (text : List Char) : Option Int :=
  let (sign, body) := splitSign text
  (natural? body).map fun number => if sign == some true then -number else number

/-- The base of a number that has no digits, but low lines in their place. -/
def baseWithoutDigits? (text : List Char) : Option Nat :=
  match (splitSign text).2 with
  | '0' :: 'b' :: '_' :: rest => if rest.all (· == '_') then some 2 else none
  | '0' :: 'x' :: '_' :: rest => if rest.all (· == '_') then some 16 else none
  | _ => none

/-- What is said of a text that is read as an integer and is none. -/
def faultOf (base : Nat) (digits : String) : YamlError :=
  .badValue ("invalid literal for int() with base " ++ toString base ++ ": " ++ quoted digits)

/-- An exponent, which has a sign and stands at the end; zero if there is none. -/
def exponent? : List Char → Option Int
  | [] => some 0
  | letter :: rest =>
    match splitSign rest with
    | (some negative, digits) =>
      if (letter == 'e' || letter == 'E') && digits.all Char.isDigit && !digits.isEmpty then
        some (if negative then -(value 10 digits : Int) else value 10 digits)
      else none
    | _ => none

/-- The number of the digits before and after a point. -/
def decimal (negative : Bool) (whole fraction : List Char) (exponent : Int) : Binary64 :=
  let places : Int := (fraction.filter Char.isDigit).length
  .ofDecimal negative (value 10 (whole ++ fraction)) (exponent - places)

/-- A number whose last part between colons has a point. -/
def sexagesimalReal (negative : Bool) (parts : List (List Char)) (fraction : List Char) : Binary64 :=
  let last := decimal false (parts.getLastD []) fraction 0
  match last.toQuotient? with
  | some (numerator, denominator) =>
    let greater := 60 * sexagesimal parts.dropLast
    .ofQuotient negative (numerator.toNat + greater * denominator) denominator
  | none => last

/-- A real number; it has a point. -/
def real? (text : List Char) : Option Binary64 :=
  let (sign, body) := splitSign text
  let negative := sign == some true
  let isPart (c : Char) : Bool := c.isDigit || c == '_'
  let (front, back) := body.span (· != '.')
  let fraction := (back.drop 1).takeWhile isPart
  let exponent := exponent? ((back.drop 1).dropWhile isPart)
  if [".inf", ".Inf", ".INF"].contains (String.ofList body) then some (.infinite negative)
  else if [".nan", ".NaN", ".NAN"].contains (String.ofList text) then some .nan
  else if back.isEmpty then none
  else if front.isEmpty then
    if sign.isNone && startsWithDigit fraction then exponent.map (decimal negative [] fraction) else none
  else
    match splitColons front with
    | [whole] =>
      if startsWithDigit whole && areGrouped 10 whole then exponent.map (decimal negative whole fraction)
      else none
    | whole :: parts =>
      if startsWithDigit whole && areGrouped 10 whole && parts.all isSixtieth
          && ((back.drop 1).dropWhile isPart).isEmpty then
        some (sexagesimalReal negative (whole :: parts) fraction)
      else none
    | [] => none

end Numeral

namespace Timestamp

/-- The number that between `least` and `most` digits write, as many as there are, and the rest. -/
def takeNumber? (least most : Nat) (text : List Char) : Option (Nat × List Char) :=
  let digits := (text.take most).takeWhile Char.isDigit
  if least ≤ digits.length then some (Numeral.value 10 digits, text.drop digits.length) else none

def dropChar? (c : Char) : List Char → Option (List Char)
  | first :: rest => if first == c then some rest else none
  | [] => none

def isBlank (c : Char) : Bool := c == ' ' || c == '\t'

/-- The distance of a time zone in minutes, if one is said. -/
def zone? (text : List Char) : Option (Option Int) :=
  match text.dropWhile isBlank with
  | [] => if text.isEmpty then some none else none
  | ['Z'] => some (some 0)
  | sign :: rest =>
    if sign != '-' && sign != '+' then none
    else do
      let (hours, rest) ← takeNumber? 1 2 rest
      let minutes ← match rest with
        | [] => some 0
        | _ => do
          let (minutes, rest) ← takeNumber? 2 2 (← dropChar? ':' rest)
          if rest.isEmpty then some minutes else none
      let distance : Int := hours * 60 + minutes
      return some (if sign == '-' then -distance else distance)

/-- The time of day behind a date. -/
def clock? (text : List Char) : Option Clock := do
  let rest ← match text with
    | 'T' :: rest => some rest
    | 't' :: rest => some rest
    | c :: _ => if isBlank c then some (text.dropWhile isBlank) else none
    | [] => none
  let (hour, rest) ← takeNumber? 1 2 rest
  let (minute, rest) ← takeNumber? 2 2 (← dropChar? ':' rest)
  let (second, rest) ← takeNumber? 2 2 (← dropChar? ':' rest)
  let (fraction, rest) := match rest with
    | '.' :: rest => (rest.takeWhile Char.isDigit, rest.dropWhile Char.isDigit)
    | rest => ([], rest)
  let microsecond := Numeral.value 10 ((fraction ++ List.replicate 6 '0').take 6)
  return { hour, minute, second, microsecond, zone := ← zone? rest }

/-- A date, or a date with a time. -/
def stamp? (text : List Char) : Option Stamp := do
  let (year, rest) ← takeNumber? 4 4 text
  let (month, rest) ← takeNumber? 1 2 (← dropChar? '-' rest)
  let (day, rest) ← takeNumber? 1 2 (← dropChar? '-' rest)
  match rest with
  | [] => return ⟨year, month, day, none⟩
  | rest => return ⟨year, month, day, some (← clock? rest)⟩

/-- A date or time that a text without a tag looks like; in a date alone every number has all its digits. -/
def plainStamp? (text : List Char) : Option Stamp :=
  (stamp? text).filter fun stamp => stamp.clock.isSome || text.length == 10

def meaning (stamp : Stamp) : PlainMeaning :=
  match stamp.value with
  | .ok value => .foreign value
  | .error error => .failing error

end Timestamp

/-- What a scalar without quotes denotes. -/
def plainMeaning (text : String) : PlainMeaning :=
  let chars := text.toList
  if nullWords.contains text then .scalar .null
  else if trueWords.contains text then .scalar (.bool true)
  else if falseWords.contains text then .scalar (.bool false)
  else if text == "<<" then .merge
  else if text == "=" then .defaultKey
  else
    match Numeral.real? chars, Numeral.baseWithoutDigits? chars, Numeral.integer? chars with
    | some number, _, _ => .scalar (.real number)
    | none, some base, _ => .failing (Numeral.faultOf base "")
    | none, none, some number => .scalar (.int number)
    | none, none, none => ((Timestamp.plainStamp? chars).map Timestamp.meaning).getD (.scalar (.text text))

/-- Whether a text without quotes denotes itself. -/
def denotesItself (text : String) : Bool :=
  plainMeaning text == .scalar (.text text)

end GuardedLogging.Yaml
