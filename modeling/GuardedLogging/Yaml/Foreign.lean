import GuardedLogging.Text.Utf8
import GuardedLogging.Yaml

/-!
# Values of other kinds

Besides scalars, lists and mappings, YAML has dates, points in time, bytes, sets and pairs. A day that is not in the calendar or an hour that is not in the day is no value. Points in time have an order among those that say their zone, and among those that do not.
-/

namespace GuardedLogging

/-- The value, which is not written as nothing. -/
def ForeignValue.ofPlain (kind : String) (rank : List Int) (shown plain : String) (isTrue : Bool := true)
    (path? : Option String := none) : Except YamlError ForeignValue :=
  if h : plain ≠ "" then .ok ⟨kind, rank, shown, plain, isTrue, h, path?⟩ else .error .breakdown

namespace Yaml

/-- A number with leading zeros up to the given width. -/
def padded (width number : Nat) : String := String.ofList ((toString number).toList.leftpad width '0')

structure Clock where
  hour : Nat
  minute : Nat
  second : Nat
  microsecond : Nat
  /-- How many minutes the zone is ahead of universal time, if it is said. -/
  zone : Option Int
deriving DecidableEq, Repr

/-- A date, with the time of day if it is a point in time. -/
structure Stamp where
  year : Nat
  month : Nat
  day : Nat
  clock : Option Clock
deriving DecidableEq, Repr

/-- A span of time as messages show it. -/
def shownMinutes (minutes : Int) : String :=
  let seconds := minutes * 60
  let part (name : String) (value : Int) : List String :=
    if value == 0 then [] else [name ++ "=" ++ toString value]
  let parts := part "days" (seconds / 86400) ++ part "seconds" (seconds % 86400)
  "datetime.timedelta(" ++ (if parts.isEmpty then "0" else ", ".intercalate parts) ++ ")"

namespace Clock

def fault? (clock : Clock) : Option String :=
  if 23 < clock.hour then some "hour must be in 0..23"
  else if 59 < clock.minute then some "minute must be in 0..59"
  else if 59 < clock.second then some "second must be in 0..59"
  else none

def zoneFault? (clock : Clock) : Option String :=
  clock.zone.bind fun minutes =>
    if 1440 ≤ minutes.natAbs then
      some ("offset must be a timedelta strictly between -timedelta(hours=24) and timedelta(hours=24), not "
        ++ shownMinutes minutes ++ ".")
    else none

def plain (clock : Clock) : String :=
  let fraction := if clock.microsecond == 0 then "" else "." ++ padded 6 clock.microsecond
  let zone (minutes : Int) : String :=
    (if minutes < 0 then "-" else "+") ++ padded 2 (minutes.natAbs / 60) ++ ":" ++ padded 2 (minutes.natAbs % 60)
  padded 2 clock.hour ++ ":" ++ padded 2 clock.minute ++ ":" ++ padded 2 clock.second ++ fraction
    ++ (clock.zone.map zone).getD ""

/-- The parts of the time of day as messages show them; zeros at the end are left out. -/
def shownParts (clock : Clock) : List String :=
  let small := if clock.microsecond != 0 then [clock.second, clock.microsecond]
    else if clock.second != 0 then [clock.second] else []
  let zone (minutes : Int) : String :=
    "tzinfo=" ++ (if minutes == 0 then "datetime.timezone.utc"
      else "datetime.timezone(" ++ shownMinutes minutes ++ ")")
  ([clock.hour, clock.minute] ++ small).map toString ++ (clock.zone.map zone).toList

end Clock

namespace Stamp

def isLeapYear (year : Nat) : Bool := year % 4 == 0 && (year % 100 != 0 || year % 400 == 0)

def daysInMonth (year month : Nat) : Nat :=
  if month == 2 then (if isLeapYear year then 29 else 28)
  else if [4, 6, 9, 11].contains month then 30 else 31

/-- What is wrong with the date or the time of day. -/
def fault? (stamp : Stamp) : Option String :=
  if stamp.year == 0 then some "year 0 is out of range"
  else if stamp.month == 0 || 12 < stamp.month then some "month must be in 1..12"
  else if stamp.day == 0 || daysInMonth stamp.year stamp.month < stamp.day then some "day is out of range for month"
  else stamp.clock.bind Clock.fault?

/-- The number of the day in the calendar. -/
def dayNumber (stamp : Stamp) : Nat :=
  let before := stamp.year - 1
  let months := ((List.range stamp.month).drop 1).map (daysInMonth stamp.year)
  before * 365 + before / 4 - before / 100 + before / 400 + months.foldl (· + ·) 0 + stamp.day

def plainDate (stamp : Stamp) : String :=
  padded 4 stamp.year ++ "-" ++ padded 2 stamp.month ++ "-" ++ padded 2 stamp.day

def value (stamp : Stamp) : Except YamlError ForeignValue :=
  let date := [stamp.year, stamp.month, stamp.day]
  match stamp.clock.bind Clock.zoneFault? <|> stamp.fault?, stamp.clock with
  | some message, _ => .error (.badValue message)
  | none, none =>
    ForeignValue.ofPlain "date" (date.map Int.ofNat) ("datetime.date(" ++ ", ".intercalate (date.map toString) ++ ")")
      stamp.plainDate
  | none, some clock =>
    let shown := "datetime.datetime(" ++ ", ".intercalate (date.map toString ++ clock.shownParts) ++ ")"
    let seconds : Int := stamp.dayNumber * 86400 + clock.hour * 3600 + clock.minute * 60 + clock.second
    let (kind, start) := match clock.zone with
      | none => ("time without zone", seconds)
      | some minutes => ("time", seconds - minutes * 60)
    ForeignValue.ofPlain kind [start, clock.microsecond] shown (stamp.plainDate ++ " " ++ clock.plain)

end Stamp

namespace Bytes

/-- The six bits that a character stands for. -/
def sextet? (c : Char) : Option Nat :=
  if 'A' ≤ c && c ≤ 'Z' then some (c.toNat - 'A'.toNat)
  else if 'a' ≤ c && c ≤ 'z' then some (c.toNat - 'a'.toNat + 26)
  else if c.isDigit then some (c.toNat - '0'.toNat + 52)
  else if c == '+' then some 62
  else if c == '/' then some 63
  else none

/-- The six bits of each character, up to the padding that ends a group of four, which must not be missing. Characters that stand for nothing are passed over. -/
def sextets? : (inGroup pads : Nat) → List Char → Option (List Nat)
  | inGroup, _, [] => if inGroup == 0 then some [] else none
  | inGroup, pads, c :: rest =>
    if c == '=' then
      if inGroup < 2 then sextets? inGroup pads rest
      else if 4 ≤ inGroup + pads + 1 then some []
      else sextets? inGroup (pads + 1) rest
    else
      match sextet? c with
      | some bits => (sextets? ((inGroup + 1) % 4) 0 rest).map (bits :: ·)
      | none => sextets? inGroup pads rest

/-- The bytes of groups of four; the last group may be shorter. -/
def ofSextets : List Nat → List UInt8
  | a :: b :: c :: d :: rest =>
    let bits := ((a * 64 + b) * 64 + c) * 64 + d
    [bits / 65536, bits / 256, bits].map UInt8.ofNat ++ ofSextets rest
  | [a, b, c] =>
    let bits := (a * 64 + b) * 64 + c
    [bits / 1024, bits / 4].map UInt8.ofNat
  | [a, b] => [UInt8.ofNat ((a * 64 + b) / 16)]
  | _ => []

def shown (bytes : List UInt8) : String :=
  let quote := if bytes.contains 39 && !bytes.contains 34 then '"' else '\''
  let escape (byte : UInt8) : List Char :=
    let c := Char.ofNat byte.toNat
    if c == quote || c == '\\' then ['\\', c]
    else if c == '\t' then ['\\', 't']
    else if c == '\n' then ['\\', 'n']
    else if c == '\r' then ['\\', 'r']
    else if ' ' ≤ c && c ≤ '~' then [c]
    else '\\' :: 'x' :: Hex.lower 2 byte.toNat
  String.ofList ('b' :: quote :: bytes.flatMap escape ++ [quote])

/-- The bytes that a text in base 64 stands for. As the name of a file they are the text that they encode. -/
def value (text : String) : Except YamlError ForeignValue :=
  match if text.toList.all (·.toNat < 128) then sextets? 0 0 text.toList else none with
  | none => .error (.malformed "failed to decode base64 data")
  | some bits =>
    let bytes := ofSextets bits
    let path? := (Utf8.decode bytes).toOption.map String.ofList
    ForeignValue.ofPlain "bytes" (bytes.map fun byte => Int.ofNat byte.toNat) (shown bytes) (shown bytes)
      (!bytes.isEmpty) path?

end Bytes

/-- The set of keys, which are shown in the order in which they were written. -/
def setValue (keys : List Document.Key) : Except YamlError ForeignValue :=
  let shown := if keys.isEmpty then "set()" else "\x7b" ++ ", ".intercalate (keys.map Document.Key.shown) ++ "\x7d"
  ForeignValue.ofPlain "set" [] shown shown (!keys.isEmpty)

def pairValue (first second : Document) : Except YamlError ForeignValue :=
  let shown := "(" ++ first.shown ++ ", " ++ second.shown ++ ")"
  ForeignValue.ofPlain "tuple" [] shown shown

end Yaml

end GuardedLogging
