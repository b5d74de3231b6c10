import GuardedLogging.Text.CharRanges

/-!
# Decimal digits

The decimal digits of every script come in runs of ten, from zero to nine. A digit's value is its distance from the zero of its run.
-/

namespace GuardedLogging

/-- The digit zero of each script other than ASCII. -/
def digitZeros : List Nat := decimalsIn
  "1632 1776 1984 2406 2534 2662 2790 2918 3046 3174 3302 3430 3558 3664 3792 3872 4160 4240 6112
   6160 6470 6608 6784 6800 6992 7088 7232 7248 42528 43216 43264 43472 43504 43600 44016 65296
   66720 68912 69734 69872 69942 70096 70384 70736 70864 71248 71360 71472 71904 72016 72784 73040
   73120 92768 92864 93008 120782 120792 120802 120812 120822 123200 123632 125264 130032"

/-- The value of a decimal digit of any script. -/
def digitValue? (c : Char) : Option Nat :=
  if c.toNat < 128 then
    if c.isDigit then some (c.toNat - '0'.toNat) else none
  else
    (digitZeros.find? fun first => first ≤ c.toNat && c.toNat < first + 10).map (c.toNat - ·)

def isDecimalDigit (c : Char) : Bool := (digitValue? c).isSome

/-- The number that a run of digits writes; characters that are no digits count as zero. -/
def digitsValue (digits : List Char) : Nat :=
  digits.foldl (fun value c => value * 10 + (digitValue? c).getD 0) 0

end GuardedLogging
