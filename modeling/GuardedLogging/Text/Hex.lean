/-!
# Hexadecimal numbers

Escapes write a code point with a fixed number of hexadecimal digits, in lower or upper case.
-/

namespace GuardedLogging

namespace Hex

/-- The digits of a number with leading zeros up to the given width; higher digits are dropped. -/
def digits (digit : Nat → Char) : (width : Nat) → (number : Nat) → List Char
  | 0, _ => []
  | width + 1, number => digits digit width (number / 16) ++ [digit (number % 16)]

def lower : (width : Nat) → (number : Nat) → List Char := digits Nat.digitChar

def upper : (width : Nat) → (number : Nat) → List Char := digits fun digit => (Nat.digitChar digit).toUpper

def value? (c : Char) : Option Nat :=
  if c.isDigit then some (c.toNat - '0'.toNat)
  else if 'a' ≤ c && c ≤ 'f' then some (c.toNat - 'a'.toNat + 10)
  else if 'A' ≤ c && c ≤ 'F' then some (c.toNat - 'A'.toNat + 10)
  else none

/-- The number written by hexadecimal digits, if they are all such digits. -/
def read? (text : List Char) : Option Nat :=
  text.foldlM (fun number c => (value? c).map (number * 16 + ·)) 0

end Hex

end GuardedLogging
