/-!
# Binary floating point numbers

A number with a fraction is one of the double precision numbers of IEEE 754. A finite one is kept as the value `significand * 2 ^ exponent` in lowest form: the significand has 53 binary digits unless the exponent is already the smallest one. So two finite numbers are the same value exactly if they are the same data, signs of zero apart, and every question about them is one about natural numbers.
-/

namespace GuardedLogging

inductive Binary64 where
  | finite (negative : Bool) (significand : Nat) (exponent : Int)
  | infinite (negative : Bool)
  | nan
deriving DecidableEq, Repr

namespace Binary64

/-- One more than the greatest significand. -/
def significandBound : Nat := Nat.pow 2 53

/-- The exponent of the numbers next to zero. -/
def minExponent : Int := -1074

/-- The exponent of the greatest finite numbers. -/
def maxExponent : Int := 971

def isZero : Binary64 → Bool
  | finite _ significand _ => significand = 0
  | _ => false

/-- The quotient rounded to the nearest natural number, a half to the even one. -/
def roundQuotient (numerator denominator : Nat) : Nat :=
  let quotient := numerator / denominator
  let twice := 2 * (numerator % denominator)
  if twice < denominator then quotient
  else if denominator < twice then quotient + 1
  else if quotient % 2 = 0 then quotient
  else quotient + 1

/-- `numerator / denominator / 2 ^ exponent`, as a quotient of natural numbers. -/
def scaled (numerator denominator : Nat) (exponent : Int) : Nat × Nat :=
  if 0 ≤ exponent then (numerator, denominator * Nat.pow 2 exponent.toNat)
  else (numerator * Nat.pow 2 (-exponent).toNat, denominator)

/-- The exponent that gives the quotient a significand of 53 binary digits, or the smallest exponent if that is less. -/
def exponentFor (numerator denominator : Nat) : Int :=
  let guess : Int := (Nat.log2 numerator : Int) - (Nat.log2 denominator : Int) - 53
  let parts := scaled numerator denominator guess
  let exponent := if significandBound * parts.2 ≤ parts.1 then guess + 1 else guess
  max exponent minExponent

/-- The number nearest to a positive quotient, or to zero; a tie goes to the even significand, and what is too large becomes infinite. -/
def ofQuotient (negative : Bool) (numerator denominator : Nat) : Binary64 :=
  if numerator = 0 then finite negative 0 minExponent
  else
    let exponent := exponentFor numerator denominator
    let parts := scaled numerator denominator exponent
    let significand := roundQuotient parts.1 parts.2
    let carried := significand = significandBound
    let significand := if carried then significandBound / 2 else significand
    let exponent := if carried then exponent + 1 else exponent
    if maxExponent < exponent then infinite negative else finite negative significand exponent

/-- The number nearest to `digits * 10 ^ exponent`. Exponents far out of range are answered without computing the power. -/
def ofDecimal (negative : Bool) (digits : Nat) (exponent : Int) : Binary64 :=
  let size : Int := (Nat.log2 digits : Int) / 4 + exponent
  if digits = 0 then finite negative 0 minExponent
  else if 320 < size then infinite negative
  else if exponent + (Nat.log2 digits : Int) < -400 then finite negative 0 minExponent
  else if 0 ≤ exponent then ofQuotient negative (digits * Nat.pow 10 exponent.toNat) 1
  else ofQuotient negative digits (Nat.pow 10 (-exponent).toNat)

/-- The number nearest to an integer. -/
def ofInt (value : Int) : Binary64 :=
  ofQuotient (value < 0) value.natAbs 1

/-- A finite number as a quotient of an integer and a natural number. -/
def toQuotient? : Binary64 → Option (Int × Nat)
  | finite negative significand exponent =>
    let (magnitude, denominator) := scaled significand 1 (-exponent)
    some (if negative then -(magnitude : Int) else magnitude, denominator)
  | _ => none

end Binary64

end GuardedLogging
