import GuardedLogging.Number.Binary64

/-!
# The shortest decimal of a number

A floating point number is written with the fewest decimal digits that read back as the same number, and among those with the ones nearest to it. For every number of digits the only candidates are the two neighbours of the number on that decimal grid; the first grid with a neighbour inside the interval of reals that round to the number wins.
-/

namespace GuardedLogging

/-- The value `digits * 10 ^ exponent`. -/
structure Decimal where
  digits : Nat
  exponent : Int
deriving DecidableEq, Repr

namespace Shortest

/-- The reals that round to one number, as numerators over a common denominator: the number itself and the two ends, which belong to the interval if `closed`. -/
structure Interval where
  denominator : Nat
  value : Nat
  low : Nat
  high : Nat
  closed : Bool

/-- The interval of a positive number `significand * 2 ^ exponent`. The gap below a power of two is half the gap above it, except next to zero. -/
def intervalOf (significand : Nat) (exponent : Int) : Interval :=
  let parts := Binary64.scaled significand 1 (-exponent)
  let gap := Binary64.scaled 1 1 (-exponent)
  let narrow := significand = Binary64.significandBound / 2 ∧ Binary64.minExponent < exponent
  { denominator := 4 * parts.2
    value := 4 * parts.1
    low := 4 * parts.1 - (if narrow then gap.1 else 2 * gap.1)
    high := 4 * parts.1 + 2 * gap.1
    closed := significand % 2 = 0 }

/-- Whether `digits * 10 ^ exponent` lies in the interval. -/
def Interval.contains (interval : Interval) (decimal : Decimal) : Bool :=
  let left := if 0 ≤ decimal.exponent then decimal.digits * Nat.pow 10 decimal.exponent.toNat * interval.denominator
    else decimal.digits * interval.denominator
  let unit := if 0 ≤ decimal.exponent then 1 else Nat.pow 10 (-decimal.exponent).toNat
  if interval.closed then interval.low * unit ≤ left && left ≤ interval.high * unit
  else interval.low * unit < left && left < interval.high * unit

/-- The value over the grid of step `10 ^ exponent`, as a quotient. -/
def Interval.onGrid (interval : Interval) (exponent : Int) : Nat × Nat :=
  if 0 ≤ exponent then (interval.value, interval.denominator * Nat.pow 10 exponent.toNat)
  else (interval.value * Nat.pow 10 (-exponent).toNat, interval.denominator)

/-- The neighbours of the value on a grid that lie in the interval, the nearer one first; of two equally near ones the even one. -/
def Interval.candidates (interval : Interval) (exponent : Int) : List Decimal :=
  let parts := interval.onGrid exponent
  let below := parts.1 / parts.2
  let nearest := Binary64.roundQuotient parts.1 parts.2
  let other := if nearest = below then below + 1 else below
  [⟨nearest, exponent⟩, ⟨other, exponent⟩].filter interval.contains

/-- The least `power` from `start` on with `value < 10 ^ power`, looked for in a bounded number of steps. -/
def powerAbove (interval : Interval) : (steps : Nat) → (start : Int) → Int
  | 0, start => start
  | steps + 1, start =>
    let parts := interval.onGrid start
    if parts.1 < parts.2 then start else powerAbove interval steps (start + 1)

/-- The shortest decimal of the positive number `significand * 2 ^ exponent`. Seventeen digits always suffice. -/
def ofPositive (significand : Nat) (exponent : Int) : Decimal :=
  let interval := intervalOf significand exponent
  let estimate := ((Nat.log2 significand : Int) + exponent) * 30103 / 100000 - 1
  let power := powerAbove interval 4 estimate
  let found := (List.range 17).findSome? fun (places : Nat) =>
    (interval.candidates (power - (places : Int) - 1)).head?
  found.getD ⟨significand, 0⟩

/-- The decimal without zeros at its end. -/
def trim : (steps : Nat) → Decimal → Decimal
  | 0, decimal => decimal
  | steps + 1, decimal =>
    if decimal.digits % 10 = 0 && decimal.digits != 0 then
      trim steps ⟨decimal.digits / 10, decimal.exponent + 1⟩
    else
      decimal

end Shortest

/-- How the text of a floating point number looks: the decimal exponents from `positionalFrom` up to but not including `positionalBelow` are written out, the others with an exponent of at least two digits and a sign; the text always shows a point or an exponent. -/
structure FloatLayout where
  positionalFrom : Int
  positionalBelow : Int
  infinity : String
  notANumber : String

namespace FloatLayout

def zeros (count : Int) : String := String.ofList (List.replicate count.toNat '0')

/-- Written out, with a point. -/
def positional (digits : String) (power : Int) : String :=
  let count : Int := digits.length
  if power < 0 then "0." ++ zeros (-power - 1) ++ digits
  else if count ≤ power + 1 then digits ++ zeros (power + 1 - count) ++ ".0"
  else
    let front := digits.toList.take (power + 1).toNat
    let back := digits.toList.drop (power + 1).toNat
    String.ofList front ++ "." ++ String.ofList back

/-- Written with the point behind the first digit, and an exponent. -/
def scientific (digits : String) (power : Int) : String :=
  let mantissa := match digits.toList with
    | [] => ""
    | [only] => String.ofList [only]
    | first :: rest => String.ofList (first :: '.' :: rest)
  let size := toString power.natAbs
  mantissa ++ "e" ++ (if power < 0 then "-" else "+") ++ (if size.length < 2 then "0" ++ size else size)

def magnitude (layout : FloatLayout) (significand : Nat) (exponent : Int) : String :=
  if significand = 0 then "0.0"
  else
    let decimal := Shortest.trim 20 (Shortest.ofPositive significand exponent)
    let digits := toString decimal.digits
    let power := decimal.exponent + digits.length - 1
    if layout.positionalFrom ≤ power && power < layout.positionalBelow then positional digits power
    else scientific digits power

def render (layout : FloatLayout) : Binary64 → String
  | .finite negative significand exponent =>
    (if negative then "-" else "") ++ layout.magnitude significand exponent
  | .infinite negative => (if negative then "-" else "") ++ layout.infinity
  | .nan => layout.notANumber

end FloatLayout

end GuardedLogging
