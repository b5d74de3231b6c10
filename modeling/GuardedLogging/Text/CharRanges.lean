/-!
# Sets of characters given by ranges

A property of characters that a standard fixes by listing them is a set of code point ranges. The larger sets are written down as text, the lengths of alternating gaps and ranges from code point zero on, so that a table of several hundred ranges stays a few lines long and is decoded once.
-/

namespace GuardedLogging

/-- The numbers written in decimal in a text, in order; every other character separates them. -/
def decimalsIn (text : String) : List Nat :=
  let step (state : List Nat × Option Nat) (c : Char) : List Nat × Option Nat :=
    if c.isDigit then
      (state.1, some (state.2.getD 0 * 10 + (c.toNat - '0'.toNat)))
    else
      (state.2.toList ++ state.1, none)
  let final := (text.toList ++ [' ']).foldl step ([], none)
  final.1.reverse

/-- A set of characters, as inclusive ranges of code points. -/
structure CharRanges where
  ranges : List (Nat × Nat)

namespace CharRanges

def contains (set : CharRanges) (c : Char) : Bool :=
  set.ranges.any fun range => range.1 ≤ c.toNat && c.toNat ≤ range.2

private def rangesFrom : Nat → List Nat → List (Nat × Nat)
  | start, gap :: length :: rest =>
    (start + gap, start + gap + length - 1) :: rangesFrom (start + gap + length) rest
  | _, _ => []

/-- The set whose gaps and ranges have the lengths written in the text, alternately and from code point zero. -/
def ofGaps (text : String) : CharRanges :=
  ⟨rangesFrom 0 (decimalsIn text)⟩

end CharRanges

end GuardedLogging
