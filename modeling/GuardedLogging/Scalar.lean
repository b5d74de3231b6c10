import GuardedLogging.Number.Shortest
import GuardedLogging.Text.Quoted

/-!
# Scalars

A scalar is what a literal denotes, what an annotation member holds, and what a leaf of a document is: nothing, a truth value, an integer, a floating point number, or a text.
-/

namespace GuardedLogging

inductive Scalar where
  | null
  | bool (value : Bool)
  | int (value : Int)
  | real (value : Binary64)
  | text (value : String)
deriving DecidableEq, Repr, Inhabited

namespace Scalar

/-- Numbers with a fraction are written out from `0.0001` up to but not including `10 ^ 16`. -/
def realLayout : FloatLayout := ⟨-4, 16, "inf", "nan"⟩

/-- A scalar as messages show it. -/
def shown : Scalar → String
  | null => "None"
  | bool true => "True"
  | bool false => "False"
  | int value => toString value
  | real value => realLayout.render value
  | text value => quoted value

/-- A scalar as it stands in running text: as `shown`, but texts without quotes. -/
def plain : Scalar → String
  | text value => value
  | other => other.shown

/-- Nothing, falsehood, the zeros and the empty text count as false. -/
def isTrue : Scalar → Bool
  | null => false
  | bool value => value
  | int value => value != 0
  | real value => !value.isZero
  | text value => !value.isEmpty

def isText : Scalar → Bool
  | text _ => true
  | _ => false

def text? : Scalar → Option String
  | text value => some value
  | _ => none

/-- The number that a scalar counts as; truth values count as one and zero. -/
def quotient? : Scalar → Option (Int × Nat)
  | bool value => some (if value then 1 else 0, 1)
  | int value => some (value, 1)
  | real value => value.toQuotient?
  | _ => none

def isNumber : Scalar → Bool
  | bool _ | int _ | real _ => true
  | null | text _ => false

/-- Whether a number is less than another one. What is not a number is not less than anything. -/
def isLess (left right : Scalar) : Bool :=
  match left, right with
  | real .nan, _ => false
  | _, real .nan => false
  | real (.infinite negative), other => negative && other != real (.infinite true)
  | _, real (.infinite negative) => !negative
  | _, _ =>
    match left.quotient?, right.quotient? with
    | some (a, b), some (c, d) => a * d < c * b
    | _, _ => false

/-- Whether two scalars are the same key of a mapping: numbers are compared by value. -/
def sameKey (left right : Scalar) : Bool :=
  match left, right with
  | real (.infinite a), real (.infinite b) => a == b
  | real .nan, real .nan => false
  | _, _ =>
    match left.quotient?, right.quotient? with
    | some (a, b), some (c, d) => a * d == c * b
    | _, _ => left == right

end Scalar

end GuardedLogging
