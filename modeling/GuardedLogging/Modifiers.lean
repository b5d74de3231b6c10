import GuardedLogging.Text.Upper
import GuardedLogging.Token

/-!
# Modifiers

A declaration carries a set of modifiers. The set has no order of its own: it is always written in the canonical one.
-/

namespace GuardedLogging

inductive Modifier where
  | publicAccess
  | protectedAccess
  | privateAccess
  | staticMember
  | finalMember
  | transientMember
deriving DecidableEq, Repr

namespace Modifier

/-- All modifiers in canonical order. -/
def all : List Modifier :=
  [publicAccess, protectedAccess, privateAccess, staticMember, finalMember, transientMember]

def word : Modifier → String
  | publicAccess => "public"
  | protectedAccess => "protected"
  | privateAccess => "private"
  | staticMember => "static"
  | finalMember => "final"
  | transientMember => "transient"

def ofWord? (word : String) : Option Modifier :=
  all.find? (·.word == word)

theorem ofWord?_word (modifier : Modifier) : ofWord? modifier.word = some modifier := by
  cases modifier <;> decide

end Modifier

/-- A set of modifiers. -/
structure Modifiers where
  isPublic : Bool := false
  isProtected : Bool := false
  isPrivate : Bool := false
  isStatic : Bool := false
  isFinal : Bool := false
  isTransient : Bool := false
deriving DecidableEq, Repr, Inhabited

namespace Modifiers

def none : Modifiers := {}

def contains (modifiers : Modifiers) : Modifier → Bool
  | .publicAccess => modifiers.isPublic
  | .protectedAccess => modifiers.isProtected
  | .privateAccess => modifiers.isPrivate
  | .staticMember => modifiers.isStatic
  | .finalMember => modifiers.isFinal
  | .transientMember => modifiers.isTransient

def insert (modifiers : Modifiers) : Modifier → Modifiers
  | .publicAccess => { modifiers with isPublic := true }
  | .protectedAccess => { modifiers with isProtected := true }
  | .privateAccess => { modifiers with isPrivate := true }
  | .staticMember => { modifiers with isStatic := true }
  | .finalMember => { modifiers with isFinal := true }
  | .transientMember => { modifiers with isTransient := true }

def ofList (list : List Modifier) : Modifiers :=
  list.foldl insert none

/-- The members in canonical order. -/
def toList (modifiers : Modifiers) : List Modifier :=
  Modifier.all.filter modifiers.contains

def words (modifiers : Modifiers) : List String :=
  modifiers.toList.map Modifier.word

/-- The set with one more member, given by name: case does not matter, and `none` names no modifier. An unknown name is answered in upper case. -/
def insertName (modifiers : Modifiers) (name : String) : Except String Modifiers :=
  let upper := upperText name
  if upper == "NONE" then .ok modifiers
  else
    match Modifier.all.find? fun modifier => upperText modifier.word == upper with
    | some modifier => .ok (modifiers.insert modifier)
    | Option.none => .error upper

theorem contains_insert (modifiers : Modifiers) (added asked : Modifier) :
    (modifiers.insert added).contains asked = (asked == added || modifiers.contains asked) := by
  cases added <;> cases asked <;> rfl

theorem ofList_toList (modifiers : Modifiers) : ofList modifiers.toList = modifiers := by
  obtain ⟨a, b, c, d, e, f⟩ := modifiers
  cases a <;> cases b <;> cases c <;> cases d <;> cases e <;> cases f <;> rfl

end Modifiers

end GuardedLogging
