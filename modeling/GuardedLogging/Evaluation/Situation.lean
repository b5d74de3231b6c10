import GuardedLogging.Evaluation.Value

/-!
# Situations

What a program finds and changes while it runs: the types that are known, what the lists and the field maps hold that values refer to, and a state of the surrounding world of which nothing is known.
-/

namespace GuardedLogging

structure Situation (Object State : Type) where
  /-- The state of the surrounding world. -/
  host : State
  types : Scope Object
  /-- How many lists and classes have been made. The next one gets this number. -/
  made : Nat
  lists : Nat → List (Value Object)
  fieldMaps : Nat → Scope Object
  /-- The map in which a class has its fields. -/
  mapOf : Nat → Nat

namespace Situation

variable {Object State : Type}

/-- A situation in which nothing has been made yet. -/
def initial (host : State) (types : Scope Object) : Situation Object State :=
  ⟨host, types, 0, fun _ => [], fun _ => .empty, id⟩

/-- The fields of a class and their values. -/
def fields (situation : Situation Object State) (ref : Nat) : Scope Object :=
  situation.fieldMaps (situation.mapOf ref)

/-- The situation with other entries in a field map. -/
def withMap (situation : Situation Object State) (map : Nat) (entries : Scope Object) :
    Situation Object State :=
  { situation with fieldMaps := fun other => if other = map then entries else situation.fieldMaps other }

/-- Gives a field of a class its value. -/
def setField (ref : Nat) (name : String) (value : Value Object) (situation : Situation Object State) :
    Situation Object State :=
  situation.withMap (situation.mapOf ref) ((situation.fields ref).define name value)

/-- Makes a list. -/
def addList (items : List (Value Object)) (situation : Situation Object State) : Situation Object State :=
  { situation with
    made := situation.made + 1
    lists := fun other => if other = situation.made then items else situation.lists other }

/-- Makes a class, with a map for its fields that has no entries yet, and makes it known under its name. -/
def addClass (name : String) (situation : Situation Object State) : Situation Object State :=
  { situation with
    types := situation.types.define name (.loadedClass situation.made name)
    made := situation.made + 1
    fieldMaps := fun other => if other = situation.made then .empty else situation.fieldMaps other
    mapOf := fun other => if other = situation.made then situation.made else situation.mapOf other }

@[simp] theorem fields_setField (situation : Situation Object State) (ref : Nat) (name : String)
    (value : Value Object) :
    (situation.setField ref name value).fields ref = (situation.fields ref).define name value := by
  simp [fields, setField, withMap]

end Situation

/-! ### How values are shown -/

namespace Value

variable {Object State : Type}

/-- A value as messages show it. A loaded class has no such form. Of the lists and maps, those are shown in full that are still to be seen, and a list within itself is not. -/
def shownBeside? (objectShown : Object → String) (situation : Situation Object State) (unseen : List Nat) :
    Value Object → Option String
  | scalar value => some value.shown
  | list ref =>
    if _hunseen : ref ∈ unseen then
      let items := (situation.lists ref).mapM (shownBeside? objectShown situation (unseen.erase ref))
      items.map fun parts => "[" ++ ", ".intercalate parts ++ "]"
    else some "[...]"
  | object it => some (objectShown it)
  | loadedClass _ _ => none
  | fieldMap ref =>
    if _hunseen : ref ∈ unseen then
      let entries := (situation.fieldMaps ref).entries.mapM fun entry =>
        (shownBeside? objectShown situation (unseen.erase ref) entry.2).map fun shown =>
          (Scalar.text entry.1).shown ++ ": " ++ shown
      entries.map fun parts => "\x7b" ++ ", ".intercalate parts ++ "\x7d"
    else some "\x7b...\x7d"
  | method => some "<method>"
termination_by unseen.length
decreasing_by all_goals
  have hlength := List.length_erase_of_mem _hunseen
  have hpositive := List.length_pos_of_mem _hunseen
  omega

def shown? (objectShown : Object → String) (situation : Situation Object State) (value : Value Object) :
    Option String :=
  value.shownBeside? objectShown situation (List.range situation.made)

end Value

end GuardedLogging
