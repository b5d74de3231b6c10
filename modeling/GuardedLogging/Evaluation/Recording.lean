import GuardedLogging.Evaluation.World
import GuardedLogging.Level

/-!
# A world that records

Objects to try a program out with. A scripted object has the properties and methods that it was given and answers each call of a method in the same way. A logger knows which levels are enabled; a factory makes loggers. All that is asked of them is recorded as events. Of the methods of a field map there are those that take an entry out, look one up or put one in, by its name.
-/

namespace GuardedLogging

mutual

inductive RecordedObject where
  /-- An object with a name, its truth value, its properties and the answers of its methods. -/
  | scripted (name : String) (isTrue : Bool) (properties methods : List (String × ScriptedValue))
  | logger (owner : String) (enabled : List String)
  | factory (enabled : List String)

/-- A value in a script, in which an object can also refer to itself. -/
inductive ScriptedValue where
  | itself
  | scalar (value : Scalar)
  | object (object : RecordedObject)

end

instance : Inhabited RecordedObject := ⟨.factory []⟩

instance : Inhabited ScriptedValue := ⟨.itself⟩

inductive RecordedEvent where
  | called (object method : String) (arguments : List (Value RecordedObject))
  | logged (logger : String) (level : Level) (arguments : List (Value RecordedObject))
  | checked (logger : String) (level : Level)
  | loggerMade (arguments : List (Value RecordedObject))

/-- Whether a logger was asked if a level is enabled. -/
def RecordedEvent.isCheck : RecordedEvent → Bool
  | checked _ _ => true
  | _ => false

namespace RecordedObject

/-- The owner of a logger that was made for something else than a class. -/
def unknownOwner : String := "?"

def label (owner : String) : String := "log " ++ owner

def isTrue : RecordedObject → Bool
  | scripted _ isTrue _ _ => isTrue
  | logger _ _ => true
  | factory _ => true

def shown : RecordedObject → String
  | scripted name _ _ _ => "<" ++ name ++ ">"
  | logger owner _ => "<" ++ label owner ++ ">"
  | factory _ => "<factory>"

/-- A value of a script of the given object. -/
def valueOf (object : RecordedObject) : ScriptedValue → Value RecordedObject
  | .itself => .object object
  | .scalar value => .scalar value
  | .object other => .object other

/-- The owner of a logger that is made with these arguments. -/
def ownerOf : List (Value RecordedObject) → String
  | .loadedClass _ name :: _ => name
  | _ => unknownOwner

/-- What a call answers and the events that it causes. -/
def answer? (object : RecordedObject) (method : String) (arguments : List (Value RecordedObject)) :
    Option (Value RecordedObject × List RecordedEvent) :=
  match object with
  | scripted name _ _ methods =>
    (methods.lookup method).map fun answer =>
      (object.valueOf answer, [.called name method arguments])
  | logger owner enabled =>
    match Level.ofMethod? method, Level.ofCheck? method with
    | some level, _ => some (.null, [.logged (label owner) level arguments])
    | none, some level =>
      some (.bool (enabled.contains level.method), [.checked (label owner) level])
    | none, none => if method == "toString" then some (.scalar (.text object.shown), []) else none
  | factory enabled =>
    if method == "getLog" then
      some (.object (.logger (ownerOf arguments) enabled), [.loggerMade arguments])
    else none

def hasMethod (object : RecordedObject) (method : String) : Bool :=
  (object.answer? method []).isSome

def property? (object : RecordedObject) (name : String) : Option (Value RecordedObject) :=
  let own := match object with
    | scripted _ _ properties _ => (properties.lookup name).map object.valueOf
    | _ => none
  match own with
  | some value => some value
  | none => if object.hasMethod name then some .method else none

end RecordedObject

namespace Situation

variable {Object State : Type}

/-- What the methods of a field map answer that are known here, and the situation after them. -/
def askMap? (situation : Situation Object State) (map : Nat) (method : String)
    (arguments : List (Value Object)) : Option (Except String (Value Object) × Situation Object State) :=
  let entries := situation.fieldMaps map
  match method, arguments with
  | "get", [.scalar (.text name)] => some (.ok ((entries.find? name).getD .null), situation)
  | "get", [.scalar (.text name), other] => some (.ok ((entries.find? name).getD other), situation)
  | "pop", [.scalar (.text name)] =>
    match entries.find? name with
    | some value => some (.ok value, situation.withMap map (entries.drop name))
    | none => some (.error (quoted name), situation)
  | "pop", [.scalar (.text name), other] =>
    some (.ok ((entries.find? name).getD other), situation.withMap map (entries.drop name))
  | "setdefault", [.scalar (.text name), value] =>
    match entries.find? name with
    | some present => some (.ok present, situation)
    | none => some (.ok value, situation.withMap map (entries.define name value))
  | "clear", [] => some (.ok .null, situation.withMap map .empty)
  | _, _ => none

/-- The methods of a field map that are known here. -/
def mapMethods : List String := ["get", "pop", "setdefault", "clear"]

end Situation

/-- The world of these objects. Their answers never change, and besides them only field maps have methods. -/
def recordingWorld : World RecordedObject Unit RecordedEvent where
  shown := RecordedObject.shown
  isTrue := fun situation value =>
    match value with
    | .object object => ⟨.ok object.isTrue, situation, []⟩
    | .fieldMap map => ⟨.ok (!(situation.fieldMaps map).entries.isEmpty), situation, []⟩
    | _ => ⟨.ok true, situation, []⟩
  property? := fun situation value name =>
    match value with
    | .object object => ⟨.ok (object.property? name), situation, []⟩
    | .fieldMap _ => ⟨.ok (if Situation.mapMethods.contains name then some .method else none), situation, []⟩
    | _ => ⟨.ok none, situation, []⟩
  call? := fun situation value method arguments =>
    match value with
    | .object object =>
      match object.answer? method arguments with
      | some (answer, events) => ⟨.ok (some answer), situation, events⟩
      | none => ⟨.ok none, situation, []⟩
    | .fieldMap map =>
      match situation.askMap? map method arguments with
      | some (answer, next) => ⟨answer.map some, next, []⟩
      | none => ⟨.ok none, situation, []⟩
    | _ => ⟨.ok none, situation, []⟩

end GuardedLogging
