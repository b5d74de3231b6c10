import GuardedLogging.Evaluation.Situation
import GuardedLogging.TypeRef

/-!
# The surrounding world

A program runs in a world of objects that it did not make. Of an object only its behaviour is known: whether it counts as true, what its properties are, and what a call of a method answers. The answers may depend on the whole situation; whatever is asked of the world may change the situation, cause events, or fail. The properties and methods of values that are no objects are the world's business too, and so is whether a field map counts as true, which may have got other keys than names.

A run is what an evaluation comes to in a situation: a value or an error, the next situation, and the turns that the world took on the way. Turns that came before an error are kept.
-/

namespace GuardedLogging

/-- What asking something of the world leads to. The answer may also be a failure, with a text. -/
structure Reply (State Event α : Type) where
  answer : Except String α
  state : State
  events : List Event

structure World (Object State Event : Type) where
  shown : Object → String
  isTrue : Situation Object State → Value Object → Reply (Situation Object State) Event Bool
  /-- The value of a property; nothing if there is no such property. -/
  property? : Situation Object State → Value Object → String →
    Reply (Situation Object State) Event (Option (Value Object))
  /-- The answer of a call; nothing if there is no such method. -/
  call? : Situation Object State → Value Object → String → List (Value Object) →
    Reply (Situation Object State) Event (Option (Value Object))

inductive EvaluationError (Object : Type) where
  | unresolvedType (name : String)
  | unknownName (name : String)
  | unknownProperty (name : String) (receiver : Value Object)
  | unknownMethod (name : String) (receiver : Value Object)
  | unknownClassMethod (className name : String)
  | argumentCount (className method : String) (expected given : Nat)
  /-- The expression is absent. -/
  | nothingToEvaluate
  /-- An object failed. -/
  | object (text : String)
deriving Repr

namespace EvaluationError

variable {Object State : Type}

/-- A type that is missing when a program runs. -/
def missingType (name : String) : UnresolvedType := ⟨name, "class not found at run time"⟩

/-- The text of an error; nothing if it would have to show a loaded class. -/
def message? (objectShown : Object → String) (situation : Situation Object State) :
    EvaluationError Object → Option String
  | unresolvedType name => some (missingType name).message
  | unknownName name => some ("No such property: " ++ name)
  | unknownProperty name receiver =>
    (receiver.shown? objectShown situation).map fun shown => "No such property: " ++ name ++ " on " ++ shown
  | unknownMethod name receiver =>
    (receiver.shown? objectShown situation).map fun shown =>
      "No signature of method: " ++ name ++ "() on " ++ shown
  | unknownClassMethod className name =>
    some ("No signature of method: " ++ className ++ "." ++ name ++ "()")
  | argumentCount className method expected given =>
    some (className ++ "." ++ method ++ "() takes " ++ toString expected ++ " argument(s), got "
      ++ toString given)
  | nothingToEvaluate => some "Unsupported expression type: NoneType"
  | object text => some text

end EvaluationError

/-- An answer of the world: the situation before it and after it, and the events on the way. -/
structure Turn (State Event : Type) where
  before : State
  after : State
  events : List Event

/-- What an evaluation comes to. -/
structure Outcome (Object State Event α : Type) where
  result : Except (EvaluationError Object) α
  state : State
  turns : List (Turn State Event)

def Outcome.events {Object State Event α : Type} (outcome : Outcome Object State Event α) : List Event :=
  outcome.turns.flatMap (·.events)

/-- An evaluation, which starts in a situation. -/
def Run (Object State Event α : Type) : Type := State → Outcome Object State Event α

namespace Run

variable {Object State Event α β : Type}

def pure (value : α) : Run Object State Event α := fun state => ⟨.ok value, state, []⟩

def fail (error : EvaluationError Object) : Run Object State Event α :=
  fun state => ⟨.error error, state, []⟩

/-- One evaluation after another. After an error there is no other. -/
def bind (first : Run Object State Event α) (next : α → Run Object State Event β) :
    Run Object State Event β := fun state =>
  let before := first state
  match before.result with
  | .error error => ⟨.error error, before.state, before.turns⟩
  | .ok value =>
    let after := next value before.state
    ⟨after.result, after.state, before.turns ++ after.turns⟩

instance : Monad (Run Object State Event) where
  pure := Run.pure
  bind := Run.bind

theorem bind_of_error {first : Run Object State Event α} {next : α → Run Object State Event β}
    {state : State} {error : EvaluationError Object} (h : (first state).result = .error error) :
    first.bind next state = ⟨.error error, (first state).state, (first state).turns⟩ := by
  simp only [bind, h]

theorem bind_of_ok {first : Run Object State Event α} {next : α → Run Object State Event β}
    {state : State} {value : α} (h : (first state).result = .ok value) :
    first.bind next state =
      ⟨(next value (first state).state).result, (next value (first state).state).state,
        (first state).turns ++ (next value (first state).state).turns⟩ := by
  simp only [bind, h]

theorem bind_pure (first : Run Object State Event α) : first.bind Run.pure = first := by
  funext state
  cases h : (first state).result with
  | error error => rw [bind_of_error h, ← h]
  | ok value => simp [bind_of_ok h, Run.pure, ← h]

theorem pure_bind (value : α) (next : α → Run Object State Event β) :
    (Run.pure value).bind next = next value := by
  funext state
  simp [bind, Run.pure]

theorem bind_assoc {γ : Type} (first : Run Object State Event α)
    (next : α → Run Object State Event β) (last : β → Run Object State Event γ) :
    (first.bind next).bind last = first.bind fun value => (next value).bind last := by
  funext state
  cases h : (first state).result with
  | error error => simp [bind, h]
  | ok value =>
    rw [bind_of_ok h]
    cases hnext : (next value (first state).state).result with
    | error error => simp [bind, h, hnext]
    | ok result => simp [bind, h, hnext]

instance : LawfulMonad (Run Object State Event) :=
  LawfulMonad.mk' _ bind_pure pure_bind bind_assoc

/-- Looks at the situation. -/
def read (look : State → α) : Run Object State Event α := fun state => ⟨.ok (look state), state, []⟩

/-- What the program itself does to the situation. -/
def change (step : State → State) : Run Object State Event Unit := fun state => ⟨.ok (), step state, []⟩

/-- Asks the world something in the situation that it is in. -/
def ask (reply : State → Reply State Event α) : Run Object State Event α := fun state =>
  match reply state with
  | ⟨.ok value, next, events⟩ => ⟨.ok value, next, [⟨state, next, events⟩]⟩
  | ⟨.error text, next, events⟩ => ⟨.error (.object text), next, [⟨state, next, events⟩]⟩

/-- A run that only finds out a value makes no difference to what comes next. -/
theorem bind_of_eq_ok {first : Run Object State Event α} {state : State} {value : α}
    (h : first state = ⟨.ok value, state, []⟩) (next : α → Run Object State Event β) :
    (first >>= next) state = next value state := by
  show first.bind next state = next value state
  simp [bind, h]

theorem bind_of_eq_error {first : Run Object State Event α} {state last : State} {turns : List (Turn State Event)}
    {error : EvaluationError Object} (h : first state = ⟨.error error, last, turns⟩)
    (next : α → Run Object State Event β) : (first >>= next) state = ⟨.error error, last, turns⟩ := by
  show first.bind next state = _
  simp [bind, h]

@[simp] theorem read_bind_apply (look : State → α) (next : α → Run Object State Event β) (state : State) :
    (read look >>= next) state = next (look state) state := bind_of_eq_ok rfl next

@[simp] theorem change_bind_apply (step : State → State) (next : Unit → Run Object State Event β) (state : State) :
    (change step >>= next) state = next () (step state) := by
  show (change step).bind next state = _
  simp [bind, change]

end Run

end GuardedLogging
