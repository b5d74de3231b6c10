import GuardedLogging.Scalar

/-!
# Values

What an expression evaluates to. Besides scalars there are the objects of the surrounding world, of which only their behaviour is known, the classes that have been loaded, and methods that were read but not called. Lists and the field maps of classes can be changed by whoever has them, so a value only refers to them; what they hold is part of the situation.

A scope says what the names of an expression mean.
-/

namespace GuardedLogging

inductive Value (Object : Type) where
  | scalar (value : Scalar)
  | list (ref : Nat)
  | object (object : Object)
  /-- A loaded class, which knows the full name that it was declared with. -/
  | loadedClass (ref : Nat) (name : String)
  /-- The live map of a class's fields. -/
  | fieldMap (ref : Nat)
  | method
deriving Repr, Inhabited

namespace Value

variable {Object : Type}

abbrev null : Value Object := scalar .null

abbrev bool (value : Bool) : Value Object := scalar (.bool value)

end Value

/-- Names with their values in the order in which they were defined first, each name once. -/
structure Scope (Object : Type) where
  entries : List (String × Value Object)
deriving Repr

namespace Scope

variable {Object : Type}

def empty : Scope Object := ⟨[]⟩

def find? (scope : Scope Object) (name : String) : Option (Value Object) :=
  scope.entries.lookup name

/-- Entries in which the name has the value: where it stood before, or else behind the others. -/
def put (name : String) (value : Value Object) : List (String × Value Object) → List (String × Value Object)
  | [] => [(name, value)]
  | entry :: rest => if name == entry.1 then (name, value) :: rest else entry :: put name value rest

/-- The scope in which the name has the value, whatever it had before. -/
def define (scope : Scope Object) (name : String) (value : Value Object) : Scope Object :=
  ⟨put name value scope.entries⟩

/-- The scope after several definitions, the later ones over the earlier. -/
def defineAll (scope : Scope Object) (entries : List (String × Value Object)) : Scope Object :=
  entries.foldl (fun scope entry => scope.define entry.1 entry.2) scope

/-- The scope in which the name has no value. -/
def drop (scope : Scope Object) (name : String) : Scope Object :=
  ⟨scope.entries.filter (·.1 != name)⟩

def ofList (entries : List (String × Value Object)) : Scope Object :=
  empty.defineAll entries

/-- The names in the order of their code points. -/
def sortedNames (scope : Scope Object) : List String :=
  (scope.entries.map (·.1)).mergeSort (· ≤ ·)

@[simp] theorem find?_define_self (scope : Scope Object) (name : String) (value : Value Object) :
    (scope.define name value).find? name = some value := by
  simp only [find?, define]
  induction scope.entries with
  | nil => simp [put]
  | cons entry rest ih =>
    rw [put]
    split
    · simp
    · rename_i hother
      rw [List.lookup_cons, eq_false_of_ne_true hother]
      exact ih

theorem find?_define_of_ne (scope : Scope Object) {name other : String} (value : Value Object)
    (h : other ≠ name) : (scope.define name value).find? other = scope.find? other := by
  have skipped : (other == name) = false := by simpa using h
  simp only [find?, define]
  induction scope.entries with
  | nil => simp [put, List.lookup_cons, skipped]
  | cons entry rest ih =>
    rw [put]
    split
    · rename_i hsame
      rw [List.lookup_cons, List.lookup_cons, ← eq_of_beq hsame, skipped]
    · rw [List.lookup_cons, List.lookup_cons, ih]

theorem find?_defineAll_of_not_mem (scope : Scope Object) {name : String}
    {entries : List (String × Value Object)} (h : name ∉ entries.map (·.1)) :
    (scope.defineAll entries).find? name = scope.find? name := by
  induction entries generalizing scope with
  | nil => rfl
  | cons entry rest ih =>
    rw [List.map_cons, List.mem_cons, not_or] at h
    calc (scope.defineAll (entry :: rest)).find? name
        = (scope.define entry.1 entry.2).find? name := ih _ h.2
      _ = scope.find? name := find?_define_of_ne _ _ h.1

end Scope

end GuardedLogging
