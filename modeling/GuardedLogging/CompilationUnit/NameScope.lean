import GuardedLogging.CompilationUnit
import GuardedLogging.Token

/-!
# The names that a source can use for types

A simple type name means an imported type, or a class of the unit itself, or a language type, in this order; any other name is kept as it is written, and so is a name with a dot.
-/

namespace GuardedLogging

/-- The imports by their last parts, the latest first, and the names of the classes declared anywhere in the source. -/
structure NameScope where
  package : String
  imports : List (String × String)
  classNames : List String

namespace NameScope

def qualify (scope : NameScope) (name : String) : String :=
  if '.' ∈ name.toList then name
  else
    match scope.imports.lookup name with
    | some imported => imported
    | none =>
      if scope.classNames.contains name then GuardedLogging.qualify scope.package name
      else (languageType? name).getD name

def typeRef (scope : NameScope) (name : String) : TypeRef :=
  ⟨scope.qualify name, false⟩

end NameScope

/-- The words that follow the word `class`, wherever it stands. -/
def wordsAfterClass : List Token → List String
  | ⟨.word "class", _⟩ :: ⟨.word name, line⟩ :: rest => name :: wordsAfterClass (⟨.word name, line⟩ :: rest)
  | _ :: rest => wordsAfterClass rest
  | [] => []

end GuardedLogging
