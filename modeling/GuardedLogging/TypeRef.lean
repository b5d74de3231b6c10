import GuardedLogging.Text.Blank
import GuardedLogging.Text.Quoted

/-!
# Types and class paths

A type is referred to by its qualified name. A reference is resolved if the name was found on the class path when the reference was made, and a placeholder otherwise: a missing type is no error until something needs the type to exist.
-/

namespace GuardedLogging

structure TypeRef where
  name : String
  resolved : Bool := false
deriving DecidableEq, Repr, Inhabited

/-- The part of a dotted name after its last dot. -/
def lastPart (name : String) : String :=
  String.ofList (name.toList.reverse.takeWhile (· != '.')).reverse

/-- The part of a dotted name before its last dot; empty if there is no dot. -/
def qualifier (name : String) : String :=
  String.ofList ((name.toList.reverse.dropWhile (· != '.')).drop 1).reverse

/-- A simple name in a package. -/
def qualify (package name : String) : String :=
  if package.isEmpty then name else package ++ "." ++ name

namespace TypeRef

def simpleName (type : TypeRef) : String := lastPart type.name

def package (type : TypeRef) : String := qualifier type.name

end TypeRef

/-- The types that are visible without an import, by their simple names. -/
def languageTypes : List String :=
  ["Object", "String", "Boolean", "Integer", "Long", "Double", "Class", "Throwable", "Exception"]

def languagePackage : String := "java.lang"

/-- The qualified name of a type that is visible without an import. -/
def languageType? (simpleName : String) : Option String :=
  if languageTypes.contains simpleName then some (qualify languagePackage simpleName) else none

def isLanguageType (name : String) : Bool :=
  (languageTypes.map (qualify languagePackage)).contains name

/-- A reference to a type that would have had to resolve. -/
structure UnresolvedType where
  typeName : String
  context : String
deriving DecidableEq, Repr

namespace UnresolvedType

def message (error : UnresolvedType) : String :=
  let text := "Unable to resolve class " ++ error.typeName
  if error.context.isEmpty then text else text ++ " (" ++ error.context ++ ")"

end UnresolvedType

/-- The reference itself, if it is resolved. -/
def TypeRef.require (type : TypeRef) (context : String) : Except UnresolvedType TypeRef :=
  if type.resolved then .ok type else .error ⟨type.name, context⟩

/-- The names of the types that a compilation sees, each once. -/
structure ClassPath where
  names : List String
deriving Repr

namespace ClassPath

/-- White space around a name is not part of it, and an empty name is none. -/
def ofList (names : List String) : ClassPath :=
  ⟨((names.map strip).filter (!·.isEmpty)).eraseDups⟩

def empty : ClassPath := ofList []

/-- The types that are visible without an import are on every class path. -/
def contains (classPath : ClassPath) (name : String) : Bool :=
  classPath.names.contains name || isLanguageType name

def extended (classPath : ClassPath) (names : List String) : ClassPath :=
  ofList (classPath.names ++ names)

def lookup (classPath : ClassPath) (name : String) : TypeRef :=
  ⟨name, classPath.contains name⟩

def find? (classPath : ClassPath) (name : String) : Option TypeRef :=
  if classPath.contains name then some ⟨name, true⟩ else none

/-- The names in the order of their code points. -/
def sortedNames (classPath : ClassPath) : List String :=
  classPath.names.mergeSort (· ≤ ·)

/-- A class path as messages show it. -/
def shown (classPath : ClassPath) : String :=
  "ClassPath(" ++ quotedList classPath.sortedNames ++ ")"

end ClassPath

end GuardedLogging
