import GuardedLogging.Scalar

/-!
# Documents

A document is what JSON and YAML texts denote: a scalar, a list, a mapping, or a value of another kind, for which only YAML has words. The entries of a mapping keep the order in which their keys were first written, and no two of them have the same key.
-/

namespace GuardedLogging

/-- A value of another kind, such as a date, bytes, a set, or a list or mapping that stands within itself. All that matters of it is how it is written, and whether it counts as true. As keys, values of one kind are told apart and ordered by their ranks. -/
structure ForeignValue where
  kind : String
  rank : List Int
  /-- The value as messages show it. -/
  shown : String
  /-- The value as it stands in running text, which is never nothing. -/
  plain : String
  isTrue : Bool
  plain_ne_empty : plain ≠ ""
  /-- The path that the value is as the name of a file, if it can be one. -/
  path? : Option String := none
deriving DecidableEq, Repr

/-- A key of a mapping. -/
inductive Document.Key where
  | scalar (value : Scalar)
  | foreign (value : ForeignValue)
deriving DecidableEq, Repr

namespace Document.Key

@[match_pattern] abbrev text (value : String) : Key := scalar (.text value)

def shown : Key → String
  | scalar value => value.shown
  | foreign value => value.shown

def plain : Key → String
  | scalar value => value.plain
  | foreign value => value.plain

def text? : Key → Option String
  | scalar value => value.text?
  | foreign _ => none

def isText : Key → Bool
  | scalar value => value.isText
  | foreign _ => false

/-- Whether two keys are the same one. -/
def sameKey : Key → Key → Bool
  | scalar left, scalar right => left.sameKey right
  | foreign left, foreign right => left.kind == right.kind && left.rank == right.rank
  | _, _ => false

/-- Whether a key comes before another one, if they have an order: texts by code points, numbers by value, and other values of one kind by their ranks. -/
def isLess? : Key → Key → Option Bool
  | text left, text right => some (left < right)
  | scalar left, scalar right => if left.isNumber && right.isNumber then some (left.isLess right) else none
  | foreign left, foreign right => if left.kind == right.kind then some (left.rank < right.rank) else none
  | _, _ => none

end Document.Key

inductive Document where
  | scalar (value : Scalar)
  | list (items : List Document)
  | mapping (entries : List (Document.Key × Document))
  | foreign (value : ForeignValue)
deriving Repr, Inhabited

namespace Document

/-- A key as a document of its own. -/
def ofKey : Key → Document
  | .scalar value => scalar value
  | .foreign value => foreign value

abbrev null : Document := scalar .null
abbrev bool (value : Bool) : Document := scalar (.bool value)
abbrev int (value : Int) : Document := scalar (.int value)
abbrev nat (value : Nat) : Document := scalar (.int value)
abbrev text (value : String) : Document := scalar (.text value)

/-- A mapping whose keys are texts. -/
def record (entries : List (String × Document)) : Document :=
  mapping (entries.map fun entry => (.text entry.1, entry.2))

/-- The entries with a key set to a value: a key that is there keeps its place. -/
def setEntry (entries : List (Key × Document)) (key : Key) (value : Document) :
    List (Key × Document) :=
  if entries.any (·.1.sameKey key) then
    entries.map fun entry => if entry.1.sameKey key then (entry.1, value) else entry
  else
    entries ++ [(key, value)]

/-- The entries that a sequence of assignments leaves. -/
def entriesOf (assignments : List (Key × Document)) : List (Key × Document) :=
  assignments.foldl (fun entries entry => setEntry entries entry.1 entry.2) []

def lookup (entries : List (Key × Document)) (key : String) : Option Document :=
  (entries.find? (·.1 == .text key)).map (·.2)

/-- The value of a key, in a document that is a mapping. -/
def get? (document : Document) (key : String) : Option Document :=
  match document with
  | mapping entries => lookup entries key
  | _ => none

/-- Empty lists and mappings count as false, like the scalars that do. -/
def isTrue : Document → Bool
  | scalar value => value.isTrue
  | list items => !items.isEmpty
  | mapping entries => !entries.isEmpty
  | foreign value => value.isTrue

mutual

/-- A document as messages show it. -/
def shown : Document → String
  | scalar value => value.shown
  | list items => "[" ++ ", ".intercalate (shownItems items) ++ "]"
  | mapping entries => "\x7b" ++ ", ".intercalate (shownEntries entries) ++ "\x7d"
  | foreign value => value.shown

def shownItems : List Document → List String
  | [] => []
  | item :: rest => item.shown :: shownItems rest

def shownEntries : List (Key × Document) → List String
  | [] => []
  | (key, value) :: rest => (key.shown ++ ": " ++ value.shown) :: shownEntries rest

end

/-- Entries in the order of the code points of their keys. -/
def sortEntries (entries : List (Key × Document)) : List (Key × Document) :=
  entries.mergeSort fun left right => left.1.plain ≤ right.1.plain

mutual

/-- The document with the keys of every mapping in order. -/
def sorted : Document → Document
  | scalar value => scalar value
  | list items => list (sortedItems items)
  | mapping entries => mapping (sortEntries (sortedEntries entries))
  | foreign value => foreign value

def sortedItems : List Document → List Document
  | [] => []
  | item :: rest => item.sorted :: sortedItems rest

def sortedEntries : List (Key × Document) → List (Key × Document)
  | [] => []
  | (key, value) :: rest => (key, value.sorted) :: sortedEntries rest

end

/-- The path that a document is as the name of a file: texts are paths, and some values of other kinds. -/
def path? : Document → Option String
  | scalar (.text path) => some path
  | foreign value => value.path?
  | _ => none

/-- A document as it stands in running text. -/
def plain : Document → String
  | scalar value => value.plain
  | foreign value => value.plain
  | other => other.shown

end Document

end GuardedLogging
