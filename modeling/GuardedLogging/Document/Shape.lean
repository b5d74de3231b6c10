import GuardedLogging.Document

/-!
# The shape of a document

A document that is to become an expression or a unit must have mappings, lists and texts in the right places. These are the ways in which it can fail, and the questions that fail that way.
-/

namespace GuardedLogging

/-- The things that are read from mappings. -/
inductive DocumentPart where
  | unit
  | declaration
  | statement
  | expression
  | type
deriving DecidableEq, Repr

/-- What is wrong with the shape of a document; `nullType` is null where a class must be named. -/
inductive ShapeError where
  | missingKey (key : String)
  | unknownModifier (name : String)
  | unknownExpression (kind : String)
  | notAMapping (part : DocumentPart)
  | nullType
  | notAList
  | notAText
  | notAScalar
deriving DecidableEq, Repr

namespace ShapeError

/-- What there is to say: the missing key, the unknown name, or the unknown kind of expression. -/
def message? : ShapeError → Option String
  | missingKey key => some key
  | unknownModifier name => some name
  | unknownExpression kind => some ("Unsupported expression dict type: " ++ kind)
  | _ => none

end ShapeError

namespace Document

def entries (part : DocumentPart) : Document → Except ShapeError (List (Key × Document))
  | mapping entries => .ok entries
  | _ => .error (.notAMapping part)

def required (entries : List (Key × Document)) (key : String) : Except ShapeError Document :=
  match lookup entries key with
  | some document => .ok document
  | none => .error (.missingKey key)

/-- The members of a list, the keys of a mapping, or the characters of a text. -/
def members : Document → Except ShapeError (List Document)
  | list items => .ok items
  | mapping entries => .ok (entries.map fun entry => ofKey entry.1)
  | scalar (.text text) => .ok (text.toList.map fun c => .text c.toString)
  | scalar _ | foreign _ => .error .notAList

def membersOr (entries : List (Key × Document)) (key : String) : Except ShapeError (List Document) :=
  match lookup entries key with
  | some document => document.members
  | none => .ok []

def asText : Document → Except ShapeError String
  | scalar (.text text) => .ok text
  | _ => .error .notAText

def asScalar : Document → Except ShapeError Scalar
  | scalar value => .ok value
  | _ => .error .notAScalar

theorem sizeOf_lt_of_lookup {entries : List (Key × Document)} {key : String} {value : Document}
    (h : lookup entries key = some value) : sizeOf value < sizeOf entries := by
  obtain ⟨entry, hfind, rfl⟩ := Option.map_eq_some_iff.mp h
  have hmem := List.mem_of_find?_eq_some hfind
  have hsize := List.sizeOf_lt_of_mem hmem
  have : sizeOf entry = 1 + sizeOf entry.1 + sizeOf entry.2 := by cases entry; rfl
  omega

/-- The value of a key that must be there, which is a smaller document. -/
def child (entries : List (Key × Document)) (key : String) :
    Except ShapeError { value : Document // sizeOf value < sizeOf entries } :=
  match h : lookup entries key with
  | some value => .ok ⟨value, sizeOf_lt_of_lookup h⟩
  | none => .error (.missingKey key)

/-- The parts of a list that may be missing, all of which are to be mappings. Other documents have parts too, but none that is a mapping. -/
def children (part : DocumentPart) (entries : List (Key × Document)) (key : String) :
    Except ShapeError { items : List Document // sizeOf items < 1 + sizeOf entries } :=
  match h : lookup entries key with
  | none => .ok ⟨[], by
      cases entries <;> simp only [List.nil.sizeOf_spec, List.cons.sizeOf_spec] <;> omega⟩
  | some (list items) => .ok ⟨items, by
      have hsize := sizeOf_lt_of_lookup h
      simp at hsize
      omega⟩
  | some other => do
    match ← other.members with
    | [] => .ok ⟨[], by
      cases entries <;> simp only [List.nil.sizeOf_spec, List.cons.sizeOf_spec] <;> omega⟩
    | _ => .error (.notAMapping part)

/-- The text of a key that must be there. -/
def requiredText (entries : List (Key × Document)) (key : String) : Except ShapeError String := do
  asText (← required entries key)

end Document

end GuardedLogging
