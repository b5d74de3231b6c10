import GuardedLogging.Document

/-!
# The YAML library

YAML is read and written by a library of its own. Whoever needs one is given it, and relies on nothing but the ways in which reading can end.
-/

namespace GuardedLogging

/-- Why a text denotes no document. -/
inductive YamlError where
  /-- The text is not YAML, for the reason that the library gives. -/
  | malformed (detail : String)
  /-- There is no value such as the text says, for example no such day. -/
  | badValue (message : String)
  /-- The library fails in a way that it does not announce. -/
  | breakdown
deriving DecidableEq, Repr

structure YamlLibrary where
  read : String → Except YamlError Document
  write : Document → String

end GuardedLogging
