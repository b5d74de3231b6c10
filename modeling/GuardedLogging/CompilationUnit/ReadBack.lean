import GuardedLogging.CompilationUnit.Parse
import GuardedLogging.CompilationUnit.Source

/-!
# Reading a written unit back

Not every unit can be told from its source: types lose their qualification marks, and some texts are no names. The question is whether a unit can.
-/

namespace GuardedLogging.CompilationUnit

/-- The unit that the written unit declares, under the same name. -/
def readBack (unit : CompilationUnit) (indent : String := defaultIndent) : Except ParseError CompilationUnit :=
  parse (unit.toSource indent) unit.name

/-- Whether the written unit declares the same unit. -/
def isReadBack (unit : CompilationUnit) : Except ParseError Bool := do
  return (← unit.readBack) == unit

end GuardedLogging.CompilationUnit
