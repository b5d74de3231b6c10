import GuardedLogging.CompilationUnit

/-!
# A sample unit

A class that asks for a logger and uses it, built without a source.
-/

namespace GuardedLogging.CompilationUnit

/-- The sample, with its logger under the given name; the annotation tells the name unless it is the usual one. -/
def sample (logger : String := "log") : CompilationUnit :=
  let onLogger (method : String) (arguments : List Expr) : Statement :=
    ⟨false, .call (.var logger) method arguments⟩
  let greeting : Expr := .call (.const (.text "hello ")) "concat" [.var "name"]
  let bar : Method :=
    { name := "bar"
      body := [onLogger "debug" [.const (.text "hi")], onLogger "toString" []] }
  let greet : Method :=
    { name := "greet"
      parameters := [{ name := "name" }]
      body := [onLogger "info" [greeting], ⟨true, .var "name"⟩] }
  let request : Annotation :=
    { name := "Commons"
      members := if logger == "log" then [] else [("value", .text logger)] }
  { name := .text "Example"
    classes := [{ name := "Foo", annotations := [request], methods := [bar, greet] }] }

end GuardedLogging.CompilationUnit

namespace GuardedLogging.ClassDecl

/-- A class that calls its logger inside arguments and behind a check of its own, and has a method in which the logger's name means a parameter. -/
def sampleService : ClassDecl :=
  let onLog (method : String) (arguments : List Expr) : Expr := .call (.var "log") method arguments
  let checked (otherwise : Expr) : Expr :=
    .ternary (onLog "isInfoEnabled" []) (onLog "info" [onLog "trace" []]) otherwise
  let start : Method :=
    { name := "start"
      parameters := [{ name := "host" }]
      body := [⟨false, onLog "debug" [.call (.var "host") "open" [onLog "error" []]]⟩,
        ⟨true, checked (onLog "warn" [])⟩] }
  let copy : Method :=
    { name := "copy", parameters := [{ name := "log" }], body := [⟨true, onLog "debug" []⟩] }
  { name := "Service"
    annotations := [{ name := "Deprecated" }, { name := "Commons" }]
    fields := [{ name := "ready", initial := onLog "fatal" [], owner := "Service" }]
    methods := [start, copy] }

end GuardedLogging.ClassDecl
