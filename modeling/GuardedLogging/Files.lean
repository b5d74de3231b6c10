import GuardedLogging.CompilationUnit.Parse
import GuardedLogging.Text.Lines
import GuardedLogging.Text.Utf8

/-!
# Files

A file holds bytes; as a text it is UTF-8, and every line end counts as a line feed. A unit that is read from a file is named after the stem of the file's name.
-/

namespace GuardedLogging

/-- Why a file cannot be opened. -/
inductive FileError where
  | missing
  | isDirectory
  | notADirectory
deriving DecidableEq, Repr

namespace FileError

/-- The text that the system gives for a file that is not there. -/
def missingMessage (path : String) : String :=
  "[Errno 2] No such file or directory: " ++ quoted path

end FileError

/-- How files are read: the bytes behind a path. -/
abbrev FileReader := String → Except FileError (List UInt8)

/-- The text that bytes encode. -/
def textOfBytes (bytes : List UInt8) : Except Utf8.DecodeError String := do
  return String.ofList (unifyLineEnds (← Utf8.decode bytes))

/-- The last part of a path. -/
def fileName (path : String) : String :=
  String.ofList (path.toList.reverse.takeWhile (· != '/')).reverse

/-- The name of a file without its extension. Points at the start of a name are part of the stem. -/
def fileStem (path : String) : String :=
  let name := fileName path
  let points := name.toList.takeWhile (· == '.')
  let rest := name.toList.drop points.length
  if rest.contains '.' then String.ofList (points ++ (qualifier (String.ofList rest)).toList) else name

inductive SourceFileError where
  | file (path : String) (error : FileError)
  | source (error : ParseError)
deriving DecidableEq, Repr

namespace SourceFileError

def missingMessage (path : String) : String := "Source file not found: " ++ path

end SourceFileError

/-- The unit that a file declares. -/
def CompilationUnit.parseFile (read : FileReader) (path : String) (name : Option Scalar := none) :
    Except SourceFileError CompilationUnit := do
  let bytes ← (read path).mapError (.file path)
  let text ← (textOfBytes bytes).mapError fun error => .source ⟨none, .encoding path error⟩
  (CompilationUnit.parse text (name.getD (.text (fileStem path)))).mapError .source

end GuardedLogging
