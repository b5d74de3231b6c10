import GuardedLogging.Text.Quoted
import GuardedLogging.Text.Utf8

/-!
# Errors in a source

Why a source is no unit, and on which line. The reader of tokens and the readers of expressions and declarations share this type, since each refuses the whole source.
-/

namespace GuardedLogging

inductive ParseError.Cause where
  | unexpectedCharacter (c : Char)
  | expectedSymbol (symbol : Char) (found : String)
  | expectedIdentifier (found : String)
  | expectedMember (found : String)
  | expectedClass (found : String)
  | unexpectedKeyword (word : String)
  | callWithoutReceiver (name : String)
  | unexpectedToken (found : String)
  | tokensAfterExpression (found : String)
  | annotationValue (found : String)
  | duplicateMember (name : String)
  | repeatedModifier (word : String)
  | duplicateParameter (name : String)
  | annotationInsideClass
  | unclosedMethod (name : String)
  | unclosedClass (name : String)
  | duplicateField (name className : String)
  | duplicateClass (name : String)
  | encoding (path : String) (error : Utf8.DecodeError)
deriving DecidableEq, Repr

namespace ParseError.Cause

def message : ParseError.Cause → String
  | unexpectedCharacter c => s!"Unexpected character {quoted c.toString}"
  | expectedSymbol symbol found => s!"Expected '{symbol.toString}', got '{found}'"
  | expectedIdentifier found => s!"Expected identifier, got '{found}'"
  | expectedMember found => s!"Expected member name after '.', got '{found}'"
  | expectedClass found => s!"Expected 'class', got '{found}'"
  | unexpectedKeyword word => s!"Unexpected keyword '{word}'"
  | callWithoutReceiver name => s!"Call to '{name}' needs a receiver"
  | unexpectedToken found => s!"Unexpected token: '{found}'"
  | tokensAfterExpression found => s!"Unexpected tokens after expression: '{found}'"
  | annotationValue found => s!"Invalid annotation value '{found}'"
  | duplicateMember name => s!"Duplicate annotation member '{name}'"
  | repeatedModifier word => s!"Repeated modifier '{word}'"
  | duplicateParameter name => s!"Duplicate parameter '{name}'"
  | annotationInsideClass => "Annotations are only allowed on class declarations"
  | unclosedMethod name => s!"Missing '\x7d' closing method '{name}'"
  | unclosedClass name => s!"Missing '\x7d' closing class {name}"
  | duplicateField name className => s!"Duplicate field '{name}' in class {className}"
  | duplicateClass name => s!"Duplicate class {name}"
  | encoding path error =>
    s!"{path} is not valid UTF-8: {error.defect.reason} at byte {toString error.offset}"

end ParseError.Cause

/-- The cause, and the line where it was found, if the source has lines at all. -/
structure ParseError where
  line : Option Nat
  cause : ParseError.Cause
deriving DecidableEq, Repr

namespace ParseError

def onLine (line : Nat) (cause : Cause) : ParseError := ⟨some line, cause⟩

def message (error : ParseError) : String :=
  match error.line with
  | some line => s!"line {toString line}: {error.cause.message}"
  | none => error.cause.message

end ParseError

end GuardedLogging
