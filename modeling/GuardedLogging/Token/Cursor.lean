import GuardedLogging.ParseError
import GuardedLogging.Step
import GuardedLogging.Token

/-!
# Reading tokens

The readers of expressions and declarations take tokens off the front of a list. What they share stands here: what is found at the front, the line it is on, and the steps that take one symbol, one identifier or one dotted name. The end of the list is the end of the source and stands on its last line, which every reader is given.
-/

namespace GuardedLogging

/-- What a reader of tokens gives: a step whose rest is shorter than `bound`, or the error that ends the reading. -/
abbrev Parsed (α : Type) (bound : Nat) := Except ParseError (Step Token α bound)

namespace Cursor

/-- The line of the first token, or that of the end. -/
def line (lastLine : Nat) : List Token → Nat
  | token :: _ => token.line
  | [] => lastLine

/-- The text of the first token, as errors show it. -/
def found : List Token → String
  | token :: _ => token.lexeme.text
  | [] => "end of input"

def fail {α : Type} {bound : Nat} (lastLine : Nat) (tokens : List Token) (cause : ParseError.Cause) :
    Parsed α bound :=
  .error (.onLine (line lastLine tokens) cause)

def startsWith (symbol : Char) : List Token → Bool
  | token :: _ => token.lexeme == .op symbol
  | [] => false

/-- Takes a symbol, if it comes next. -/
def symbol? (symbol : Char) (tokens : List Token) : Option (Step Token Unit tokens.length) :=
  match tokens with
  | token :: rest => if token.lexeme = .op symbol then some (.next () rest) else none
  | [] => none

/-- Takes a word, if it comes next. -/
def word? (word : String) (tokens : List Token) : Option (Step Token Unit tokens.length) :=
  match tokens with
  | token :: rest => if token.lexeme = .word word then some (.next () rest) else none
  | [] => none

/-- Takes the symbol that has to come next. -/
def symbol (lastLine : Nat) (symbol : Char) (tokens : List Token) : Parsed Unit tokens.length :=
  match symbol? symbol tokens with
  | some step => .ok step
  | none => fail lastLine tokens (.expectedSymbol symbol (found tokens))

/-- Takes the identifier that has to come next: a word that is no keyword. -/
def identifier (lastLine : Nat) (tokens : List Token) : Parsed String tokens.length :=
  match tokens with
  | ⟨.word name, line⟩ :: rest =>
    if isKeyword name then .error (.onLine line (.expectedIdentifier name))
    else .ok (.next name rest)
  | tokens => fail lastLine tokens (.expectedIdentifier (found tokens))

/-- Takes the name of a member, which may be any word. -/
def member (lastLine : Nat) (tokens : List Token) : Parsed String tokens.length :=
  match tokens with
  | ⟨.word name, _⟩ :: rest => .ok (.next name rest)
  | token :: rest => fail lastLine (token :: rest) (.expectedMember token.lexeme.text)
  | [] => fail lastLine [] (.expectedMember "")

/-- Takes any number of further parts of a dotted name; here keywords are names too. -/
def nameParts : (tokens : List Token) → Step Token (List String) (tokens.length + 1)
  | ⟨.op '.', dotLine⟩ :: ⟨.word name, line⟩ :: rest =>
    let step := nameParts rest
    ⟨name :: step.value, step.rest, by have := step.shorter; simp only [List.length_cons]; omega⟩
  | tokens => .stay [] tokens

/-- Takes a name with any number of parts between dots. -/
def dottedName (lastLine : Nat) (tokens : List Token) : Parsed String tokens.length := do
  let ⟨first, rest, shorter⟩ ← identifier lastLine tokens
  return ((nameParts rest).map fun parts => ".".intercalate (first :: parts)).weaken shorter

def isSemicolon (token : Token) : Bool := token.lexeme == .op ';'

/-- The tokens behind the semicolons at the front. -/
def dropSemicolons (tokens : List Token) : List Token :=
  tokens.dropWhile isSemicolon

theorem length_dropSemicolons_le (tokens : List Token) :
    (dropSemicolons tokens).length ≤ tokens.length :=
  (List.dropWhile_suffix isSemicolon).length_le

/-- A step that also takes the semicolons behind it. -/
def skipSemicolons {α : Type} {bound : Nat} (step : Step Token α bound) : Step Token α bound :=
  ⟨step.value, dropSemicolons step.rest,
    Nat.lt_of_le_of_lt (length_dropSemicolons_le step.rest) step.shorter⟩

end Cursor

end GuardedLogging
