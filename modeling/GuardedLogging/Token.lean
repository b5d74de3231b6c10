import GuardedLogging.Scalar

/-!
# Tokens

A source text is a sequence of tokens between blanks and comments. A token is a lexeme and the line it starts on. The text of a literal or of a number is kept as written.
-/

namespace GuardedLogging

inductive Lexeme where
  | literal (text : String)
  | number (text : String)
  | word (text : String)
  | op (symbol : Char)
deriving DecidableEq, Repr

namespace Lexeme

def text : Lexeme → String
  | literal text => text
  | number text => text
  | word text => text
  | op symbol => symbol.toString

end Lexeme

structure Token where
  lexeme : Lexeme
  line : Nat
deriving DecidableEq, Repr

/-- The tokens of a source and the line of its end. -/
structure TokenList where
  tokens : List Token
  lastLine : Nat
deriving DecidableEq, Repr

/-- The words that stand in front of a declaration and qualify it. -/
def modifierWords : List String :=
  ["public", "protected", "private", "static", "final", "transient"]

/-- The words that are no names. -/
def keywords : List String :=
  ["package", "import", "class", "def", "return", "null", "true", "false"] ++ modifierWords

def isKeyword (word : String) : Bool := keywords.contains word

end GuardedLogging
