import GuardedLogging.Expr
import GuardedLogging.Token.Cursor
import GuardedLogging.Token.Literal
import GuardedLogging.Token.Scan

/-!
# Expressions from tokens

The grammar of expressions has four levels. An expression is a unary one, or a test followed by the two branches of a ternary; a unary one is a negation or a primary with suffixes; a suffix is a property or a call; a primary is a literal, a name, or an expression in parentheses. A call needs a receiver, and no keyword is a name, but every word may follow a dot.

Each reader takes the longest part that its level allows and leaves a shorter list, so reading ends.
-/

namespace GuardedLogging

namespace Expr

/-- Takes a literal, `null`, a truth value or a name. -/
def parseLeaf (lastLine : Nat) (tokens : List Token) : Parsed Expr tokens.length :=
  match tokens with
  | ⟨.literal text, _⟩ :: rest =>
    .ok (.next (const (.text (String.ofList (Literal.unquote text.toList)))) rest)
  | ⟨.number text, _⟩ :: rest => .ok (.next (const (Literal.numberValue text.toList)) rest)
  | ⟨.word word, line⟩ :: rest =>
    if word = "null" then .ok (.next (const .null) rest)
    else if word = "true" then .ok (.next (const (.bool true)) rest)
    else if word = "false" then .ok (.next (const (.bool false)) rest)
    else if isKeyword word then .error (.onLine line (.unexpectedKeyword word))
    else if Cursor.startsWith '(' rest then .error (.onLine line (.callWithoutReceiver word))
    else .ok (.next (var word) rest)
  | tokens => Cursor.fail lastLine tokens (.unexpectedToken (Cursor.found tokens))

mutual

/-- Takes an expression. -/
def parseTernary (lastLine : Nat) (tokens : List Token) : Parsed Expr tokens.length := do
  let ⟨test, afterTest, htest⟩ ← parseUnary lastLine tokens
  match Cursor.symbol? '?' afterTest with
  | none => return ⟨test, afterTest, htest⟩
  | some ⟨_, afterMark, hmark⟩ =>
    let ⟨whenTrue, afterTrue, htrue⟩ ← parseTernary lastLine afterMark
    let ⟨_, afterColon, hcolon⟩ ← Cursor.symbol lastLine ':' afterTrue
    let whenFalse ← parseTernary lastLine afterColon
    let whole := whenFalse.map fun whenFalse => ternary test whenTrue whenFalse
    return (((whole.after hcolon).after htrue).after hmark).after htest
termination_by 5 * tokens.length + 3

/-- Takes a negation, or a primary with its suffixes. -/
def parseUnary (lastLine : Nat) (tokens : List Token) : Parsed Expr tokens.length :=
  match Cursor.symbol? '!' tokens with
  | some ⟨_, afterMark, hmark⟩ => do
    let operand ← parseUnary lastLine afterMark
    return (operand.map not).after hmark
  | none => do
    let ⟨primary, rest, hprimary⟩ ← parsePrimary lastLine tokens
    let suffixed ← parseSuffixes lastLine primary rest
    return suffixed.weaken hprimary
termination_by 5 * tokens.length + 2

/-- Takes a leaf, or an expression in parentheses. -/
def parsePrimary (lastLine : Nat) (tokens : List Token) : Parsed Expr tokens.length :=
  match Cursor.symbol? '(' tokens with
  | some ⟨_, inside, hinside⟩ => do
    let ⟨inner, rest, hinner⟩ ← parseTernary lastLine inside
    let closing ← Cursor.symbol lastLine ')' rest
    return ((closing.map fun _ => inner).after hinner).after hinside
  | none => parseLeaf lastLine tokens
termination_by 5 * tokens.length + 1

/-- Takes the properties and calls that follow a receiver. -/
def parseSuffixes (lastLine : Nat) (receiver : Expr) (tokens : List Token) :
    Parsed Expr (tokens.length + 1) :=
  match Cursor.symbol? '.' tokens with
  | none => return .stay receiver tokens
  | some ⟨_, afterDot, hdot⟩ => do
    let ⟨name, afterName, hname⟩ ← Cursor.member lastLine afterDot
    match Cursor.symbol? '(' afterName with
    | some ⟨_, inside, hinside⟩ =>
      let ⟨arguments, rest, harguments⟩ ← parseArguments lastLine inside
      let suffixed ← parseSuffixes lastLine (call receiver name arguments) rest
      return ((((suffixed.weaken harguments).after hinside).after hname).after hdot).optional
    | none =>
      let suffixed ← parseSuffixes lastLine (property receiver name) afterName
      return ((suffixed.weaken hname).after hdot).optional
termination_by 5 * tokens.length

/-- Takes the arguments of a call and the closing parenthesis. -/
def parseArguments (lastLine : Nat) (tokens : List Token) : Parsed (List Expr) tokens.length :=
  match Cursor.symbol? ')' tokens with
  | some closing => return closing.map fun _ => []
  | none => do
    let ⟨arguments, rest, harguments⟩ ← parseList lastLine tokens
    let closing ← Cursor.symbol lastLine ')' rest
    return (closing.map fun _ => arguments).after harguments
termination_by 5 * tokens.length + 5

/-- Takes one or more expressions with commas between them. -/
def parseList (lastLine : Nat) (tokens : List Token) : Parsed (List Expr) tokens.length := do
  let ⟨first, afterFirst, hfirst⟩ ← parseTernary lastLine tokens
  match Cursor.symbol? ',' afterFirst with
  | none => return ⟨[first], afterFirst, hfirst⟩
  | some ⟨_, afterComma, hcomma⟩ =>
    let others ← parseList lastLine afterComma
    return ((others.map (first :: ·)).after hcomma).after hfirst
termination_by 5 * tokens.length + 4

end

/-- The expression that a text is, if it is exactly one. -/
def parse (text : String) : Except ParseError Expr := do
  let list ← tokenize text
  let step ← parseTernary list.lastLine list.tokens
  match step.rest with
  | [] => return step.value
  | token :: _ => throw (.onLine token.line (.tokensAfterExpression token.lexeme.text))

end Expr

end GuardedLogging
