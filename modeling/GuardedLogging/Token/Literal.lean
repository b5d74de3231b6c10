import GuardedLogging.Number.Binary64
import GuardedLogging.Scalar
import GuardedLogging.Text.Digit

/-!
# Literals

A text literal stands between double or single quotes. A backslash takes away the meaning of the character after it and gives four letters one: line feed, tab and carriage return. Literals are written with double quotes, and with a backslash for exactly the five characters that need one.
-/

namespace GuardedLogging

namespace Literal

/-- What a backslash in front of a character stands for. -/
def unescape : Char → Char
  | 'n' => '\n'
  | 't' => '\t'
  | 'r' => '\r'
  | c => c

/-- The text between the quotes of a literal, with its escapes replaced. -/
def unescapeAll : List Char → List Char
  | '\\' :: c :: rest => unescape c :: unescapeAll rest
  | c :: rest => c :: unescapeAll rest
  | [] => []

/-- The text that a literal denotes. -/
def unquote (literal : List Char) : List Char :=
  unescapeAll (literal.drop 1).dropLast

def escape (c : Char) : List Char :=
  match c with
  | '\\' => ['\\', '\\']
  | '"' => ['\\', '"']
  | '\n' => ['\\', 'n']
  | '\t' => ['\\', 't']
  | '\r' => ['\\', 'r']
  | _ => [c]

/-- The literal that denotes a text. -/
def quote (text : List Char) : List Char :=
  '"' :: text.flatMap escape ++ ['"']

/-- The number written by digits, with a fraction if there is a point among them. -/
def numberValue (text : List Char) : Scalar :=
  let (whole, rest) := text.span (· != '.')
  match rest with
  | [] => .int (digitsValue whole)
  | _ :: fraction => .real (.ofDecimal false (digitsValue (whole ++ fraction)) (-fraction.length))

/-- A scalar as it stands in a source. -/
def ofScalar : Scalar → String
  | .null => "null"
  | .bool true => "true"
  | .bool false => "false"
  | .text value => String.ofList (quote value.toList)
  | other => other.shown

theorem unescapeAll_escape_append (c : Char) (rest : List Char) :
    unescapeAll (escape c ++ rest) = c :: unescapeAll rest := by
  unfold escape
  split
  · rfl
  · rfl
  · rfl
  · rfl
  · rfl
  · rename_i hbackslash _ _ _ _
    rw [List.singleton_append, unescapeAll]
    intro next tail hc
    exact absurd hc hbackslash

theorem unescapeAll_flatMap_escape (text : List Char) : unescapeAll (text.flatMap escape) = text := by
  induction text with
  | nil => rfl
  | cons c rest ih => rw [List.flatMap_cons, unescapeAll_escape_append, ih]

/-- A written literal denotes the text it was written for. -/
theorem unquote_quote (text : List Char) : unquote (quote text) = text := by
  simp [unquote, quote, unescapeAll_flatMap_escape]

end Literal

end GuardedLogging
