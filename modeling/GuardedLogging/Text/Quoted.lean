import GuardedLogging.Text.Hex
import GuardedLogging.Text.Printable

/-!
# Texts quoted in messages

A message shows a text between single quotes, or between double quotes if it has a single quote and no double quote. The quote itself, the backslash and everything that is not printable is escaped, so the text can be read off the message.
-/

namespace GuardedLogging

namespace Quoted

def quoteFor (text : List Char) : Char :=
  if text.contains '\'' && !text.contains '"' then '"' else '\''

def escapeChar (quote c : Char) : List Char :=
  if c == quote || c == '\\' then ['\\', c]
  else if c == '\n' then ['\\', 'n']
  else if c == '\r' then ['\\', 'r']
  else if c == '\t' then ['\\', 't']
  else if isPrintable c then [c]
  else if c.toNat ≤ 0xFF then '\\' :: 'x' :: Hex.lower 2 c.toNat
  else if c.toNat ≤ 0xFFFF then '\\' :: 'u' :: Hex.lower 4 c.toNat
  else '\\' :: 'U' :: Hex.lower 8 c.toNat

end Quoted

/-- A text as messages show it. -/
def quoted (text : String) : String :=
  let quote := Quoted.quoteFor text.toList
  String.ofList (quote :: text.toList.flatMap (Quoted.escapeChar quote) ++ [quote])

/-- A list of texts as messages show it. -/
def quotedList (texts : List String) : String :=
  "[" ++ ", ".intercalate (texts.map quoted) ++ "]"

end GuardedLogging
