import GuardedLogging.Document

/-!
# Documents written as JSON

The text is ASCII: other characters are escaped as UTF-16 units. Keys are written in the order they have in the document. A value for which only YAML has words is written as the text that it is in running text.
-/

namespace GuardedLogging

namespace Document

/-- The UTF-16 units of a character. -/
def utf16Units (c : Char) : List Nat :=
  let code := c.toNat
  if code < 0x10000 then [code]
  else [0xD800 + (code - 0x10000) / 0x400, 0xDC00 + (code - 0x10000) % 0x400]

def jsonEscape (c : Char) : List Char :=
  match c with
  | '"' => ['\\', '"']
  | '\\' => ['\\', '\\']
  | '\n' => ['\\', 'n']
  | '\r' => ['\\', 'r']
  | '\t' => ['\\', 't']
  | '\x08' => ['\\', 'b']
  | '\x0c' => ['\\', 'f']
  | _ =>
    if ' ' ≤ c && c ≤ '~' then [c]
    else (utf16Units c).flatMap fun unit => '\\' :: 'u' :: Hex.lower 4 unit

def jsonText (text : String) : String :=
  String.ofList ('"' :: text.toList.flatMap jsonEscape ++ ['"'])

/-- Numbers that are not finite are written by name. -/
def jsonReal : FloatLayout := ⟨-4, 16, "Infinity", "NaN"⟩

def jsonScalar : Scalar → String
  | .null => "null"
  | .bool true => "true"
  | .bool false => "false"
  | .int value => toString value
  | .real value => jsonReal.render value
  | .text value => jsonText value

/-- A key that is no text is written as the text of its value. -/
def jsonKey : Key → String
  | .text key => jsonText key
  | .scalar other => jsonText (jsonScalar other)
  | .foreign value => jsonText value.plain

/-- A line break and the indentation of a level, if parts stand on lines of their own. -/
def jsonBreak (indent : Option Nat) (level : Nat) : String :=
  match indent with
  | none => ""
  | some width => String.ofList ('\n' :: List.replicate (width * level) ' ')

def jsonJoin (indent : Option Nat) (level : Nat) (opening closing : String) (parts : List String) :
    String :=
  if parts.isEmpty then opening ++ closing
  else
    let separator := if indent.isSome then "," ++ jsonBreak indent (level + 1) else ", "
    opening ++ jsonBreak indent (level + 1) ++ separator.intercalate parts
      ++ jsonBreak indent level ++ closing

mutual

private def jsonAt (indent : Option Nat) (level : Nat) : Document → String
  | scalar value => jsonScalar value
  | list items => jsonJoin indent level "[" "]" (jsonItems indent (level + 1) items)
  | mapping entries => jsonJoin indent level "\x7b" "\x7d" (jsonEntries indent (level + 1) entries)
  | foreign value => jsonText value.plain

private def jsonItems (indent : Option Nat) (level : Nat) : List Document → List String
  | [] => []
  | item :: rest => jsonAt indent level item :: jsonItems indent level rest

private def jsonEntries (indent : Option Nat) (level : Nat) : List (Key × Document) → List String
  | [] => []
  | (key, value) :: rest =>
    (jsonKey key ++ ": " ++ jsonAt indent level value) :: jsonEntries indent level rest

end

/-- The document as JSON: on one line, or with the parts of lists and mappings on lines of their own, indented by the given width. -/
def toJson (document : Document) (indent : Option Nat := none) : String :=
  jsonAt indent 0 document

end Document

end GuardedLogging
