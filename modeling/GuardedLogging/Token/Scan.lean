import GuardedLogging.ParseError
import GuardedLogging.Text.Digit
import GuardedLogging.Token

/-!
# From a source to its tokens

The source is cut into pieces from the front: blanks, comments and lexemes. Each piece is as long as its kind allows, and the pieces together are the source. A lexeme becomes a token with the line it starts on; where no piece fits, the character there is reported.
-/

namespace GuardedLogging

/-- A part of a source: something between tokens, or a lexeme. -/
inductive Piece where
  | gap (text : List Char)
  | token (lexeme : Lexeme)
deriving DecidableEq, Repr

namespace Piece

def text : Piece → List Char
  | gap text => text
  | token lexeme => lexeme.text.toList

def lexeme? : Piece → Option Lexeme
  | gap _ => none
  | token lexeme => some lexeme

end Piece

namespace Scan

def isBlank (c : Char) : Bool :=
  c == ' ' || c == '\t' || c == '\r' || c == '\n'

def isWordStart (c : Char) : Bool := c.isAlpha || c == '_'

def isWordPart (c : Char) : Bool := c.isAlphanum || c == '_'

def isSymbol (c : Char) : Bool :=
  ['@', '\x7b', '\x7d', '(', ')', '=', ',', ';', '.', '?', ':', '!'].contains c

/-- The front of the input up to the end of a block comment. -/
def takeBlock : List Char → Option (List Char × List Char)
  | '*' :: '/' :: rest => some (['*', '/'], rest)
  | c :: rest => (takeBlock rest).map fun (text, rest) => (c :: text, rest)
  | [] => none

/-- The front of the input up to the closing quote of a literal. A line break belongs to it only behind a backslash. -/
def takeLiteral (quote : Char) : List Char → Option (List Char × List Char)
  | '\\' :: c :: rest =>
    (takeLiteral quote rest).map fun (text, rest) => ('\\' :: c :: text, rest)
  | c :: rest =>
    if c == quote then some ([c], rest)
    else if c == '\n' || c == '\\' then none
    else (takeLiteral quote rest).map fun (text, rest) => (c :: text, rest)
  | [] => none

/-- The digits at the front of the input, with a fraction if a point and a digit follow. -/
def takeNumber (input : List Char) : List Char × List Char :=
  let whole := input.takeWhile isDecimalDigit
  match input.dropWhile isDecimalDigit with
  | '.' :: c :: rest =>
    if isDecimalDigit c then
      (whole ++ '.' :: c :: rest.takeWhile isDecimalDigit, rest.dropWhile isDecimalDigit)
    else
      (whole, '.' :: c :: rest)
  | rest => (whole, rest)

/-- The first piece of the input and what is left. -/
def takePiece? : List Char → Option (Piece × List Char)
  | [] => none
  | '/' :: '/' :: rest =>
    some (.gap ('/' :: '/' :: rest.takeWhile (· != '\n')), rest.dropWhile (· != '\n'))
  | '/' :: '*' :: rest =>
    (takeBlock rest).map fun (text, rest) => (.gap ('/' :: '*' :: text), rest)
  | c :: rest =>
    if isBlank c then some (.gap (c :: rest.takeWhile isBlank), rest.dropWhile isBlank)
    else if c == '"' || c == '\'' then
      (takeLiteral c rest).map fun (text, rest) =>
        (.token (.literal (String.ofList (c :: text))), rest)
    else if isDecimalDigit c then
      let number := takeNumber (c :: rest)
      some (.token (.number (String.ofList number.1)), number.2)
    else if isWordStart c then
      some (.token (.word (String.ofList (c :: rest.takeWhile isWordPart))), rest.dropWhile isWordPart)
    else if isSymbol c then some (.token (.op c), rest)
    else none

theorem append_of_takeBlock {input text rest : List Char} (h : takeBlock input = some (text, rest)) :
    text ++ rest = input := by
  fun_induction takeBlock input generalizing text rest with
  | case1 tail =>
    obtain ⟨rfl, rfl⟩ := Prod.mk.inj (Option.some.inj h)
    rfl
  | case2 c tail _ ih =>
    obtain ⟨⟨front, back⟩, htail, heq⟩ := Option.map_eq_some_iff.mp h
    obtain ⟨rfl, rfl⟩ := Prod.mk.inj heq
    simp [ih htail]
  | case3 => simp at h

theorem append_of_takeLiteral {quote : Char} {input text rest : List Char}
    (h : takeLiteral quote input = some (text, rest)) : text ++ rest = input := by
  fun_induction takeLiteral quote input generalizing text rest with
  | case1 c tail ih =>
    obtain ⟨⟨front, back⟩, htail, heq⟩ := Option.map_eq_some_iff.mp h
    obtain ⟨rfl, rfl⟩ := Prod.mk.inj heq
    simp [ih htail]
  | case2 c tail _ _ =>
    obtain ⟨rfl, rfl⟩ := Prod.mk.inj (Option.some.inj h)
    rfl
  | case3 c tail _ _ => simp at h
  | case4 c tail _ _ _ ih =>
    obtain ⟨⟨front, back⟩, htail, heq⟩ := Option.map_eq_some_iff.mp h
    obtain ⟨rfl, rfl⟩ := Prod.mk.inj heq
    simp [ih htail]
  | case5 => simp at h

theorem append_takeNumber (input : List Char) :
    (takeNumber input).1 ++ (takeNumber input).2 = input := by
  have hall : input.takeWhile isDecimalDigit ++ input.dropWhile isDecimalDigit = input :=
    List.takeWhile_append_dropWhile
  unfold takeNumber
  simp only
  split
  · rename_i c rest hrest
    rw [hrest] at hall
    split
    · rw [List.append_assoc, List.cons_append, List.cons_append, List.takeWhile_append_dropWhile]
      exact hall
    · exact hall
  · exact hall

theorem append_of_takePiece? {input rest : List Char} {piece : Piece}
    (h : takePiece? input = some (piece, rest)) : piece.text ++ rest = input := by
  unfold takePiece? at h
  split at h
  · simp at h
  · obtain ⟨rfl, rfl⟩ := Prod.mk.inj (Option.some.inj h)
    simp [Piece.text]
  · obtain ⟨⟨front, back⟩, htail, heq⟩ := Option.map_eq_some_iff.mp h
    obtain ⟨rfl, rfl⟩ := Prod.mk.inj heq
    simp [Piece.text, append_of_takeBlock htail]
  · rename_i c tail _ _
    split at h
    · obtain ⟨rfl, rfl⟩ := Prod.mk.inj (Option.some.inj h)
      simp [Piece.text]
    · split at h
      · obtain ⟨⟨front, back⟩, htail, heq⟩ := Option.map_eq_some_iff.mp h
        obtain ⟨rfl, rfl⟩ := Prod.mk.inj heq
        simp [Piece.text, Lexeme.text, append_of_takeLiteral htail]
      · split at h
        · obtain ⟨rfl, rfl⟩ := Prod.mk.inj (Option.some.inj h)
          simp [Piece.text, Lexeme.text, append_takeNumber]
        · split at h
          · obtain ⟨rfl, rfl⟩ := Prod.mk.inj (Option.some.inj h)
            simp [Piece.text, Lexeme.text]
          · split at h
            · obtain ⟨rfl, rfl⟩ := Prod.mk.inj (Option.some.inj h)
              simp [Piece.text, Lexeme.text]
            · simp at h

theorem takeNumber_ne_nil {c : Char} {rest : List Char} (h : isDecimalDigit c = true) :
    (takeNumber (c :: rest)).1 ≠ [] := by
  unfold takeNumber
  rw [List.takeWhile_cons_of_pos h]
  simp only
  split
  · split <;> simp
  · simp

theorem text_ne_nil_of_takePiece? {input rest : List Char} {piece : Piece}
    (h : takePiece? input = some (piece, rest)) : piece.text ≠ [] := by
  unfold takePiece? at h
  split at h
  · simp at h
  · obtain ⟨rfl, rfl⟩ := Prod.mk.inj (Option.some.inj h)
    simp [Piece.text]
  · obtain ⟨⟨front, back⟩, htail, heq⟩ := Option.map_eq_some_iff.mp h
    obtain ⟨rfl, rfl⟩ := Prod.mk.inj heq
    simp [Piece.text]
  · rename_i c tail _ _
    split at h
    · obtain ⟨rfl, rfl⟩ := Prod.mk.inj (Option.some.inj h)
      simp [Piece.text]
    · split at h
      · obtain ⟨⟨front, back⟩, htail, heq⟩ := Option.map_eq_some_iff.mp h
        obtain ⟨rfl, rfl⟩ := Prod.mk.inj heq
        simp [Piece.text, Lexeme.text]
      · split at h
        · rename_i hdigit
          obtain ⟨rfl, rfl⟩ := Prod.mk.inj (Option.some.inj h)
          simpa [Piece.text, Lexeme.text] using takeNumber_ne_nil hdigit
        · split at h
          · obtain ⟨rfl, rfl⟩ := Prod.mk.inj (Option.some.inj h)
            simp [Piece.text, Lexeme.text]
          · split at h
            · obtain ⟨rfl, rfl⟩ := Prod.mk.inj (Option.some.inj h)
              simp [Piece.text, Lexeme.text]
            · simp at h

theorem length_lt_of_takePiece? {input rest : List Char} {piece : Piece}
    (h : takePiece? input = some (piece, rest)) : rest.length < input.length := by
  have hpositive := List.length_pos_iff.mpr (text_ne_nil_of_takePiece? h)
  rw [← append_of_takePiece? h, List.length_append]
  omega

/-- The tokens of the input, which starts on the given line. -/
def tokensFrom (line : Nat) (input : List Char) : Except ParseError TokenList :=
  match h : takePiece? input with
  | some (piece, rest) =>
    have := length_lt_of_takePiece? h
    match tokensFrom (line + piece.text.count '\n') rest with
    | .error error => .error error
    | .ok list =>
      match piece.lexeme? with
      | some lexeme => .ok { list with tokens := ⟨lexeme, line⟩ :: list.tokens }
      | none => .ok list
  | none =>
    match input with
    | [] => .ok ⟨[], line⟩
    | c :: _ => .error (.onLine line (.unexpectedCharacter c))
termination_by input.length

end Scan

/-- The tokens of a source. -/
def tokenize (source : String) : Except ParseError TokenList :=
  Scan.tokensFrom 1 source.toList

end GuardedLogging
