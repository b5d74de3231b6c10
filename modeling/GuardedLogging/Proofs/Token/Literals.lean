import GuardedLogging.Proofs.Token.Layout

/-!
# Literals in any context

A text is written as a literal by replacing five characters in it, all occurrences of one after all occurrences of another. Each replacement looks at single characters, and none of them finds what an earlier one has put in, since the backslash, which all of them put in, is replaced first. So they come to one replacement of each character of the text.

What is put in has no line break, and every quote in it has a backslash of its own in front. So a literal stays on its line and ends at its closing quote, whatever stands behind it.
-/

namespace GuardedLogging

namespace Literal

/-! ### One replacement after another -/

/-- A character, and what stands for it in a literal. -/
structure Replacement where
  old : Char
  new : List Char

/-- The text with all occurrences of the character replaced. -/
def replace (text : List Char) (step : Replacement) : List Char :=
  text.flatMap fun c => if c = step.old then step.new else [c]

/-- The replacements in the order in which they are made. -/
def replacements : List Replacement :=
  [⟨'\\', ['\\', '\\']⟩, ⟨'"', ['\\', '"']⟩, ⟨'\n', ['\\', 'n']⟩, ⟨'\t', ['\\', 't']⟩, ⟨'\r', ['\\', 'r']⟩]

/-- Making replacements one after another in a text is making them one after another in each of its characters. -/
theorem foldl_replace_eq_flatMap (steps : List Replacement) (text : List Char) :
    steps.foldl replace text = text.flatMap fun c => steps.foldl replace [c] := by
  -- On the replacements, for all texts: each of them changes the text that the next ones see.
  induction steps generalizing text with
  | nil => exact (List.flatMap_singleton' text).symm
  | cons step steps ih =>
    rw [List.foldl_cons, ih, replace, List.flatMap_assoc]
    apply List.flatMap_congr
    intro c _
    rw [List.foldl_cons, ih (replace [c] step), replace, List.flatMap_singleton]

theorem foldl_replacements_singleton (c : Char) : replacements.foldl replace [c] = escape c := by
  unfold escape
  split
  · rfl
  · rfl
  · rfl
  · rfl
  · rfl
  · rename_i hbackslash hquote hbreak htab hreturn
    -- No replacement is for `c`, so each leaves it as it is.
    simp only [replacements, List.foldl_cons, List.foldl_nil, replace, List.flatMap_singleton, if_neg hbackslash,
      if_neg hquote, if_neg hbreak, if_neg htab, if_neg hreturn]

theorem quote_eq_foldl_replacements (text : List Char) :
    quote text = '"' :: replacements.foldl replace text ++ ['"'] := by
  rw [foldl_replace_eq_flatMap, quote]
  simp only [foldl_replacements_singleton]

/-! ### Literals stay on their line -/

theorem break_not_mem_escape (c : Char) : '\n' ∉ escape c := by
  unfold escape
  split
  · decide
  · decide
  · decide
  · decide
  · decide
  · rename_i _ _ hbreak _ _
    intro hmem
    exact hbreak (List.mem_singleton.mp hmem).symm

theorem break_not_mem_quote (text : List Char) : '\n' ∉ quote text := by
  intro hmem
  simp only [quote, List.cons_append, List.mem_cons, List.mem_append, List.mem_flatMap, List.not_mem_nil,
    or_false] at hmem
  rcases hmem with hopening | ⟨c, _, hc⟩ | hclosing
  · exact absurd hopening (by decide)
  · exact break_not_mem_escape c hc
  · exact absurd hclosing (by decide)

end Literal

namespace Scan

/-- The tokens of a text that starts with a literal are the literal and, from the same line on, those of what stands behind it. -/
theorem tokensFrom_quote (text rest : List Char) (line : Nat) :
    tokensFrom line (Literal.quote text ++ rest) =
      (tokensFrom line rest).map (addPiece (.token (.literal (String.ofList (Literal.quote text)))) line) := by
  have hbreaks : (Literal.quote text).count '\n' = 0 := List.count_eq_zero.mpr (Literal.break_not_mem_quote text)
  rw [tokensFrom_of_takePiece? (takePiece?_quote text rest), Piece.text, Lexeme.text, String.toList_ofList, hbreaks,
    Nat.add_zero]

end Scan

open Scan in
/-- The literal of a text is the text with the replacements made in it, between double quotes. Whatever stands behind it, what is cut off at its start is the whole literal, which has no line break in it and denotes the text; the scanner, on whatever line it is, then goes on with what stands behind, and fails only where that fails. -/
theorem literals_are_read_back (text rest : String) :
    let literal := Literal.ofScalar (.text text)
    literal.toList = '"' :: Literal.replacements.foldl Literal.replace text.toList ++ ['"'] ∧
      takePiece? (literal ++ rest).toList = some (.token (.literal literal), rest.toList) ∧
      (∀ line, tokensFrom line (literal ++ rest).toList =
        (tokensFrom line rest.toList).map fun list => { list with tokens := ⟨.literal literal, line⟩ :: list.tokens }) ∧
      '\n' ∉ literal.toList ∧ String.ofList (Literal.unquote literal.toList) = text := by
  intro literal
  have hliteral : literal.toList = Literal.quote text.toList := String.toList_ofList
  rw [String.toList_append, hliteral]
  refine ⟨Literal.quote_eq_foldl_replacements _, takePiece?_quote _ _, tokensFrom_quote _ _,
    Literal.break_not_mem_quote _, ?_⟩
  rw [Literal.unquote_quote, String.ofList_toList]

/-- Both kinds of quotes, in front of another literal. -/
example : tokenize (Literal.ofScalar (.text "\\\"'\n\t\r") ++ "\"a\"") =
    .ok ⟨[⟨.literal "\"\\\\\\\"'\\n\\t\\r\"", 1⟩, ⟨.literal "\"a\"", 1⟩], 1⟩ := by
  decide +kernel

end GuardedLogging
