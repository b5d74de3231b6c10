import GuardedLogging.Proofs.Token.Lines

/-!
# Indentation and tokens

Blanks in front of a line are not seen: the tokens of a text, the lines they are on and the place where no piece fits stay the same if the lines are indented otherwise. That takes lines that end by themselves. A comment or a literal that opens in a line and does not close there would make the next line, and with it the blanks in front of that, a part of its own.
-/

namespace GuardedLogging

namespace Scan

/-! ### Lines that end by themselves -/

/-- No comment opens in the text, and every literal in it is closed. -/
inductive EndsItself : List Char → Prop
  | nil : EndsItself []
  | plain {c : Char} {rest : List Char} (hc : opensNothing c = true) (h : EndsItself rest) : EndsItself (c :: rest)
  | literal (text : List Char) {rest : List Char} (h : EndsItself rest) : EndsItself (Literal.quote text ++ rest)

namespace EndsItself

variable {front back : List Char}

theorem append (hfront : EndsItself front) (hback : EndsItself back) : EndsItself (front ++ back) := by
  induction hfront with
  | nil => exact hback
  | plain hc _ ih => exact .plain hc ih
  | literal text _ ih =>
    rw [List.append_assoc]
    exact .literal text ih

theorem of_all (h : ∀ c ∈ front, opensNothing c = true) : EndsItself front := by
  induction front with
  | nil => exact .nil
  | cons c front ih =>
    obtain ⟨hc, hfront⟩ := List.forall_mem_cons.mp h
    exact .plain hc (ih hfront)

theorem of_append (h : EndsItself (front ++ back)) (hfront : ∀ c ∈ front, opensNothing c = true) :
    EndsItself back := by
  induction front with
  | nil => exact h
  | cons c front ih =>
    obtain ⟨hc, hfront⟩ := List.forall_mem_cons.mp hfront
    refine ih ?_ hfront
    generalize hinput : (c :: front) ++ back = input at h
    cases h with
    | nil => cases hinput
    | plain _ h =>
      cases hinput
      exact h
    | literal text h =>
      cases (List.cons.inj hinput).1
      exact absurd hc (by decide)

end EndsItself

/-! ### Pieces of a line that ends by itself -/

theorem takeNumber_append_break (line rest : List Char) :
    takeNumber (line ++ '\n' :: rest) = ((takeNumber line).1, (takeNumber line).2 ++ '\n' :: rest) := by
  have hbreak : isDecimalDigit '\n' = false := by decide
  obtain ⟨htake, hdrop⟩ := takeWhile_append_of_head hbreak line rest
  unfold takeNumber
  simp only [htake, hdrop]
  generalize line.takeWhile isDecimalDigit = whole
  cases line.dropWhile isDecimalDigit with
  | nil => rfl
  | cons c after =>
    by_cases hdot : c = '.'
    · subst hdot
      cases after with
      | nil => simp [hbreak]
      | cons digit after =>
        obtain ⟨htake, hdrop⟩ := takeWhile_append_of_head hbreak after rest
        by_cases hdigit : isDecimalDigit digit = true
        · simp [hdigit, htake, hdrop]
        · simp [hdigit]
    · simp [hdot]

/-- A line that ends by itself and does not start with a blank. -/
structure StartsPiece (line : List Char) : Prop where
  endsItself : EndsItself line
  nonempty : line ≠ []
  head : ∀ c ∈ line.head?, isBlank c = false

namespace StartsPiece

variable {line : List Char}

/-- Whatever follows the line, no more is cut off than its own first piece. -/
theorem takePiece?_append_break (h : StartsPiece line) (rest : List Char) :
    takePiece? (line ++ '\n' :: rest) =
      (takePiece? line).map fun (piece, after) => (piece, after ++ '\n' :: rest) := by
  obtain ⟨hends, hne, hhead⟩ := h
  cases hends with
  | nil => exact absurd rfl hne
  | literal text _ => rw [List.append_assoc, takePiece?_quote, takePiece?_quote, Option.map_some]
  | @plain c line hc _ =>
    rw [List.cons_append, takePiece?_plain hc (hhead c rfl), takePiece?_plain hc (hhead c rfl)]
    have hword : isWordPart '\n' = false := by decide
    obtain ⟨htake, hdrop⟩ := takeWhile_append_of_head hword line rest
    rw [← List.cons_append, takeNumber_append_break, htake, hdrop]
    by_cases hdigit : isDecimalDigit c = true
    · rw [if_pos hdigit, if_pos hdigit, Option.map_some]
    · by_cases hstart : isWordStart c = true
      · rw [if_neg hdigit, if_pos hstart, if_neg hdigit, if_pos hstart, Option.map_some]
      · by_cases hsymbol : isSymbol c = true
        · rw [if_neg hdigit, if_neg hstart, if_pos hsymbol, if_neg hdigit, if_neg hstart, if_pos hsymbol,
            Option.map_some]
        · rw [if_neg hdigit, if_neg hstart, if_neg hsymbol, if_neg hdigit, if_neg hstart, if_neg hsymbol,
            Option.map_none]

/-- What is left of the line ends by itself. -/
theorem endsItself_of_takePiece? (h : StartsPiece line) {piece : Piece} {after : List Char}
    (hpiece : takePiece? line = some (piece, after)) : EndsItself after := by
  obtain ⟨hends, hne, hhead⟩ := h
  have happend := append_of_takePiece? hpiece
  cases hends with
  | nil => exact absurd rfl hne
  | literal text h =>
    rw [takePiece?_quote] at hpiece
    cases hpiece
    exact h
  | @plain c line hc h =>
    have hwhole : EndsItself (piece.text ++ after) := happend ▸ .plain hc h
    refine hwhole.of_append ?_
    rw [takePiece?_plain hc (hhead c rfl)] at hpiece
    intro d hd
    split at hpiece
    · cases hpiece
      rw [Piece.text, Lexeme.text, String.toList_ofList] at hd
      rcases mem_takeNumber hd with hdigit | rfl
      · exact opensNothing_of hdigit (by decide)
      · decide
    · split at hpiece
      · rename_i hstart
        cases hpiece
        rw [Piece.text, Lexeme.text, String.toList_ofList] at hd
        rcases List.mem_cons.mp hd with rfl | hpart
        · exact hc
        · exact opensNothing_of (List.mem_takeWhile_imp hpart) (by decide)
      · split at hpiece
        · cases hpiece
          rw [Piece.text, Lexeme.text, Char.toString_eq_singleton, String.toList_singleton] at hd
          rw [List.mem_singleton.mp hd]
          exact hc
        · cases hpiece

end StartsPiece

/-! ### Texts with the same tokens on the same lines -/

/-- The texts have the same tokens, on the same lines, or both stop at the same character. -/
def Alike (left right : List Char) : Prop := ∀ line, tokensFrom line left = tokensFrom line right

/-- What a piece adds to the tokens behind it. -/
def addPiece (piece : Piece) (line : Nat) (list : TokenList) : TokenList :=
  match piece.lexeme? with
  | some lexeme => { list with tokens := ⟨lexeme, line⟩ :: list.tokens }
  | none => list

theorem tokensFrom_of_takePiece? {input rest : List Char} {piece : Piece} (h : takePiece? input = some (piece, rest))
    (line : Nat) :
    tokensFrom line input = (tokensFrom (line + piece.text.count '\n') rest).map (addPiece piece line) := by
  rw [tokensFrom]
  split
  · rename_i found after hfound
    obtain ⟨rfl, rfl⟩ := Prod.mk.inj (Option.some.inj (hfound.symm.trans h))
    cases htail : tokensFrom (line + found.text.count '\n') after with
    | error error => rfl
    | ok list => cases found with | _ => rfl
  · rename_i hnone
    rw [h] at hnone
    cases hnone

theorem tokensFrom_of_none {c : Char} {rest : List Char} (h : takePiece? (c :: rest) = none) (line : Nat) :
    tokensFrom line (c :: rest) = .error (.onLine line (.unexpectedCharacter c)) := by
  rw [tokensFrom]
  split
  · rename_i hfound
    rw [h] at hfound
    cases hfound
  · rfl

theorem map_addPiece_gap (text : List Char) (line : Nat) (result : Except ParseError TokenList) :
    result.map (addPiece (.gap text) line) = result :=
  congrFun Except.map_id result

/-- A blank is nothing but a line break, if it is one. -/
theorem tokensFrom_blank {c : Char} (h : isBlank c = true) (line : Nat) (rest : List Char) :
    tokensFrom line (c :: rest) = tokensFrom (line + [c].count '\n') rest := by
  rw [tokensFrom_of_takePiece? (takePiece?_blank h rest), map_addPiece_gap, Piece.text]
  cases rest with
  | nil => rfl
  | cons d rest =>
    by_cases hd : isBlank d = true
    · rw [tokensFrom_of_takePiece? (takePiece?_blank hd rest), map_addPiece_gap, Piece.text,
        List.takeWhile_cons_of_pos hd, List.dropWhile_cons_of_pos hd, Nat.add_assoc, ← List.count_append]
      rfl
    · rw [List.takeWhile_cons_of_neg hd, List.dropWhile_cons_of_neg hd]

theorem tokensFrom_indent {indent : String} (h : IsIndent indent) (line : Nat) (rest : List Char) :
    tokensFrom line (indent.toList ++ rest) = tokensFrom line rest := by
  unfold IsIndent at h
  revert h
  induction indent.toList with
  | nil => exact fun _ => rfl
  | cons c blanks ih =>
    intro h
    obtain ⟨hc, hblanks⟩ := List.forall_mem_cons.mp h
    have hblank : isBlank c = true ∧ [c].count '\n' = 0 := by
      rcases hc with rfl | rfl <;> decide
    rw [List.cons_append, tokensFrom_blank hblank.1, hblank.2]
    exact ih hblanks

namespace Alike

variable {left right : List Char}

theorem blank {c : Char} (hc : isBlank c = true) (h : Alike left right) : Alike (c :: left) (c :: right) := by
  intro line
  rw [tokensFrom_blank hc, tokensFrom_blank hc]
  exact h _

theorem indented {indent otherIndent : String} (hindent : IsIndent indent) (hother : IsIndent otherIndent)
    (h : Alike left right) : Alike (indent.toList ++ left) (otherIndent.toList ++ right) := by
  intro line
  rw [tokensFrom_indent hindent, tokensFrom_indent hother]
  exact h line

theorem line {text : List Char} (htext : EndsItself text) (h : Alike left right) :
    Alike (text ++ '\n' :: left) (text ++ '\n' :: right) := by
  induction hlength : text.length using Nat.strongRecOn generalizing text with
  | ind length ih =>
    subst hlength
    intro start
    cases text with
    | nil => exact blank (by decide) h start
    | cons c text =>
      by_cases hc : isBlank c = true
      · have hwhole : EndsItself ([c] ++ text) := htext
        have hrest := hwhole.of_append (List.forall_mem_singleton.mpr (opensNothing_of hc (by decide)))
        exact blank hc (ih text.length (Nat.lt_succ_self _) hrest rfl) start
      · have hstarts : StartsPiece (c :: text) := ⟨htext, List.cons_ne_nil _ _, fun d hd => by
          cases Option.mem_some.mp hd
          exact Bool.eq_false_iff.mpr hc⟩
        cases hpiece : takePiece? (c :: text) with
        | none =>
          have hnone : ∀ rest, takePiece? (c :: text ++ '\n' :: rest) = none := fun rest => by
            rw [hstarts.takePiece?_append_break, hpiece, Option.map_none]
          exact (tokensFrom_of_none (hnone left) start).trans (tokensFrom_of_none (hnone right) start).symm
        | some found =>
          obtain ⟨piece, after⟩ := found
          have hsome : ∀ rest, takePiece? (c :: text ++ '\n' :: rest) = some (piece, after ++ '\n' :: rest) :=
            fun rest => by rw [hstarts.takePiece?_append_break, hpiece, Option.map_some]
          rw [tokensFrom_of_takePiece? (hsome left), tokensFrom_of_takePiece? (hsome right)]
          have hafter := ih after.length (length_lt_of_takePiece? hpiece) (hstarts.endsItself_of_takePiece? hpiece) rfl
          rw [hafter]

end Alike

end Scan

/-! ### Lines that differ in their indentation -/

/-- The lines are the same but for their indentation, and end by themselves. -/
def LineAlike (left right : String) : Prop :=
  ∃ indent otherIndent text, IsIndent indent ∧ IsIndent otherIndent ∧ Scan.EndsItself text.toList ∧
    left = indent ++ text ∧ right = otherIndent ++ text

/-- Line by line the same but for indentation. -/
abbrev LinesAlike : List String → List String → Prop := List.Forall₂ LineAlike

theorem isIndent_empty : IsIndent "" := List.forall_mem_nil _

theorem IsIndent.append {indent other : String} (h : IsIndent indent) (hother : IsIndent other) :
    IsIndent (indent ++ other) := by
  rw [IsIndent, String.toList_append]
  exact List.forall_mem_append.mpr ⟨h, hother⟩

namespace LineAlike

variable {left right text : String}

theorem same (h : Scan.EndsItself text.toList) : LineAlike text text :=
  ⟨"", "", text, isIndent_empty, isIndent_empty, h, String.empty_append.symm, String.empty_append.symm⟩

theorem append {indent otherIndent : String} (hindent : IsIndent indent) (hother : IsIndent otherIndent)
    (h : LineAlike left right) : LineAlike (indent ++ left) (otherIndent ++ right) := by
  obtain ⟨inner, otherInner, text, hinner, hotherInner, htext, rfl, rfl⟩ := h
  exact ⟨indent ++ inner, otherIndent ++ otherInner, text, hindent.append hinner, hother.append hotherInner, htext,
    (String.append_assoc ..).symm, (String.append_assoc ..).symm⟩

/-- An empty line may be left empty instead of being indented. -/
theorem exists_indent {indent inner : String} (hindent : IsIndent indent) (hinner : IsIndent inner) (text : String) :
    ∃ whole, IsIndent whole ∧
      (if (inner ++ text).isEmpty then "" else indent ++ (inner ++ text)) = whole ++ text := by
  by_cases hempty : (inner ++ text).isEmpty = true
  · rw [if_pos hempty]
    have htext : text = "" := (String.append_eq_empty_iff.mp (String.isEmpty_iff.mp hempty)).2
    exact ⟨"", isIndent_empty, by rw [htext, String.append_empty]⟩
  · rw [if_neg hempty]
    exact ⟨indent ++ inner, hindent.append hinner, (String.append_assoc ..).symm⟩

theorem indented {indent otherIndent : String} (hindent : IsIndent indent) (hother : IsIndent otherIndent)
    (h : LineAlike left right) :
    LineAlike (if left.isEmpty then "" else indent ++ left) (if right.isEmpty then "" else otherIndent ++ right) := by
  obtain ⟨inner, otherInner, text, hinner, hotherInner, htext, rfl, rfl⟩ := h
  obtain ⟨whole, hwhole, hleft⟩ := exists_indent hindent hinner text
  obtain ⟨otherWhole, hotherWhole, hright⟩ := exists_indent hother hotherInner text
  exact ⟨whole, otherWhole, text, hwhole, hotherWhole, htext, hleft, hright⟩

end LineAlike

namespace LinesAlike

variable {left right : List String}

theorem alike (h : LinesAlike left right) :
    Scan.Alike (left.flatMap fun line => line.toList ++ ['\n']) (right.flatMap fun line => line.toList ++ ['\n']) := by
  induction h with
  | nil => exact fun _ => rfl
  | cons hline _ ih =>
    obtain ⟨indent, otherIndent, text, hindent, hother, htext, rfl, rfl⟩ := hline
    rw [List.flatMap_cons, List.flatMap_cons, String.toList_append, String.toList_append]
    simp only [List.append_assoc, List.singleton_append]
    exact (ih.line htext).indented hindent hother

/-- Blocks of lines with empty lines between them. -/
theorem blocks {blocks others : List (List String)} (h : List.Forall₂ LinesAlike blocks others) :
    LinesAlike ([""].intercalate blocks) ([""].intercalate others) := by
  cases h with
  | nil => exact .nil
  | cons hfirst hblocks =>
    rw [intercalate_singleton_cons, intercalate_singleton_cons]
    refine List.rel_append hfirst ?_
    induction hblocks with
    | nil => exact .nil
    | cons hblock _ ih => exact .cons (.same .nil) (List.rel_append hblock ih)

theorem toList_lines (first : String) (lines : List String) :
    ("\n".intercalate (first :: lines) ++ "\n").toList
      = (first :: lines).flatMap fun line => line.toList ++ ['\n'] := by
  have hbreaks : (lines.flatMap fun line => "\n".toList ++ line.toList) ++ "\n".toList
      = '\n' :: lines.flatMap fun line => line.toList ++ ['\n'] := by
    induction lines with
    | nil => rfl
    | cons line lines ih =>
      rw [List.flatMap_cons, List.append_assoc, ih, List.flatMap_cons]
      simp
  rw [String.toList_append, toList_intercalate_cons, List.append_assoc, hbreaks, List.flatMap_cons]
  simp

theorem tokenize_eq (h : LinesAlike left right) :
    tokenize ("\n".intercalate left ++ "\n") = tokenize ("\n".intercalate right ++ "\n") := by
  have halike := h.alike
  cases h with
  | nil => rfl
  | cons _ _ =>
    rw [tokenize, tokenize, toList_lines, toList_lines]
    exact halike 1

end LinesAlike

end GuardedLogging
