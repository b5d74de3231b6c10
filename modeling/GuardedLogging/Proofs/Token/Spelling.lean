import GuardedLogging.Proofs.General.Joined
import GuardedLogging.Proofs.General.Lists
import GuardedLogging.Proofs.General.Texts
import GuardedLogging.Token.Literal
import GuardedLogging.Token.Scan
import Mathlib.Data.List.TakeDrop

/-!
# Texts that spell lexemes

What a text is cut into does not depend on the line that it starts on, so the lexemes of a text are a relation between texts and lexemes alone. A written lexeme is cut off again as it was written, as long as what follows does not go on with it: a word or a number ends where no letter, digit or fraction follows, and symbols and literals end by themselves.

Some texts cannot be cut: a number with an exponent has a sign in it that belongs to no piece. So the rules are stated for every relation that follows the cutting, of which there are two: what a text is cut into, and what it is cut into if it can be cut at all.
-/

namespace GuardedLogging

namespace Scan

/-- The lexemes that a text is cut into. -/
inductive Cut : List Char → List Lexeme → Prop
  | nil : Cut [] []
  | piece {input rest : List Char} {piece : Piece} {lexemes : List Lexeme}
      (h : takePiece? input = some (piece, rest)) (tail : Cut rest lexemes) :
      Cut input (piece.lexeme?.toList ++ lexemes)

theorem tokensFrom_of_cut {input : List Char} {lexemes : List Lexeme} (h : Cut input lexemes)
    (line : Nat) :
    ∃ list, tokensFrom line input = .ok list ∧ list.tokens.map Token.lexeme = lexemes := by
  induction h generalizing line with
  | nil => exact ⟨⟨[], line⟩, by rw [tokensFrom]; rfl, rfl⟩
  | @piece input rest piece lexemes h _ ih =>
    obtain ⟨list, hlist, hlexemes⟩ := ih (line + piece.text.count '\n')
    rw [tokensFrom]
    split
    · rename_i found after hfound
      obtain ⟨rfl, rfl⟩ := Prod.mk.inj (Option.some.inj (hfound.symm.trans h))
      simp only [hlist]
      cases found with
      | gap text => exact ⟨list, rfl, hlexemes⟩
      | token lexeme => exact ⟨_, rfl, congrArg (lexeme :: ·) hlexemes⟩
    · rename_i hnone
      rw [h] at hnone
      cases hnone

theorem cut_of_tokensFrom {line : Nat} {input : List Char} {list : TokenList}
    (h : tokensFrom line input = .ok list) : Cut input (list.tokens.map Token.lexeme) := by
  fun_induction tokensFrom line input generalizing list with
  | case1 line input piece rest hpiece _ error herror => cases h
  | case2 line input piece rest hpiece _ after hafter lexeme hlexeme ih =>
    cases h
    have hcut := Cut.piece hpiece (ih hafter)
    rwa [hlexeme] at hcut
  | case3 line input piece rest hpiece _ after hafter hgap ih =>
    cases h
    have hcut := Cut.piece hpiece (ih hafter)
    rwa [hgap] at hcut
  | case4 line _ =>
    cases h
    exact .nil
  | case5 line c rest _ => cases h

/-! ### Relations that follow the cutting -/

theorem Cut.exists_of_takePiece? {input rest : List Char} {piece : Piece} {all : List Lexeme}
    (hpiece : takePiece? input = some (piece, rest)) (h : Cut input all) :
    ∃ lexemes, Cut rest lexemes ∧ all = piece.lexeme?.toList ++ lexemes := by
  cases h with
  | nil => cases hpiece
  | piece hfirst tail =>
    obtain ⟨rfl, rfl⟩ := Prod.mk.inj (Option.some.inj (hfirst.symm.trans hpiece))
    exact ⟨_, tail, rfl⟩

theorem takePiece?_blank {c : Char} (h : isBlank c = true) (rest : List Char) :
    takePiece? (c :: rest) = some (.gap (c :: rest.takeWhile isBlank), rest.dropWhile isBlank) := by
  simp only [isBlank, Bool.or_eq_true, beq_iff_eq] at h
  rcases h with ((rfl | rfl) | rfl) | rfl <;> rfl

theorem cut_dropWhile_isBlank {input : List Char} {lexemes : List Lexeme} :
    Cut (input.dropWhile isBlank) lexemes ↔ Cut input lexemes := by
  cases input with
  | nil => exact Iff.rfl
  | cons c rest =>
    by_cases hblank : isBlank c = true
    · rw [List.dropWhile_cons_of_pos hblank]
      constructor
      · exact .piece (takePiece?_blank hblank rest)
      · intro h
        obtain ⟨_, htail, rfl⟩ := h.exists_of_takePiece? (takePiece?_blank hblank rest)
        exact htail
    · rw [List.dropWhile_cons_of_neg hblank]

/-- A relation between texts and lexemes that goes on piece by piece and does not see the blanks in front of a text. -/
structure Cutting where
  Relates : List Char → List Lexeme → Prop
  piece : ∀ {input rest : List Char} {piece : Piece} {lexemes : List Lexeme},
    takePiece? input = some (piece, rest) → Relates rest lexemes →
      Relates input (piece.lexeme?.toList ++ lexemes)
  dropBlanks : ∀ {input : List Char} {lexemes : List Lexeme}, Relates input lexemes →
    Relates (input.dropWhile isBlank) lexemes

namespace Cutting

/-- The text is cut into these lexemes. -/
def exact : Cutting := ⟨Cut, .piece, cut_dropWhile_isBlank.mpr⟩

/-- If the text can be cut at all, then into these lexemes and, behind them, some of which this is known. -/
def ifAtAll (known : List Lexeme → Prop) : Cutting where
  Relates input lexemes := ∀ all, Cut input all → ∃ tail, known tail ∧ all = lexemes ++ tail
  piece := by
    intro input rest piece lexemes hpiece h all hcut
    obtain ⟨others, hothers, rfl⟩ := hcut.exists_of_takePiece? hpiece
    obtain ⟨tail, htail, rfl⟩ := h others hothers
    exact ⟨tail, htail, (List.append_assoc _ _ _).symm⟩
  dropBlanks := fun h all hcut => h all (cut_dropWhile_isBlank.mp hcut)

end Cutting

variable {cut : Cutting}

/-! ### Where a lexeme ends -/

/-- The text does not go on with a word or a number in front of it. -/
def Breaks : List Char → Prop
  | [] => True
  | c :: rest => isWordPart c = false ∧ isDecimalDigit c = false ∧
      (c = '.' → ∀ digit ∈ rest.head?, isDecimalDigit digit = false)

theorem breaks_blank {c : Char} (h : isBlank c = true) (rest : List Char) : Breaks (c :: rest) := by
  simp only [isBlank, Bool.or_eq_true, beq_iff_eq] at h
  rcases h with ((rfl | rfl) | rfl) | rfl
  all_goals exact ⟨by decide, by decide, fun hdot => absurd hdot (by decide)⟩

theorem breaks_symbol {symbol : Char} (h : isSymbol symbol = true) (hdot : symbol ≠ '.')
    (rest : List Char) : Breaks (symbol :: rest) := by
  refine ⟨?_, ?_, fun h => absurd h hdot⟩
  all_goals
    simp only [isSymbol, List.contains_iff_mem, List.mem_cons, List.not_mem_nil, or_false] at h
    rcases h with rfl | rfl | rfl | rfl | rfl | rfl | rfl | rfl | rfl | rfl | rfl | rfl <;> decide

theorem takePiece?_symbol {symbol : Char} (h : isSymbol symbol = true) (rest : List Char) :
    takePiece? (symbol :: rest) = some (.token (.op symbol), rest) := by
  simp only [isSymbol, List.contains_iff_mem, List.mem_cons, List.not_mem_nil, or_false] at h
  rcases h with rfl | rfl | rfl | rfl | rfl | rfl | rfl | rfl | rfl | rfl | rfl | rfl <;> rfl

theorem cut_symbol {symbol : Char} {rest : List Char} {lexemes : List Lexeme}
    (h : isSymbol symbol = true) (tail : cut.Relates rest lexemes) :
    cut.Relates (symbol :: rest) (.op symbol :: lexemes) :=
  cut.piece (takePiece?_symbol h rest) tail

theorem cut_blank {c : Char} {rest : List Char} {lexemes : List Lexeme} (h : isBlank c = true)
    (tail : cut.Relates rest lexemes) : cut.Relates (c :: rest) lexemes :=
  cut.piece (takePiece?_blank h rest) (cut.dropBlanks tail)

/-! ### Characters that open nothing -/

/-- Whether the character opens neither a comment nor a literal. -/
def opensNothing (c : Char) : Bool := c != '/' && c != '"' && c != '\''

theorem opensNothing_iff {c : Char} : opensNothing c = true ↔ c ≠ '/' ∧ c ≠ '"' ∧ c ≠ '\'' := by
  simp [opensNothing, and_assoc]

/-- A class of characters that has none of the three in it. -/
theorem opensNothing_of {p : Char → Bool} {c : Char} (h : p c = true)
    (hp : p '/' = false ∧ p '"' = false ∧ p '\'' = false) : opensNothing c = true := by
  have hne {other : Char} (hother : p other = false) : c ≠ other := by
    intro heq
    rw [heq, hother] at h
    cases h
  exact opensNothing_iff.mpr ⟨hne hp.1, hne hp.2.1, hne hp.2.2⟩

/-- What opens nothing and is no blank is cut off as a number, as a word or as a symbol, or not at all. -/
theorem takePiece?_plain {c : Char} (hc : opensNothing c = true) (hblank : isBlank c = false) (rest : List Char) :
    takePiece? (c :: rest) =
      if isDecimalDigit c then
        some (.token (.number (String.ofList (takeNumber (c :: rest)).1)), (takeNumber (c :: rest)).2)
      else if isWordStart c then
        some (.token (.word (String.ofList (c :: rest.takeWhile isWordPart))), rest.dropWhile isWordPart)
      else if isSymbol c then some (.token (.op c), rest)
      else none := by
  obtain ⟨hslash, hdouble, hsingle⟩ := opensNothing_iff.mp hc
  have hquote : (c == '"' || c == '\'') = false := by
    simp only [Bool.or_eq_false_iff, beq_eq_false_iff_ne]
    exact ⟨hdouble, hsingle⟩
  conv => lhs; unfold takePiece?
  split
  · rename_i hnil
    cases hnil
  · rename_i hcons
    exact absurd (List.cons.inj hcons).1 hslash
  · rename_i hcons
    exact absurd (List.cons.inj hcons).1 hslash
  · rename_i hcons
    obtain ⟨rfl, rfl⟩ := List.cons.inj hcons
    rw [hblank, hquote, if_neg Bool.false_ne_true, if_neg Bool.false_ne_true]

/-! ### Words -/

end Scan

/-- Whether the text is one word, which may be a keyword. -/
def isWord (text : String) : Bool :=
  match text.toList with
  | [] => false
  | c :: rest => Scan.isWordStart c && rest.all Scan.isWordPart

/-- Whether the text is a word that may stand for a name. -/
def isName (text : String) : Bool := isWord text && !isKeyword text

namespace Scan

variable {cut : Cutting}

theorem isDecimalDigit_eq_isDigit {c : Char} (h : c.toNat < 128) : isDecimalDigit c = c.isDigit := by
  rw [isDecimalDigit, digitValue?, if_pos h]
  split
  · rename_i hdigit
    rw [hdigit]
    rfl
  · rename_i hdigit
    rw [Bool.eq_false_iff.mpr hdigit]
    rfl

theorem isDecimalDigit_of_isWordStart {c : Char} (h : isWordStart c = true) :
    isDecimalDigit c = false := by
  rw [isWordStart, Bool.or_eq_true, isAlpha_iff, beq_iff_eq] at h
  rcases h with h | rfl
  · rw [isDecimalDigit_eq_isDigit (by omega), Bool.eq_false_iff, Ne, isDigit_iff]
    omega
  · decide

theorem isWordPart_of_isWordStart {c : Char} (h : isWordStart c = true) : isWordPart c = true := by
  rw [isWordStart, Bool.or_eq_true] at h
  rw [isWordPart, Char.isAlphanum]
  rcases h with h | h <;> simp [h]

/-- A part of a word starts neither a gap nor a literal. -/
theorem takePiece?_of_isWordPart {c : Char} (h : isWordPart c = true) (rest : List Char) :
    takePiece? (c :: rest) =
      if isDecimalDigit c then
        some (.token (.number (String.ofList (takeNumber (c :: rest)).1)), (takeNumber (c :: rest)).2)
      else if isWordStart c then
        some (.token (.word (String.ofList (c :: rest.takeWhile isWordPart))), rest.dropWhile isWordPart)
      else if isSymbol c then some (.token (.op c), rest)
      else none := by
  have hblank : isBlank c = false := by
    refine Bool.eq_false_iff.mpr fun hblank => ?_
    simp only [isBlank, Bool.or_eq_true, beq_iff_eq] at hblank
    rcases hblank with ((rfl | rfl) | rfl) | rfl <;> exact absurd h (by decide)
  exact takePiece?_plain (opensNothing_of h (by decide)) hblank rest

theorem Breaks.isWordPart_head {rest : List Char} (h : Breaks rest) : ∀ c ∈ rest.head?, isWordPart c = false := by
  cases rest with
  | nil => exact nofun
  | cons c rest =>
    rintro _ ⟨⟩
    exact h.1

theorem takePiece?_word {c : Char} (h : isWordStart c = true) (rest : List Char) :
    takePiece? (c :: rest)
      = some (.token (.word (String.ofList (c :: rest.takeWhile isWordPart))), rest.dropWhile isWordPart) := by
  rw [takePiece?_of_isWordPart (isWordPart_of_isWordStart h), isDecimalDigit_of_isWordStart h,
    if_neg Bool.false_ne_true, if_pos h]

theorem exists_of_isWord {word : String} (h : isWord word = true) :
    ∃ c part, word.toList = c :: part ∧ isWordStart c = true ∧ ∀ d ∈ part, isWordPart d = true := by
  unfold isWord at h
  split at h
  · cases h
  · rename_i c part hword
    obtain ⟨hstart, hpart⟩ := Bool.and_eq_true_iff.mp h
    exact ⟨c, part, hword, hstart, List.all_eq_true.mp hpart⟩

theorem cut_word {word : String} {rest : List Char} {lexemes : List Lexeme}
    (h : isWord word = true) (hbreaks : Breaks rest) (tail : cut.Relates rest lexemes) :
    cut.Relates (word.toList ++ rest) (.word word :: lexemes) := by
  obtain ⟨c, part, hword, hstart, hpart⟩ := exists_of_isWord h
  obtain ⟨htake, hdrop⟩ := takeWhile_append_of_ends hpart hbreaks.isWordPart_head
  have hpiece := takePiece?_word hstart (part ++ rest)
  rw [htake, hdrop, ← List.cons_append, ← hword, String.ofList_toList] at hpiece
  exact cut.piece hpiece tail

theorem lexeme_cases_of_takePiece? {input rest : List Char} {lexeme : Lexeme}
    (h : takePiece? input = some (.token lexeme, rest)) :
    (∃ text, lexeme = .literal text) ∨
      (∃ digits, lexeme = .number (String.ofList (takeNumber digits).1)) ∨
      (∃ c, ∃ part : List Char, isWordStart c = true ∧
        lexeme = .word (String.ofList (c :: part.takeWhile isWordPart))) ∨
      ∃ symbol, isSymbol symbol = true ∧ lexeme = .op symbol := by
  unfold takePiece? at h
  split at h
  · cases h
  · cases h
  · obtain ⟨⟨_, _⟩, _, heq⟩ := Option.map_eq_some_iff.mp h
    cases heq
  · split at h
    · cases h
    · split at h
      · obtain ⟨⟨_, _⟩, _, heq⟩ := Option.map_eq_some_iff.mp h
        cases heq
        exact .inl ⟨_, rfl⟩
      · split at h
        · cases h
          exact .inr (.inl ⟨_, rfl⟩)
        · split at h
          · rename_i hstart
            cases h
            exact .inr (.inr (.inl ⟨_, _, hstart, rfl⟩))
          · split at h
            · rename_i hsymbol
              cases h
              exact .inr (.inr (.inr ⟨_, hsymbol, rfl⟩))
            · cases h

/-- What is known of every lexeme that can be cut off is known of all lexemes of a text. -/
theorem Cut.forall_mem {p : Lexeme → Prop}
    (hpiece : ∀ {input rest : List Char} {lexeme : Lexeme},
      takePiece? input = some (.token lexeme, rest) → p lexeme)
    {input : List Char} {lexemes : List Lexeme} (h : Cut input lexemes) : ∀ lexeme ∈ lexemes, p lexeme := by
  induction h with
  | nil => exact List.forall_mem_nil _
  | @piece _ _ piece _ hfirst _ ih =>
    refine List.forall_mem_append.mpr ⟨?_, ih⟩
    cases piece with
    | gap text => exact List.forall_mem_nil _
    | token lexeme => exact List.forall_mem_singleton.mpr (hpiece hfirst)

theorem isWord_of_cut {input : List Char} {lexemes : List Lexeme} (h : Cut input lexemes)
    {word : String} (hmem : .word word ∈ lexemes) : isWord word = true := by
  refine h.forall_mem (p := fun lexeme => ∀ word, lexeme = .word word → isWord word = true) ?_ _ hmem word rfl
  rintro input rest _ hpiece word rfl
  rcases lexeme_cases_of_takePiece? hpiece with ⟨_, heq⟩ | ⟨_, heq⟩ | ⟨c, part, hstart, heq⟩ | ⟨_, _, heq⟩
  · cases heq
  · cases heq
  · rw [Lexeme.word.inj heq, isWord, String.toList_ofList]
    show (isWordStart c && (part.takeWhile isWordPart).all isWordPart) = true
    rw [hstart, Bool.true_and, List.all_takeWhile]
  · cases heq

/-! ### Signs -/

/-- Whether the character is the sign of a number or of an exponent. -/
def isSign (c : Char) : Bool := c == '+' || c == '-'

theorem mem_takeNumber {input : List Char} {c : Char} (h : c ∈ (takeNumber input).1) :
    isDecimalDigit c = true ∨ c = '.' := by
  have hdigits : ∀ {digits : List Char}, c ∈ digits.takeWhile isDecimalDigit → isDecimalDigit c = true :=
    fun hmem => List.mem_takeWhile_imp hmem
  unfold takeNumber at h
  simp only at h
  split at h
  · rename_i digit rest _
    split at h
    · rename_i hdigit
      rcases List.mem_append.mp h with hwhole | hfraction
      · exact .inl (hdigits hwhole)
      · rcases List.mem_cons.mp hfraction with hpoint | hback
        · exact .inr hpoint
        · rcases List.mem_cons.mp hback with rfl | hrest
          · exact .inl hdigit
          · exact .inl (hdigits hrest)
    · exact .inl (hdigits h)
  · exact .inl (hdigits h)

/-- No word and no number that was cut off has a sign in it. -/
theorem isSign_eq_false_of_cut {input : List Char} {lexemes : List Lexeme} (h : Cut input lexemes)
    {lexeme : Lexeme} (hmem : lexeme ∈ lexemes) (hliteral : ∀ text, lexeme ≠ .literal text) :
    ∀ c ∈ lexeme.text.toList, isSign c = false := by
  have hsign : ∀ {c : Char}, isSign c = true → c = '+' ∨ c = '-' := fun hc => by
    simpa [isSign] using hc
  refine h.forall_mem
    (p := fun lexeme => (∀ text, lexeme ≠ .literal text) → ∀ c ∈ lexeme.text.toList, isSign c = false)
    (fun hpiece hother c hc => Bool.eq_false_iff.mpr fun hnot => ?_) _ hmem hliteral
  rcases lexeme_cases_of_takePiece? hpiece with
    ⟨text, rfl⟩ | ⟨digits, rfl⟩ | ⟨first, part, hfirst, rfl⟩ | ⟨symbol, hsymbol, rfl⟩
  · exact hother text rfl
  · rw [Lexeme.text, String.toList_ofList] at hc
    rcases mem_takeNumber hc with hdigit | rfl
    · rcases hsign hnot with rfl | rfl <;> exact absurd hdigit (by decide)
    · exact absurd hnot (by decide)
  · rw [Lexeme.text, String.toList_ofList] at hc
    have hpart : isWordPart c = true := by
      rcases List.mem_cons.mp hc with rfl | hrest
      · exact isWordPart_of_isWordStart hfirst
      · exact List.mem_takeWhile_imp hrest
    rcases hsign hnot with rfl | rfl <;> exact absurd hpart (by decide)
  · rw [Lexeme.text, Char.toString_eq_singleton, String.toList_singleton] at hc
    cases List.mem_singleton.mp hc
    rcases hsign hnot with rfl | rfl <;> exact absurd hsymbol (by decide)

/-! ### Literals -/

theorem takeLiteral_escape (c : Char) (input : List Char) :
    takeLiteral '"' (Literal.escape c ++ input) =
      (takeLiteral '"' input).map fun (text, rest) => (Literal.escape c ++ text, rest) := by
  unfold Literal.escape
  split
  · rfl
  · rfl
  · rfl
  · rfl
  · rfl
  · rename_i hbackslash hquote hbreak _ _
    have hplain : (c == '\n' || c == '\\') = false := by
      rw [Bool.or_eq_false_iff, beq_eq_false_iff_ne, beq_eq_false_iff_ne]
      exact ⟨hbreak, hbackslash⟩
    rw [List.singleton_append, takeLiteral, if_neg (by simpa using hquote), hplain]
    · rfl
    · exact fun _ _ hc => absurd hc hbackslash

theorem takeLiteral_flatMap_escape (text rest : List Char) :
    takeLiteral '"' (text.flatMap Literal.escape ++ '"' :: rest)
      = some (text.flatMap Literal.escape ++ ['"'], rest) := by
  induction text with
  | nil => rfl
  | cons c text ih =>
    rw [List.flatMap_cons, List.append_assoc, takeLiteral_escape, ih, Option.map_some,
      List.append_assoc]

theorem takePiece?_quote (text rest : List Char) :
    takePiece? (Literal.quote text ++ rest)
      = some (.token (.literal (String.ofList (Literal.quote text))), rest) := by
  have hquote : Literal.quote text ++ rest
      = '"' :: (text.flatMap Literal.escape ++ '"' :: rest) := by simp [Literal.quote]
  rw [hquote]
  show (takeLiteral '"' (text.flatMap Literal.escape ++ '"' :: rest)).map _ = _
  rw [takeLiteral_flatMap_escape]
  rfl

theorem cut_literal (text : List Char) {rest : List Char} {lexemes : List Lexeme}
    (tail : cut.Relates rest lexemes) :
    cut.Relates (Literal.quote text ++ rest)
      (.literal (String.ofList (Literal.quote text)) :: lexemes) :=
  cut.piece (takePiece?_quote text rest) tail

/-! ### Numbers -/

/-- The digits of a number, or the digits on both sides of its point. -/
inductive IsNumeral : List Char → Prop
  | whole {digits : List Char} (hne : digits ≠ []) (h : digits.all Char.isDigit = true) :
      IsNumeral digits
  | fraction {front back : List Char} (hfront : front ≠ []) (hback : back ≠ [])
      (h : (front ++ back).all Char.isDigit = true) : IsNumeral (front ++ '.' :: back)

/-- The text does not go on with a number in front of it. -/
def EndsNumber : List Char → Prop
  | [] => True
  | c :: rest => isDecimalDigit c = false ∧
      (c = '.' → ∀ digit ∈ rest.head?, isDecimalDigit digit = false)

theorem Breaks.endsNumber {rest : List Char} (h : Breaks rest) : EndsNumber rest := by
  cases rest with
  | nil => trivial
  | cons c rest => exact h.2

theorem isDecimalDigit_of_isDigit {c : Char} (h : c.isDigit = true) : isDecimalDigit c = true := by
  have hrange := isDigit_iff.mp h
  rw [isDecimalDigit_eq_isDigit (by omega), h]

theorem isDecimalDigit_of_all {digits : List Char} (h : digits.all Char.isDigit = true) :
    ∀ c ∈ digits, isDecimalDigit c = true :=
  fun c hc => isDecimalDigit_of_isDigit (List.all_eq_true.mp h c hc)

theorem EndsNumber.head {rest : List Char} (h : EndsNumber rest) :
    ∀ c ∈ rest.head?, isDecimalDigit c = false := by
  cases rest with
  | nil => exact nofun
  | cons c rest =>
    rintro _ ⟨⟩
    exact h.1

/-- Digits, of any script. -/
def IsDigits (text : List Char) : Prop := text ≠ [] ∧ ∀ c ∈ text, isDecimalDigit c = true

/-- Digits of any script, or such digits on both sides of a point. -/
inductive IsNumberText : List Char → Prop
  | whole {digits : List Char} (h : IsDigits digits) : IsNumberText digits
  | fraction {front back : List Char} (hfront : IsDigits front) (hback : IsDigits back) :
      IsNumberText (front ++ '.' :: back)

theorem IsNumeral.isNumberText {text : List Char} (h : IsNumeral text) : IsNumberText text := by
  cases h with
  | whole hne hdigits => exact .whole ⟨hne, isDecimalDigit_of_all hdigits⟩
  | fraction hfront hback hdigits =>
    rw [List.all_append, Bool.and_eq_true] at hdigits
    exact .fraction ⟨hfront, isDecimalDigit_of_all hdigits.1⟩ ⟨hback, isDecimalDigit_of_all hdigits.2⟩

theorem IsDigits.dot_not_mem {text : List Char} (h : IsDigits text) : '.' ∉ text :=
  fun hdot => absurd (h.2 '.' hdot) (by decide)

theorem IsNumberText.exists_cons {text : List Char} (h : IsNumberText text) :
    ∃ c tail, text = c :: tail ∧ isDecimalDigit c = true := by
  cases h with
  | whole h =>
    obtain ⟨c, tail, rfl⟩ := List.exists_cons_of_ne_nil h.1
    exact ⟨c, tail, rfl, h.2 c List.mem_cons_self⟩
  | fraction h _ =>
    obtain ⟨c, tail, rfl⟩ := List.exists_cons_of_ne_nil h.1
    exact ⟨c, _, rfl, h.2 c List.mem_cons_self⟩

/-- The text of a number is taken whole if no digit follows and, unless it has a point, no fraction. -/
theorem takeNumber_append {text rest : List Char} (h : IsNumberText text)
    (hdigit : ∀ c ∈ rest.head?, isDecimalDigit c = false)
    (hpoint : '.' ∉ text → ∀ c after, rest = '.' :: c :: after → isDecimalDigit c = false) :
    takeNumber (text ++ rest) = (text, rest) := by
  unfold takeNumber
  cases h with
  | whole hdigits =>
    obtain ⟨htake, hdrop⟩ := takeWhile_append_of_ends hdigits.2 hdigit
    rw [htake, hdrop]
    simp only
    split
    · rename_i c after
      rw [hpoint hdigits.dot_not_mem c after rfl, if_neg Bool.false_ne_true]
    · rfl
  | @fraction front back hfront hback =>
    have hdot : ∀ c ∈ ('.' :: (back ++ rest)).head?, isDecimalDigit c = false := by
      rintro _ ⟨⟩
      decide
    obtain ⟨htake, hdrop⟩ := takeWhile_append_of_ends hfront.2 hdot
    obtain ⟨digit, back, rfl⟩ := List.exists_cons_of_ne_nil hback.1
    obtain ⟨hfirst, hothers⟩ := List.forall_mem_cons.mp hback.2
    obtain ⟨htakeBack, hdropBack⟩ := takeWhile_append_of_ends hothers hdigit
    rw [List.append_assoc, List.cons_append, htake, hdrop]
    simp only [List.cons_append, hfirst, if_true, htakeBack, hdropBack]

theorem takePiece?_digit {c : Char} (hc : isDecimalDigit c = true) (tail : List Char) :
    takePiece? (c :: tail) =
      some (.token (.number (String.ofList (takeNumber (c :: tail)).1)), (takeNumber (c :: tail)).2) := by
  have hblank : isBlank c = false := by
    refine Bool.eq_false_iff.mpr fun hblank => ?_
    simp only [isBlank, Bool.or_eq_true, beq_iff_eq] at hblank
    rcases hblank with ((rfl | rfl) | rfl) | rfl <;> exact absurd hc (by decide)
  rw [takePiece?_plain (opensNothing_of hc (by decide)) hblank, if_pos hc]

theorem takePiece?_number {text rest : List Char} (h : IsNumeral text) (hends : EndsNumber rest) :
    takePiece? (text ++ rest) = some (.token (.number (String.ofList text)), rest) := by
  have htake : takeNumber (text ++ rest) = (text, rest) := by
    refine takeNumber_append h.isNumberText hends.head fun _ c after hrest => ?_
    subst hrest
    exact hends.2 rfl c rfl
  obtain ⟨c, tail, htext, hc⟩ := h.isNumberText.exists_cons
  rw [htext, List.cons_append] at htake ⊢
  rw [takePiece?_digit hc, htake]

theorem cut_number {text rest : List Char} {lexemes : List Lexeme} (h : IsNumeral text)
    (hbreaks : Breaks rest) (tail : cut.Relates rest lexemes) :
    cut.Relates (text ++ rest) (.number (String.ofList text) :: lexemes) :=
  cut.piece (takePiece?_number h hbreaks.endsNumber) tail

/-- A sign belongs to no piece. -/
theorem not_cut_sign {sign : Char} (h : sign = '+' ∨ sign = '-') (rest : List Char)
    (all : List Lexeme) : ¬Cut (sign :: rest) all := by
  intro hcut
  have hnone : takePiece? (sign :: rest) = none := by
    rcases h with rfl | rfl <;> rfl
  cases hcut with
  | piece hpiece _ =>
    rw [hnone] at hpiece
    cases hpiece

/-- A number with an exponent cannot be cut: the exponent has a sign. -/
theorem not_cut_exponent {text : List Char} (h : IsNumeral text) {sign : Char}
    (hsign : sign = '+' ∨ sign = '-') (rest : List Char) (all : List Lexeme) :
    ¬Cut (text ++ 'e' :: sign :: rest) all := by
  intro hcut
  have hends : EndsNumber ('e' :: sign :: rest) := ⟨by decide, fun hdot => absurd hdot (by decide)⟩
  obtain ⟨_, hexponent, _⟩ := hcut.exists_of_takePiece? (takePiece?_number h hends)
  have hword : takePiece? ('e' :: sign :: rest) = some (.token (.word "e"), sign :: rest) := by
    rcases hsign with rfl | rfl <;> rfl
  obtain ⟨_, hbehind, _⟩ := hexponent.exists_of_takePiece? hword
  exact not_cut_sign hsign rest _ hbehind

end Scan

theorem digitsValue_eq_ofDigitChars {digits : List Char} (h : digits.all Char.isDigit = true) :
    digitsValue digits = Nat.ofDigitChars 10 digits 0 := by
  rw [digitsValue, Nat.ofDigitChars_eq_foldl]
  refine List.foldl_rel rfl fun c hc value other hvalue => ?_
  have hdigit := List.all_eq_true.mp h c hc
  have hrange := isDigit_iff.mp hdigit
  rw [digitValue?, if_pos (by omega), if_pos hdigit, Option.getD_some, hvalue, Nat.mul_comm]

theorem numberValue_toDigits (n : Nat) : Literal.numberValue (Nat.toDigits 10 n) = .int n := by
  have hpoint : ∀ c ∈ Nat.toDigits 10 n, (c != '.') = true := by
    intro c hc
    have hdigit := List.all_eq_true.mp (all_isDigit_toDigits n) c hc
    rw [bne_iff_ne]
    rintro rfl
    exact absurd hdigit (by decide)
  have hspan : (Nat.toDigits 10 n).span (· != '.') = (Nat.toDigits 10 n, []) := by
    rw [List.span_eq_takeWhile_dropWhile, List.takeWhile_eq_self_iff.mpr hpoint,
      List.dropWhile_eq_nil_iff.mpr hpoint]
  rw [Literal.numberValue, hspan]
  simp only
  rw [digitsValue_eq_ofDigitChars (all_isDigit_toDigits n), Nat.ofDigitChars_ten_toDigits]

/-! ### Scalars -/

namespace Scalar

/-- Whether a source can say the scalar: it has no negative numbers. -/
def isWritten : Scalar → Bool
  | int value => 0 ≤ value
  | _ => true

/-- Whether the scalar is a number with a fraction, of which a source may lose digits. -/
def isReal : Scalar → Bool
  | real _ => true
  | _ => false

/-- The lexeme that a scalar is written as, if it can be cut off at all. What is no finite number is written as a word. -/
def lexeme : Scalar → Lexeme
  | null => .word "null"
  | bool true => .word "true"
  | bool false => .word "false"
  | text value => .literal (String.ofList (Literal.quote value.toList))
  | int value => .number (toString value)
  | real (.finite negative significand exponent) =>
    .number (realLayout.render (.finite negative significand exponent))
  | real value => .word (realLayout.render value)

end Scalar

/-! ### Spelled texts -/

/-- In front of all that does not go on with it, the text stands for these lexemes. -/
def Spells (cut : Scan.Cutting) (text : String) (lexemes : List Lexeme) : Prop :=
  ∀ rest next, Scan.Breaks rest → cut.Relates rest next →
    cut.Relates (text.toList ++ rest) (lexemes ++ next)

/-- The text of the scalar stands for its lexeme. -/
def Scalar.IsSpelled (cut : Scan.Cutting) (value : Scalar) : Prop :=
  Spells cut (Literal.ofScalar value) [value.lexeme]

section Spelling

variable {cut : Scan.Cutting}

theorem Scalar.isSpelled_of_not_isReal {value : Scalar} (h : value.isWritten = true)
    (hreal : value.isReal = false) : value.IsSpelled cut := by
  intro rest next hbreaks tail
  cases value with
  | null =>
    have hnull : isWord "null" = true := by decide
    exact Scan.cut_word hnull hbreaks tail
  | bool value =>
    have htruth : isWord "true" = true ∧ isWord "false" = true := by decide
    cases value with
    | true => exact Scan.cut_word htruth.1 hbreaks tail
    | false => exact Scan.cut_word htruth.2 hbreaks tail
  | text value =>
    rw [Literal.ofScalar, String.toList_ofList]
    exact Scan.cut_literal value.toList tail
  | real value => cases hreal
  | int value =>
    obtain ⟨n, rfl⟩ := Int.eq_ofNat_of_zero_le (of_decide_eq_true h)
    have hshown : toString (n : Int) = String.ofList (Nat.toDigits 10 n) := Nat.toString_eq_ofList_toDigits
    show cut.Relates ((toString (n : Int)).toList ++ rest) (.number (toString (n : Int)) :: next)
    rw [hshown, String.toList_ofList]
    exact Scan.cut_number (.whole Nat.toDigits_ne_nil (all_isDigit_toDigits n)) hbreaks tail

theorem spells_intercalate {α : Type} {items : List α} {write : α → String}
    {lexemes : α → List Lexeme} (h : ∀ item ∈ items, Spells cut (write item) (lexemes item)) :
    Spells cut (", ".intercalate (items.map write)) ([.op ','].intercalate (items.map lexemes)) := by
  intro rest next hbreaks tail
  cases items with
  | nil => exact tail
  | cons first items =>
    obtain ⟨hfirst, hitems⟩ := List.forall_mem_cons.mp h
    have hothers :
        Scan.Breaks (((items.map write).flatMap fun text => ", ".toList ++ text.toList) ++ rest) ∧
        cut.Relates (((items.map write).flatMap fun text => ", ".toList ++ text.toList) ++ rest)
          ((items.map lexemes).flatMap (.op ',' :: ·) ++ next) := by
      induction items with
      | nil => exact ⟨hbreaks, tail⟩
      | cons item items ih =>
        obtain ⟨hitem, hrest⟩ := List.forall_mem_cons.mp hitems
        obtain ⟨hends, hcut⟩ := ih (List.forall_mem_cons.mpr ⟨hfirst, hrest⟩) hrest
        simp only [List.map_cons, List.flatMap_cons, List.append_assoc, String.reduceToList,
          List.cons_append, List.nil_append] at hends hcut ⊢
        exact ⟨Scan.breaks_symbol (by decide) (by decide) _, Scan.cut_symbol (by decide)
          (Scan.cut_blank (by decide) (hitem _ _ hends hcut))⟩
    rw [List.map_cons, List.map_cons, toList_intercalate_cons, intercalate_singleton_cons,
      List.append_assoc, List.append_assoc]
    exact hfirst _ _ hothers.1 hothers.2

end Spelling

end GuardedLogging
