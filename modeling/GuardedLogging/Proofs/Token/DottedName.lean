import GuardedLogging.Proofs.Token.Reading
import GuardedLogging.Proofs.Token.Spelling

/-!
# Dotted names

A dotted name starts with a name; its other parts may be any words. It is written without blanks and read part by part, up to where no dot follows.
-/

namespace GuardedLogging

/-- The parts of a text between its dots. -/
def dotParts (name : String) : List String :=
  (name.toList.splitOn '.').map String.ofList

/-- Whether the text is a dotted name. -/
def isDottedName (name : String) : Bool :=
  match dotParts name with
  | [] => false
  | first :: parts => isName first && parts.all isWord

/-- The lexemes of further parts of a dotted name. -/
def partLexemes (parts : List String) : List Lexeme :=
  parts.flatMap fun part => [.op '.', .word part]

/-- The lexemes of a dotted name. -/
def dottedLexemes (name : String) : List Lexeme :=
  match dotParts name with
  | [] => []
  | first :: parts => .word first :: partLexemes parts

theorem isWord_of_isName {name : String} (h : isName name = true) : isWord name = true :=
  (Bool.and_eq_true_iff.mp h).1

theorem isKeyword_of_isName {name : String} (h : isName name = true) : isKeyword name = false := by
  have hkeyword := (Bool.and_eq_true_iff.mp h).2
  rwa [Bool.not_eq_true'] at hkeyword

theorem isWordPart_of_mem {word : String} (h : isWord word = true) {c : Char}
    (hc : c ∈ word.toList) : Scan.isWordPart c = true := by
  unfold isWord at h
  split at h
  · cases h
  · rename_i first rest hword
    obtain ⟨hfirst, hrest⟩ := Bool.and_eq_true_iff.mp h
    rw [hword] at hc
    rcases List.mem_cons.mp hc with rfl | hc
    · exact Scan.isWordPart_of_isWordStart hfirst
    · exact List.all_eq_true.mp hrest c hc

theorem dot_not_mem_of_isWord {word : String} (h : isWord word = true) : '.' ∉ word.toList :=
  fun hdot => absurd (isWordPart_of_mem h hdot) (by decide)

theorem dotParts_eq_singleton {name : String} (h : '.' ∉ name.toList) : dotParts name = [name] := by
  rw [dotParts, List.splitOn_eq_singleton h, List.map_singleton, String.ofList_toList]

theorem dotParts_intercalate {parts : List String} (hne : parts ≠ [])
    (h : ∀ part ∈ parts, isWord part = true) : dotParts (".".intercalate parts) = parts := by
  have hdots : ∀ part ∈ parts.map String.toList, '.' ∉ part := by
    intro part hpart
    obtain ⟨word, hword, rfl⟩ := List.mem_map.mp hpart
    exact dot_not_mem_of_isWord (h word hword)
  rw [dotParts, String.toList_intercalate]
  show (List.splitOn '.' (['.'].intercalate _)).map _ = _
  rw [List.splitOn_intercalate '.' hdots (by simpa using hne), List.map_map]
  exact List.map_id'' (fun part => String.ofList_toList) parts

theorem intercalate_dotParts (name : String) : ".".intercalate (dotParts name) = name := by
  rw [← String.toList_inj, String.toList_intercalate, dotParts, List.map_map]
  have hparts : (name.toList.splitOn '.').map (String.toList ∘ String.ofList)
      = name.toList.splitOn '.' :=
    List.map_id'' (fun part => String.toList_ofList) _
  rw [hparts]
  exact List.intercalate_splitOn '.'

theorem dotParts_append {front back : String} :
    dotParts (front ++ "." ++ back) = dotParts front ++ dotParts back := by
  simp only [dotParts, String.toList_append]
  show List.map _ (List.splitOn '.' (front.toList ++ ['.'] ++ back.toList)) = _
  rw [List.append_assoc, List.singleton_append, List.splitOn_append_cons_self, List.map_append]

/-- The first part of a dotted name is a name, the others are words. -/
theorem dotParts_of_isDottedName {name : String} (h : isDottedName name = true) :
    ∃ first parts, dotParts name = first :: parts ∧ isName first = true ∧
      ∀ part ∈ parts, isWord part = true := by
  unfold isDottedName at h
  split at h
  · cases h
  · rename_i first parts hparts
    obtain ⟨hfirst, hrest⟩ := Bool.and_eq_true_iff.mp h
    exact ⟨first, parts, hparts, hfirst, List.all_eq_true.mp hrest⟩

theorem isDottedName_of_isName {name : String} (h : isName name = true) : isDottedName name = true := by
  rw [isDottedName, dotParts_eq_singleton (dot_not_mem_of_isWord (isWord_of_isName h))]
  simp [h]

/-! ### Writing -/

theorem breaks_dot {word : String} (h : isWord word = true) (rest : List Char) :
    Scan.Breaks ('.' :: (word.toList ++ rest)) := by
  refine ⟨by decide, by decide, fun _ digit hdigit => ?_⟩
  unfold isWord at h
  split at h
  · cases h
  · rename_i first part hword
    rw [hword] at hdigit
    cases Option.mem_some.mp hdigit
    exact Scan.isDecimalDigit_of_isWordStart (Bool.and_eq_true_iff.mp h).1

theorem cut_parts {cut : Scan.Cutting} {parts : List String} (h : ∀ part ∈ parts, isWord part = true)
    {rest : List Char} {lexemes : List Lexeme} (hbreaks : Scan.Breaks rest)
    (tail : cut.Relates rest lexemes) :
    Scan.Breaks ((parts.flatMap fun part => '.' :: part.toList) ++ rest) ∧
      cut.Relates ((parts.flatMap fun part => '.' :: part.toList) ++ rest)
        (partLexemes parts ++ lexemes) := by
  induction parts with
  | nil => exact ⟨hbreaks, tail⟩
  | cons part parts ih =>
    obtain ⟨hpart, hparts⟩ := List.forall_mem_cons.mp h
    obtain ⟨hends, hcut⟩ := ih hparts
    rw [List.flatMap_cons, List.append_assoc, List.cons_append]
    exact ⟨breaks_dot hpart _, Scan.cut_symbol (by decide) (Scan.cut_word hpart hends hcut)⟩

theorem spells_dottedName {cut : Scan.Cutting} {name : String} (h : isDottedName name = true) :
    Spells cut name (dottedLexemes name) := by
  intro rest next hbreaks tail
  obtain ⟨first, parts, hparts, hfirst, hwords⟩ := dotParts_of_isDottedName h
  obtain ⟨hends, hcut⟩ := cut_parts hwords hbreaks tail
  have hname : name.toList = first.toList ++ parts.flatMap fun part => '.' :: part.toList := by
    rw [← intercalate_dotParts name, hparts]
    exact toList_intercalate_cons "." first parts
  rw [hname, dottedLexemes, hparts, List.append_assoc]
  exact Scan.cut_word (isWord_of_isName hfirst) hends hcut

/-! ### Reading -/

/-- All words among the lexemes are words. -/
def AreWords (lexemes : List Lexeme) : Prop := ∀ word, .word word ∈ lexemes → isWord word = true

namespace AreWords

theorem append_iff {front back : List Lexeme} :
    AreWords (front ++ back) ↔ AreWords front ∧ AreWords back := by
  simp only [AreWords, List.mem_append]
  grind

theorem tail {lexeme : Lexeme} {lexemes : List Lexeme} (h : AreWords (lexeme :: lexemes)) :
    AreWords lexemes :=
  fun word hword => h word (List.mem_cons_of_mem lexeme hword)

theorem head {word : String} {lexemes : List Lexeme} (h : AreWords (.word word :: lexemes)) :
    isWord word = true :=
  h word List.mem_cons_self

theorem isName_head {name : String} {lexemes : List Lexeme} (h : AreWords (.word name :: lexemes))
    (hkeyword : isKeyword name = false) : isName name = true := by
  rw [isName, h.head, hkeyword]
  rfl

end AreWords

/-- The lexemes that are left are the last of those that there were. -/
def Leaves (tokens rest : List Token) : Prop := rest.map Token.lexeme <:+ tokens.map Token.lexeme

namespace Leaves

variable {tokens middle rest : List Token}

theorem refl (tokens : List Token) : Leaves tokens tokens := List.suffix_rfl

theorem trans (h : Leaves tokens middle) (hrest : Leaves middle rest) : Leaves tokens rest :=
  List.IsSuffix.trans hrest h

theorem cons (token : Token) (h : Leaves tokens rest) : Leaves (token :: tokens) rest :=
  List.IsSuffix.trans h (List.suffix_cons _ _)

theorem tail {token : Token} (h : Leaves tokens (token :: rest)) : Leaves tokens rest :=
  h.trans ((refl rest).cons token)

theorem dropSemicolons (h : Leaves tokens rest) : Leaves tokens (Cursor.dropSemicolons rest) :=
  h.trans (List.IsSuffix.map Token.lexeme (List.dropWhile_suffix Cursor.isSemicolon))

theorem of_append {lexemes : List Lexeme} (h : tokens.map Token.lexeme = lexemes ++ rest.map Token.lexeme) :
    Leaves tokens rest :=
  ⟨lexemes, h.symm⟩

theorem areWords (h : Leaves tokens rest) (hwords : AreWords (tokens.map Token.lexeme)) :
    AreWords (rest.map Token.lexeme) :=
  fun _ hword => hwords _ (h.subset hword)

end Leaves

namespace Cursor

variable {lastLine : Nat} {tokens rest : List Token}

theorem lexemes_of_nameParts (tokens : List Token) :
    tokens.map Token.lexeme
      = partLexemes (nameParts tokens).value ++ (nameParts tokens).rest.map Token.lexeme := by
  fun_induction nameParts tokens with
  | case1 dotLine name line rest step ih => simp [partLexemes, ih, step]
  | case2 tokens _ => rfl

theorem leaves_of_dottedName {name : String} (h : Gives (dottedName lastLine tokens) name rest) :
    Leaves tokens rest := by
  obtain ⟨first, middle, hfirst, _, rfl⟩ := gives_dottedName_iff.mp h
  obtain ⟨line, rfl, _⟩ := gives_identifier_iff.mp hfirst
  exact (Leaves.of_append (lexemes_of_nameParts middle)).cons _

theorem isDottedName_of_gives {name : String} (hwords : AreWords (tokens.map Token.lexeme))
    (h : Gives (dottedName lastLine tokens) name rest) : isDottedName name = true := by
  obtain ⟨first, middle, hfirst, rfl, rfl⟩ := gives_dottedName_iff.mp h
  obtain ⟨line, rfl, hkeyword⟩ := gives_identifier_iff.mp hfirst
  have hlexemes := lexemes_of_nameParts middle
  have hname : isName first = true := hwords.isName_head hkeyword
  have hmiddle := hwords.tail
  rw [hlexemes] at hmiddle
  obtain ⟨hnames, _⟩ := AreWords.append_iff.mp hmiddle
  have hparts : ∀ part ∈ first :: (nameParts middle).value, isWord part = true := by
    intro part hpart
    rcases List.mem_cons.mp hpart with rfl | hpart
    · exact isWord_of_isName hname
    · exact hnames part (List.mem_flatMap.mpr ⟨part, hpart, by simp⟩)
  have hdots := dotParts_intercalate (List.cons_ne_nil _ _) hparts
  rw [isDottedName, hdots]
  exact Bool.and_eq_true_iff.mpr ⟨hname, List.all_eq_true.mpr (List.forall_mem_cons.mp hparts).2⟩

theorem nameParts_of_lexemes {parts : List String} {after : List Lexeme} (hafter : NotNext '.' after)
    {tokens : List Token} (h : tokens.map Token.lexeme = partLexemes parts ++ after) :
    (nameParts tokens).value = parts ∧ (nameParts tokens).rest.map Token.lexeme = after := by
  induction parts generalizing tokens with
  | nil =>
    have hafterTokens : tokens.map Token.lexeme = after := h
    have hstay : nameParts tokens = .stay [] tokens := by
      unfold nameParts
      split
      · exact absurd (by rw [← hafterTokens]; rfl) hafter
      · rfl
    rw [hstay]
    exact ⟨rfl, hafterTokens⟩
  | cons part parts ih =>
    obtain ⟨dotLine, _, rfl, hpart⟩ := exists_of_map_lexeme_eq_cons h
    obtain ⟨line, rest, rfl, hrest⟩ := exists_of_map_lexeme_eq_cons hpart
    obtain ⟨hvalue, hafter⟩ := ih hrest
    exact ⟨congrArg (part :: ·) hvalue, hafter⟩

theorem reads_identifier {name : String} (h : isName name = true) (after : List Lexeme) :
    Reads (identifier lastLine) (.word name :: after) name after := by
  intro tokens htokens
  obtain ⟨line, rest, rfl, hrest⟩ := exists_of_map_lexeme_eq_cons htokens
  exact ⟨rest, gives_identifier_iff.mpr ⟨line, rfl, isKeyword_of_isName h⟩, hrest⟩

theorem reads_dottedName {name : String} (h : isDottedName name = true) {after : List Lexeme}
    (hafter : NotNext '.' after) :
    Reads (dottedName lastLine) (dottedLexemes name ++ after) name after := by
  intro tokens htokens
  obtain ⟨first, parts, hparts, hfirst, _⟩ := dotParts_of_isDottedName h
  rw [dottedLexemes, hparts] at htokens
  obtain ⟨middle, hgives, hmiddle⟩ := reads_identifier hfirst _ tokens htokens
  obtain ⟨hvalue, hrest⟩ := nameParts_of_lexemes hafter hmiddle
  refine ⟨_, gives_dottedName_iff.mpr ⟨first, middle, hgives, ?_, rfl⟩, hrest⟩
  rw [hvalue, ← hparts, intercalate_dotParts]

end Cursor

end GuardedLogging
