import GuardedLogging.CompilationUnit.Parse
import GuardedLogging.CompilationUnit.Source
import GuardedLogging.Proofs.CompilationUnit.Names
import GuardedLogging.Proofs.Expr.Parsed

/-!
# Heads of declarations are read back

In front of a declared name stand modifiers and a type. The modifiers are written in canonical order and read in any. A type is read as what its written form means in the scope of the reader; whether the type was resolved is not written.
-/

namespace GuardedLogging

open Cursor

variable {lastLine : Nat} {tokens rest : List Token}

/-! ### Modifiers -/

theorem Modifier.ofWord?_eq_some_iff {word : String} {modifier : Modifier} :
    Modifier.ofWord? word = some modifier ↔ word = modifier.word := by
  constructor
  · intro h
    have hfound := List.find?_some h
    exact (beq_iff_eq.mp hfound).symm
  · rintro rfl
    exact Modifier.ofWord?_word modifier

theorem Modifier.ofWord?_eq_none_iff {word : String} :
    Modifier.ofWord? word = none ↔ ∀ modifier : Modifier, word ≠ modifier.word := by
  rw [Option.eq_none_iff_forall_ne_some]
  exact forall_congr' fun modifier => not_congr ofWord?_eq_some_iff

theorem Modifier.isWord_word (modifier : Modifier) : isWord modifier.word = true := by
  cases modifier <;> decide

theorem Modifier.isKeyword_word (modifier : Modifier) : isKeyword modifier.word = true := by
  cases modifier <;> decide

/-- No modifier comes next. -/
def NoModifier (lexemes : List Lexeme) : Prop :=
  ∀ modifier : Modifier, lexemes.head? ≠ some (.word modifier.word)

theorem noModifier_word {word : String} (h : ∀ modifier : Modifier, word ≠ modifier.word)
    (after : List Lexeme) : NoModifier (.word word :: after) :=
  fun modifier hhead => h modifier (Lexeme.word.inj (Option.some.inj hhead))

theorem noModifier_of_isName {name : String} (h : isName name = true) (after : List Lexeme) :
    NoModifier (.word name :: after) :=
  noModifier_word (fun modifier => ne_of_isKeyword (isKeyword_of_isName h) modifier.isKeyword_word) after

namespace Modifiers

theorem eq_cons_or_noModifier (tokens : List Token) :
    (∃ modifier line rest, tokens = ⟨.word (Modifier.word modifier), line⟩ :: rest) ∨
      NoModifier (tokens.map Token.lexeme) := by
  by_cases h : ∃ modifier : Modifier, (tokens.map Token.lexeme).head? = some (.word modifier.word)
  · obtain ⟨modifier, hhead⟩ := h
    obtain ⟨lexemes, hlexemes⟩ := List.head?_eq_some_iff.mp hhead
    obtain ⟨line, rest, rfl, _⟩ := exists_of_map_lexeme_eq_cons hlexemes
    exact .inl ⟨modifier, line, rest, rfl⟩
  · exact .inr (not_exists.mp h)

theorem gives_parse_cons_iff {earlier modifiers : Modifiers} {modifier : Modifier} {line : Nat} :
    Gives (parse earlier (⟨.word modifier.word, line⟩ :: tokens)) modifiers rest ↔
      earlier.contains modifier = false ∧
        Gives (parse (earlier.insert modifier) tokens) modifiers rest := by
  rw [parse, Modifier.ofWord?_word]
  simp only
  cases h : earlier.contains modifier with
  | true => simp
  | false =>
    simp only [Bool.false_eq_true, if_false, Gives.bind_iff, Gives.pure_iff, Step.optional_value,
      Step.optional_rest, true_and]
    constructor
    · rintro ⟨_, _, hothers, rfl, rfl⟩
      exact hothers
    · exact fun hothers => ⟨modifiers, rest, hothers, rfl, rfl⟩

theorem gives_parse_stay_iff {earlier modifiers : Modifiers}
    (h : NoModifier (tokens.map Token.lexeme)) :
    Gives (parse earlier tokens) modifiers rest ↔ earlier = modifiers ∧ tokens = rest := by
  unfold parse
  split
  · rename_i word line after
    cases hword : Modifier.ofWord? word with
    | none => simp
    | some modifier =>
      obtain rfl := Modifier.ofWord?_eq_some_iff.mp hword
      exact absurd rfl (h modifier)
  · simp

theorem leaves_of_parse {earlier modifiers : Modifiers}
    (h : Gives (parse earlier tokens) modifiers rest) : Leaves tokens rest := by
  induction tokens generalizing earlier with
  | nil =>
    have hno : NoModifier (([] : List Token).map Token.lexeme) :=
      fun _ => (Option.some_ne_none _).symm
    obtain ⟨_, rfl⟩ := (gives_parse_stay_iff hno).mp h
    exact .refl _
  | cons token tokens ih =>
    rcases eq_cons_or_noModifier (token :: tokens) with ⟨modifier, line, after, heq⟩ | hno
    · cases heq
      exact (ih (gives_parse_cons_iff.mp h).2).cons _
    · obtain ⟨_, rfl⟩ := (gives_parse_stay_iff hno).mp h
      exact .refl _

/-- The lexemes of modifiers as they are written. -/
def lexemes (modifiers : Modifiers) : List Lexeme :=
  modifiers.words.map .word

theorem isWord_of_mem_words {modifiers : Modifiers} {word : String} (h : word ∈ modifiers.words) :
    isWord word = true := by
  obtain ⟨modifier, _, rfl⟩ := List.mem_map.mp h
  exact modifier.isWord_word

theorem notNext_lexemes (modifiers : Modifiers) (symbol : Char) (word : String) (after : List Lexeme) :
    NotNext symbol (modifiers.lexemes ++ .word word :: after) := by
  rw [lexemes]
  cases modifiers.words with
  | nil => exact notNext_word symbol word after
  | cons first words => exact notNext_word symbol first _

theorem reads_parse_list {earlier : Modifiers} {list : List Modifier} (hdistinct : list.Nodup)
    (hnew : ∀ modifier ∈ list, earlier.contains modifier = false) {after : List Lexeme}
    (hafter : NoModifier after) :
    Reads (parse earlier) (list.map (fun modifier => .word modifier.word) ++ after)
      (list.foldl insert earlier) after := by
  induction list generalizing earlier with
  | nil =>
    intro tokens htokens
    refine ⟨tokens, (gives_parse_stay_iff ?_).mpr ⟨rfl, rfl⟩, htokens⟩
    rw [htokens]
    exact hafter
  | cons modifier list ih =>
    intro tokens htokens
    obtain ⟨line, tail, rfl, htail⟩ := exists_of_map_lexeme_eq_cons htokens
    obtain ⟨hfirst, hothers⟩ := List.forall_mem_cons.mp hnew
    obtain ⟨hnotMem, hdistinct⟩ := List.nodup_cons.mp hdistinct
    have hnew : ∀ other ∈ list, (earlier.insert modifier).contains other = false := by
      intro other hother
      have hne : other ≠ modifier := fun heq => hnotMem (heq ▸ hother)
      rw [contains_insert, hothers other hother, Bool.or_false]
      exact beq_eq_false_iff_ne.mpr hne
    obtain ⟨rest, hgives, hrest⟩ := ih hdistinct hnew tail htail
    exact ⟨rest, gives_parse_cons_iff.mpr ⟨hfirst, hgives⟩, hrest⟩

theorem reads_parse (modifiers : Modifiers) {after : List Lexeme} (hafter : NoModifier after) :
    Reads (parse .none) (modifiers.lexemes ++ after) modifiers after := by
  have hall : Modifier.all.Nodup := by decide
  have hread := reads_parse_list (hall.filter modifiers.contains)
    (fun modifier _ => (by cases modifier <;> rfl : none.contains modifier = false)) hafter
  have hlist : (Modifier.all.filter modifiers.contains).foldl insert none = modifiers :=
    ofList_toList modifiers
  rw [hlist] at hread
  rwa [lexemes, words, List.map_map]

end Modifiers

/-! ### Types -/

/-- The lexemes of a declared type as it is written, or of the word that stands for none. -/
def typeLexemes (localTypes : List String) : Option TypeRef → List Lexeme
  | none => [.word "def"]
  | some type => type.lexemes localTypes

/-- The lexemes in front of a declared name. -/
def headLexemes (localTypes : List String) (modifiers : Modifiers) (type : Option TypeRef) : List Lexeme :=
  modifiers.lexemes ++ typeLexemes localTypes type

section Types

variable {cut : Scan.Cutting} {scope : NameScope} {localTypes : List String}

theorem spells_words {words : List String} (h : ∀ word ∈ words, isWord word = true) {last : String}
    {lexemes : List Lexeme} (hlast : Spells cut last lexemes) :
    Spells cut (" ".intercalate (words ++ [last])) (words.map .word ++ lexemes) := by
  induction words with
  | nil => simpa using hlast
  | cons word words ih =>
    intro rest next hbreaks tail
    obtain ⟨hword, hwords⟩ := List.forall_mem_cons.mp h
    have hjoin : " ".intercalate (word :: words ++ [last])
        = word ++ " " ++ " ".intercalate (words ++ [last]) := by
      cases words with
      | nil => simp
      | cons second words => rw [List.cons_append, List.cons_append, String.intercalate_cons_cons]
    rw [hjoin]
    simp only [String.toList_append, String.reduceToList, List.append_assoc, List.cons_append,
      List.nil_append, List.map_cons]
    have hothers := ih hwords rest next hbreaks tail
    rw [List.append_assoc] at hothers
    exact Scan.cut_word hword (Scan.breaks_blank (by decide) _) (Scan.cut_blank (by decide) hothers)

theorem spells_declarationHead {modifiers : Modifiers} {type : Option TypeRef}
    (h : ∀ known ∈ type, TypeRef.IsSaid localTypes known) :
    Spells cut (declarationHead localTypes modifiers type) (headLexemes localTypes modifiers type) := by
  refine spells_words (fun word => Modifiers.isWord_of_mem_words) ?_
  cases type with
  | none =>
    have hdef : isWord "def" = true := by decide
    exact fun rest next hbreaks tail => Scan.cut_word hdef hbreaks tail
  | some known => exact spells_dottedName (h known rfl)

theorem Member.gives_parseType_iff {type : Option TypeRef} :
    Gives (parseType scope lastLine tokens) type rest ↔
      (∃ line after, tokens = ⟨.word "def", line⟩ :: after ∧ type = none ∧ rest = after) ∨
      (word? "def" tokens = none ∧ ∃ name, Gives (dottedName lastLine tokens) name rest ∧
        type = some (scope.typeRef name)) := by
  refine iff_word_or ?_ fun hnone => ?_
  · rintro line after rfl
    rw [parseType, word?_cons]
    exact Gives.pure_iff.trans (and_congr eq_comm eq_comm)
  · rw [parseType, hnone]
    simp only [Gives.bind_iff, Gives.pure_iff, Step.map_value, Step.map_rest]
    constructor
    · rintro ⟨name, _, hname, rfl, rfl⟩
      exact ⟨name, hname, rfl⟩
    · rintro ⟨name, hname, rfl⟩
      exact ⟨name, rest, hname, rfl, rfl⟩

theorem Member.leaves_of_parseType {type : Option TypeRef}
    (h : Gives (parseType scope lastLine tokens) type rest) : Leaves tokens rest := by
  rcases gives_parseType_iff.mp h with ⟨line, after, rfl, _, rfl⟩ | ⟨_, name, hname, _⟩
  · exact (Leaves.refl _).cons _
  · exact leaves_of_dottedName hname

theorem Member.isParsed_of_parseType {type : Option TypeRef} (hscope : scope.IsWritten)
    (hwords : AreWords (tokens.map Token.lexeme))
    (h : Gives (parseType scope lastLine tokens) type rest) : ∀ known ∈ type, known.IsParsed := by
  rcases gives_parseType_iff.mp h with ⟨line, after, rfl, rfl, rfl⟩ | ⟨_, name, hname, rfl⟩
  · nofun
  · rintro known hknown
    cases Option.mem_some.mp hknown
    exact NameScope.isParsed_typeRef hscope (isDottedName_of_gives hwords hname)

theorem word?_eq_none_of_lexemes {word other : String} {lexemes : List Lexeme} (h : other ≠ word)
    (htokens : tokens.map Token.lexeme = .word other :: lexemes) : word? word tokens = none := by
  obtain ⟨line, rest, rfl, _⟩ := exists_of_map_lexeme_eq_cons htokens
  exact if_neg fun heq => h (Lexeme.word.inj heq)

theorem exists_dottedLexemes_eq_cons {name : String} (h : isDottedName name = true) :
    ∃ first parts, isName first = true ∧ dottedLexemes name = .word first :: partLexemes parts := by
  obtain ⟨first, parts, hparts, hfirst, _⟩ := dotParts_of_isDottedName h
  refine ⟨first, parts, hfirst, ?_⟩
  rw [dottedLexemes, hparts]

theorem Member.reads_parseType {type : Option TypeRef}
    (h : ∀ known ∈ type, TypeRef.IsSaid localTypes known) {after : List Lexeme}
    (hafter : NotNext '.' after) :
    Reads (parseType scope lastLine) (typeLexemes localTypes type ++ after)
      (type.map (TypeRef.reread scope localTypes)) after := by
  intro tokens htokens
  cases type with
  | none =>
    obtain ⟨line, rest, rfl, hrest⟩ := exists_of_map_lexeme_eq_cons htokens
    exact ⟨rest, gives_parseType_iff.mpr (.inl ⟨line, rest, rfl, rfl, rfl⟩), hrest⟩
  | some known =>
    have hdotted : isDottedName (known.toSource localTypes) = true := h known rfl
    obtain ⟨first, parts, hfirst, hlexemes⟩ := exists_dottedLexemes_eq_cons hdotted
    obtain ⟨rest, hname, hrest⟩ := reads_dottedName hdotted hafter tokens htokens
    have hdef : word? "def" tokens = none := by
      rw [typeLexemes, TypeRef.lexemes, hlexemes] at htokens
      exact word?_eq_none_of_lexemes (ne_of_isKeyword (isKeyword_of_isName hfirst) (by decide)) htokens
    exact ⟨rest, gives_parseType_iff.mpr (.inr ⟨hdef, _, hname, rfl⟩), hrest⟩

theorem noModifier_typeLexemes {type : Option TypeRef}
    (h : ∀ known ∈ type, TypeRef.IsSaid localTypes known) (after : List Lexeme) :
    NoModifier (typeLexemes localTypes type ++ after) := by
  cases type with
  | none => exact noModifier_word (Modifier.ofWord?_eq_none_iff.mp (by decide)) after
  | some known =>
    obtain ⟨first, parts, hfirst, hlexemes⟩ := exists_dottedLexemes_eq_cons (h known rfl)
    rw [typeLexemes, TypeRef.lexemes, hlexemes]
    exact noModifier_of_isName hfirst _

theorem notNext_headLexemes {modifiers : Modifiers} {type : Option TypeRef}
    (h : ∀ known ∈ type, TypeRef.IsSaid localTypes known) (symbol : Char)
    (after : List Lexeme) : NotNext symbol (headLexemes localTypes modifiers type ++ after) := by
  rw [headLexemes, Modifiers.lexemes]
  cases modifiers.words with
  | cons word words => exact notNext_word symbol word _
  | nil =>
    cases type with
    | none => exact notNext_word symbol "def" _
    | some known =>
      obtain ⟨first, parts, _, hlexemes⟩ := exists_dottedLexemes_eq_cons (h known rfl)
      rw [typeLexemes, TypeRef.lexemes, hlexemes]
      exact notNext_word symbol first _

theorem reads_headLexemes {modifiers : Modifiers} {type : Option TypeRef}
    (h : ∀ known ∈ type, TypeRef.IsSaid localTypes known) {after : List Lexeme}
    (hafter : NotNext '.' after)
    (htokens : tokens.map Token.lexeme = headLexemes localTypes modifiers type ++ after) :
    ∃ afterModifiers afterType, Gives (Modifiers.parse .none tokens) modifiers afterModifiers ∧
      Gives (Member.parseType scope lastLine afterModifiers) (type.map (TypeRef.reread scope localTypes))
        afterType ∧
      afterType.map Token.lexeme = after := by
  rw [headLexemes, List.append_assoc] at htokens
  obtain ⟨afterModifiers, hmodifiers, hmiddle⟩ :=
    modifiers.reads_parse (noModifier_typeLexemes h _) tokens htokens
  obtain ⟨afterType, htype, hrest⟩ := Member.reads_parseType h hafter afterModifiers hmiddle
  exact ⟨afterModifiers, afterType, hmodifiers, htype, hrest⟩

theorem reads_head {modifiers : Modifiers} {type : Option TypeRef}
    (h : ∀ known ∈ type, TypeRef.IsSaid localTypes known) {name : String}
    {after : List Lexeme} (htokens : tokens.map Token.lexeme
      = headLexemes localTypes modifiers type ++ .word name :: after) :
    ∃ afterModifiers nameLine afterName, Gives (Modifiers.parse .none tokens) modifiers afterModifiers ∧
      Gives (Member.parseType scope lastLine afterModifiers) (type.map (TypeRef.reread scope localTypes))
        (⟨.word name, nameLine⟩ :: afterName) ∧
      afterName.map Token.lexeme = after := by
  obtain ⟨afterModifiers, _, hmodifiers, htype, hname⟩ :=
    reads_headLexemes h (notNext_word _ _ _) htokens
  obtain ⟨nameLine, afterName, rfl, hafter⟩ := exists_of_map_lexeme_eq_cons hname
  exact ⟨afterModifiers, nameLine, afterName, hmodifiers, htype, hafter⟩

end Types

end GuardedLogging
