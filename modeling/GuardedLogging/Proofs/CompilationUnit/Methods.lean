import GuardedLogging.Proofs.CompilationUnit.Heads
import GuardedLogging.Proofs.Token.Lines
import Mathlib.Data.List.Chain

/-!
# Methods are read back

A parameter shows its type if it has one, and the word in front of its name tells that it has. Statements follow one another without a separator, so a statement must not start with something that the one in front of it could go on with; of the symbols that a statement can start with, that is the opening parenthesis.
-/

namespace GuardedLogging

open Cursor

variable {cut : Scan.Cutting} {scope : NameScope} {localTypes : List String} {lastLine : Nat}
  {tokens rest : List Token}

/-! ### Parameters -/

namespace Parameter

theorem gives_parseType_iff {type : Option TypeRef} :
    Gives (parseType scope lastLine tokens) type rest ↔
      (∃ line after, tokens = ⟨.word "def", line⟩ :: after ∧ type = none ∧ rest = after) ∨
      (word? "def" tokens = none ∧
        ((startsTyped tokens = true ∧ ∃ name,
            Gives (dottedName lastLine tokens) name rest ∧ type = some (scope.typeRef name)) ∨
          (startsTyped tokens = false ∧ type = none ∧ rest = tokens))) := by
  refine iff_word_or ?_ fun hnone => ?_
  · rintro line after rfl
    rw [parseType, word?_cons]
    exact Gives.pure_iff.trans (and_congr eq_comm eq_comm)
  · rw [parseType, hnone]
    cases htyped : startsTyped tokens with
    | true =>
      simp only [Gives.bind_iff, Gives.pure_iff, Step.optional_value, Step.optional_rest,
        Step.map_value, Step.map_rest, if_true, true_and, Bool.true_eq_false, false_and, or_false]
      constructor
      · rintro ⟨name, _, hname, rfl, rfl⟩
        exact ⟨name, hname, rfl⟩
      · rintro ⟨name, hname, rfl⟩
        exact ⟨name, rest, hname, rfl, rfl⟩
    | false =>
      simp only [Gives.stay_iff, Bool.false_eq_true, if_false, false_and, false_or, true_and]

theorem gives_parseList_iff {earlier parameters : List Parameter} :
    Gives (parseList scope lastLine earlier tokens) parameters rest ↔
      ∃ type name nameLine afterName,
        Gives (parseType scope lastLine tokens) type (⟨.word name, nameLine⟩ :: afterName) ∧
        isKeyword name = false ∧ name ∉ earlier.map (·.name) ∧
        ((∃ line afterComma, afterName = ⟨.op ',', line⟩ :: afterComma ∧
            Gives (parseList scope lastLine (earlier ++ [⟨name, type⟩]) afterComma) parameters rest) ∨
          (∃ line, afterName = ⟨.op ')', line⟩ :: rest ∧ parameters = earlier ++ [⟨name, type⟩])) := by
  rw [parseList, Gives.bind_iff]
  constructor
  · rintro ⟨type, afterType, htype, hnext⟩
    obtain ⟨name, afterName, hname, hmore⟩ := Gives.bind_iff.mp hnext
    obtain ⟨nameLine, rfl, hkeyword⟩ := gives_identifier_iff.mp hname
    cases hany : earlier.any (·.name == name) with
    | true =>
      simp only [hany, if_true] at hmore
      exact (Gives.fail_iff.mp hmore).elim
    | false =>
      simp only [hany, Bool.false_eq_true, if_false] at hmore
      refine ⟨type, name, nameLine, afterName, htype, hkeyword, any_name_eq_false_iff.mp hany, ?_⟩
      rcases eq_cons_or_symbol?_eq_none ',' afterName with ⟨line, afterComma, rfl⟩ | hnone
      · simp only [symbol?_cons, Step.next, Gives.bind_iff, Gives.pure_iff, Step.after_value,
          Step.after_rest, Step.afterOptional_value, Step.afterOptional_rest] at hmore
        obtain ⟨others, _, hothers, rfl, rfl⟩ := hmore
        exact .inl ⟨line, afterComma, rfl, hothers⟩
      · simp only [hnone, Gives.bind_iff, Gives.pure_iff, Step.after_value, Step.after_rest,
          Step.map_value, Step.map_rest, Step.afterOptional_value, Step.afterOptional_rest] at hmore
        obtain ⟨⟨⟩, _, hclose, rfl, rfl⟩ := hmore
        obtain ⟨line, rfl⟩ := gives_symbol_iff.mp hclose
        exact .inr ⟨line, rfl, rfl⟩
  · rintro ⟨type, name, nameLine, afterName, htype, hkeyword, hnew, hrest⟩
    refine ⟨type, _, htype, Gives.bind_iff.mpr ?_⟩
    refine ⟨name, afterName, gives_identifier_iff.mpr ⟨nameLine, rfl, hkeyword⟩, ?_⟩
    simp only [any_name_eq_false_iff.mpr hnew, Bool.false_eq_true, if_false]
    rcases hrest with ⟨line, afterComma, rfl, hothers⟩ | ⟨line, rfl, rfl⟩
    · simp only [symbol?_cons, Step.next, Gives.bind_iff, Gives.pure_iff, Step.after_value,
        Step.after_rest, Step.afterOptional_value, Step.afterOptional_rest]
      exact ⟨parameters, rest, hothers, rfl, rfl⟩
    · have hnone : symbol? ',' (⟨.op ')', line⟩ :: rest) = none := rfl
      simp only [hnone, Gives.bind_iff, Gives.pure_iff, Step.after_value, Step.after_rest,
        Step.map_value, Step.map_rest, Step.afterOptional_value, Step.afterOptional_rest]
      exact ⟨(), rest, gives_symbol_iff.mpr ⟨line, rfl⟩, trivial, rfl⟩

theorem gives_parseAll_iff {parameters : List Parameter} :
    Gives (parseAll scope lastLine tokens) parameters rest ↔
      (∃ line, tokens = ⟨.op ')', line⟩ :: rest ∧ parameters = []) ∨
      (symbol? ')' tokens = none ∧ Gives (parseList scope lastLine [] tokens) parameters rest) := by
  rw [parseAll]
  exact gives_closing_iff

/-- A source can say the parameter if it can say its type. -/
structure IsWritten (types : TypeRef → Prop) (parameter : Parameter) : Prop where
  name : isName parameter.name = true
  type : ∀ known ∈ parameter.type, types known

theorem IsWritten.imp {types otherTypes : TypeRef → Prop} {parameter : Parameter}
    (h : parameter.IsWritten types)
    (htype : ∀ known ∈ parameter.type, types known → otherTypes known) :
    parameter.IsWritten otherTypes where
  name := h.name
  type := fun known hknown => htype known hknown (h.type known hknown)

theorem leaves_of_parseType {type : Option TypeRef} (h : Gives (parseType scope lastLine tokens) type rest) :
    Leaves tokens rest := by
  rcases gives_parseType_iff.mp h with ⟨line, after, rfl, _, rfl⟩ | ⟨_, ⟨_, name, hname, _⟩ | ⟨_, _, rfl⟩⟩
  · exact (Leaves.refl _).cons _
  · exact leaves_of_dottedName hname
  · exact .refl _

theorem leaves_of_parseList {earlier parameters : List Parameter}
    (h : Gives (parseList scope lastLine earlier tokens) parameters rest) : Leaves tokens rest := by
  induction hlength : tokens.length using Nat.strongRecOn generalizing tokens earlier with
  | ind length ih =>
    obtain ⟨type, name, nameLine, afterName, htype, _, _, hothers⟩ := gives_parseList_iff.mp h
    have hfront := (leaves_of_parseType htype).tail
    rcases hothers with ⟨line, afterComma, rfl, hothers⟩ | ⟨line, rfl, _⟩
    · have hshorter := htype.shorter
      simp only [List.length_cons] at hshorter
      exact hfront.tail.trans (ih _ (by omega) hothers rfl)
    · exact hfront.tail

theorem leaves_of_parseAll {parameters : List Parameter}
    (h : Gives (parseAll scope lastLine tokens) parameters rest) : Leaves tokens rest := by
  rcases gives_parseAll_iff.mp h with ⟨line, rfl, _⟩ | ⟨_, hlist⟩
  · exact (Leaves.refl rest).cons _
  · exact leaves_of_parseList hlist

theorem isParsed_of_parseType {type : Option TypeRef} (hscope : scope.IsWritten)
    (hwords : AreWords (tokens.map Token.lexeme))
    (h : Gives (parseType scope lastLine tokens) type rest) : ∀ known ∈ type, known.IsParsed := by
  rcases gives_parseType_iff.mp h with
    ⟨line, after, rfl, rfl, rfl⟩ | ⟨_, ⟨_, name, hname, rfl⟩ | ⟨_, rfl, rfl⟩⟩
  · nofun
  · rintro known hknown
    cases Option.mem_some.mp hknown
    exact NameScope.isParsed_typeRef hscope (isDottedName_of_gives hwords hname)
  · nofun

theorem isParsed_of_parseList {earlier parameters : List Parameter} (hscope : scope.IsWritten)
    (hwords : AreWords (tokens.map Token.lexeme))
    (hearlier : ∀ parameter ∈ earlier, parameter.IsWritten TypeRef.IsParsed)
    (hdistinct : (earlier.map (·.name)).Nodup)
    (h : Gives (parseList scope lastLine earlier tokens) parameters rest) :
    (∀ parameter ∈ parameters, parameter.IsWritten TypeRef.IsParsed) ∧
      (parameters.map (·.name)).Nodup := by
  induction hlength : tokens.length using Nat.strongRecOn generalizing tokens earlier with
  | ind length ih =>
    obtain ⟨type, name, nameLine, afterName, htype, hkeyword, hnew, hrest⟩ := gives_parseList_iff.mp h
    have hknown := isParsed_of_parseType hscope hwords htype
    have hafter := (leaves_of_parseType htype).areWords hwords
    have hname : isName name = true := hafter.isName_head hkeyword
    have hparameters : ∀ parameter ∈ earlier ++ [⟨name, type⟩],
        parameter.IsWritten TypeRef.IsParsed :=
      List.forall_mem_append.mpr ⟨hearlier, List.forall_mem_singleton.mpr ⟨hname, hknown⟩⟩
    have hnodup : ((earlier ++ [(⟨name, type⟩ : Parameter)]).map (·.name)).Nodup :=
      nodup_map_append_singleton hdistinct hnew
    rcases hrest with ⟨line, afterComma, rfl, hothers⟩ | ⟨line, rfl, rfl⟩
    · have hshorter := htype.shorter
      simp only [List.length_cons] at hshorter
      exact ih afterComma.length (by omega) hafter.tail.tail hparameters hnodup hothers rfl
    · exact ⟨hparameters, hnodup⟩

theorem isParsed_of_parseAll {parameters : List Parameter} (hscope : scope.IsWritten)
    (hwords : AreWords (tokens.map Token.lexeme))
    (h : Gives (parseAll scope lastLine tokens) parameters rest) :
    (∀ parameter ∈ parameters, parameter.IsWritten TypeRef.IsParsed) ∧
      (parameters.map (·.name)).Nodup := by
  rcases gives_parseAll_iff.mp h with ⟨line, rfl, rfl⟩ | ⟨_, hlist⟩
  · exact ⟨List.forall_mem_nil _, List.nodup_nil⟩
  · exact isParsed_of_parseList hscope hwords (List.forall_mem_nil _) List.nodup_nil hlist

/-- The parameter as it is read if its type means itself in the scope: the type is not resolved. -/
def asRead (parameter : Parameter) : Parameter :=
  { parameter with type := parameter.type.map TypeRef.asRead }

theorem asRead_of_isParsed {parameter : Parameter} (h : parameter.IsWritten TypeRef.IsParsed) :
    parameter.asRead = parameter := by
  rw [asRead, TypeRef.map_asRead_of_isParsed h.type]

/-- The parameter as it is read in the scope. -/
def reread (scope : NameScope) (localTypes : List String) (parameter : Parameter) : Parameter :=
  { parameter with type := parameter.type.map (TypeRef.reread scope localTypes) }

theorem reread_eq {parameter : Parameter}
    (h : parameter.IsWritten (TypeRef.IsReadBack scope localTypes)) :
    parameter.reread scope localTypes = parameter.asRead := by
  rw [reread, asRead, TypeRef.map_reread_eq h.type]

/-- The lexemes of a parameter as it is written. -/
def lexemes (localTypes : List String) (parameter : Parameter) : List Lexeme :=
  match parameter.type with
  | some type => type.lexemes localTypes ++ [.word parameter.name]
  | none => [.word parameter.name]

theorem spells_toSource {parameter : Parameter}
    (h : parameter.IsWritten (TypeRef.IsSaid localTypes)) :
    Spells cut (parameter.toSource localTypes) (parameter.lexemes localTypes) := by
  intro rest next hbreaks tail
  have hname := Scan.cut_word (isWord_of_isName h.name) hbreaks tail
  obtain ⟨name, type⟩ := parameter
  cases type with
  | none => exact hname
  | some known =>
    have htype : Spells cut (known.toSource localTypes) (known.lexemes localTypes) :=
      spells_dottedName (h.type known rfl)
    show cut.Relates ((known.toSource localTypes ++ " " ++ name).toList ++ rest)
      (known.lexemes localTypes ++ [.word name] ++ next)
    simp only [String.toList_append, String.reduceToList, List.append_assoc, List.cons_append,
      List.nil_append]
    exact htype _ _ (Scan.breaks_blank (by decide) _) (Scan.cut_blank (by decide) hname)

theorem startsTyped_of_lexemes {name first : String} {parts : List String} {after : List Lexeme}
    (h : tokens.map Token.lexeme = .word first :: (partLexemes parts ++ .word name :: after)) :
    startsTyped tokens = true := by
  obtain ⟨line, tail, rfl, htail⟩ := exists_of_map_lexeme_eq_cons h
  cases parts with
  | nil =>
    obtain ⟨nameLine, _, rfl, _⟩ := exists_of_map_lexeme_eq_cons htail
    rfl
  | cons part parts =>
    obtain ⟨dotLine, _, rfl, _⟩ := exists_of_map_lexeme_eq_cons htail
    rfl

theorem reads_parseType {parameter : Parameter}
    (h : parameter.IsWritten (TypeRef.IsSaid localTypes)) {symbol : Char}
    (hsymbol : symbol ≠ '.') (after : List Lexeme) :
    Reads (parseType scope lastLine) (parameter.lexemes localTypes ++ .op symbol :: after)
      (parameter.type.map (TypeRef.reread scope localTypes)) (.word parameter.name :: .op symbol :: after) := by
  intro tokens htokens
  obtain ⟨name, type⟩ := parameter
  cases type with
  | none =>
    have hdef : word? "def" tokens = none :=
      word?_eq_none_of_lexemes (ne_of_isKeyword (isKeyword_of_isName h.name) (by decide)) htokens
    refine ⟨tokens, gives_parseType_iff.mpr (.inr ⟨hdef, .inr ⟨?_, rfl, rfl⟩⟩), htokens⟩
    obtain ⟨nameLine, _, rfl, htail⟩ := exists_of_map_lexeme_eq_cons htokens
    obtain ⟨line, _, rfl, _⟩ := exists_of_map_lexeme_eq_cons htail
    exact beq_eq_false_iff_ne.mpr fun heq => hsymbol (Lexeme.op.inj heq)
  | some known =>
    have hdotted : isDottedName (known.toSource localTypes) = true := h.type known rfl
    obtain ⟨first, parts, hfirst, hlexemes⟩ := exists_dottedLexemes_eq_cons hdotted
    rw [lexemes, List.append_assoc, TypeRef.lexemes] at htokens
    obtain ⟨rest, hname, hrest⟩ := reads_dottedName hdotted (notNext_word _ _ _) tokens htokens
    rw [hlexemes] at htokens
    have hdef : word? "def" tokens = none :=
      word?_eq_none_of_lexemes (ne_of_isKeyword (isKeyword_of_isName hfirst) (by decide)) htokens
    exact ⟨rest, gives_parseType_iff.mpr
      (.inr ⟨hdef, .inl ⟨startsTyped_of_lexemes htokens, _, hname, rfl⟩⟩), hrest⟩

theorem notNext_lexemes {parameter : Parameter}
    (h : parameter.IsWritten (TypeRef.IsSaid localTypes)) (symbol : Char)
    (after : List Lexeme) : NotNext symbol (parameter.lexemes localTypes ++ after) := by
  obtain ⟨name, type⟩ := parameter
  cases type with
  | none => exact notNext_word symbol name after
  | some known =>
    obtain ⟨first, parts, _, hlexemes⟩ := exists_dottedLexemes_eq_cons (h.type known rfl)
    show NotNext symbol (dottedLexemes (known.toSource localTypes) ++ [.word name] ++ after)
    rw [hlexemes]
    exact notNext_word symbol first _

theorem reads_parseList {earlier parameters : List Parameter} (hne : parameters ≠ [])
    (h : ∀ parameter ∈ parameters, parameter.IsWritten (TypeRef.IsSaid localTypes))
    (hdistinct : (earlier.map (·.name) ++ parameters.map (·.name)).Nodup) (after : List Lexeme) :
    Reads (parseList scope lastLine earlier)
      ([.op ','].intercalate (parameters.map (lexemes localTypes)) ++ .op ')' :: after)
      (earlier ++ parameters.map (reread scope localTypes)) after := by
  induction parameters generalizing earlier with
  | nil => exact absurd rfl hne
  | cons parameter parameters ih =>
    intro tokens htokens
    obtain ⟨hparameter, hparameters⟩ := List.forall_mem_cons.mp h
    have hkeyword := isKeyword_of_isName hparameter.name
    have hnew : parameter.name ∉ earlier.map (·.name) :=
      fun hmem => (List.nodup_append.mp hdistinct).2.2 _ hmem _ List.mem_cons_self rfl
    rw [List.map_cons, intercalate_singleton_cons, List.append_assoc] at htokens
    cases parameters with
    | nil =>
      obtain ⟨_, htype, hname⟩ := reads_parseType hparameter (by decide) after tokens htokens
      obtain ⟨nameLine, _, rfl, hclose⟩ := exists_of_map_lexeme_eq_cons hname
      obtain ⟨line, rest, rfl, hrest⟩ := exists_of_map_lexeme_eq_cons hclose
      exact ⟨rest, gives_parseList_iff.mpr ⟨_, parameter.name, nameLine, _, htype, hkeyword, hnew,
        .inr ⟨line, rfl, rfl⟩⟩, hrest⟩
    | cons second parameters =>
      rw [List.map_cons, List.flatMap_cons, List.cons_append, List.cons_append] at htokens
      obtain ⟨_, htype, hname⟩ := reads_parseType hparameter (by decide) _ tokens htokens
      obtain ⟨nameLine, _, rfl, hcomma⟩ := exists_of_map_lexeme_eq_cons hname
      obtain ⟨line, afterComma, rfl, hothers⟩ := exists_of_map_lexeme_eq_cons hcomma
      rw [← intercalate_singleton_cons, ← List.map_cons] at hothers
      have hmoved : ((earlier ++ [parameter.reread scope localTypes]).map (·.name)
          ++ (second :: parameters).map (·.name)).Nodup := by
        rw [List.map_append, List.append_assoc]
        exact hdistinct
      obtain ⟨rest, hread, hrest⟩ :=
        ih (List.cons_ne_nil _ _) hparameters hmoved afterComma hothers
      rw [List.map_cons, List.append_cons]
      exact ⟨rest, gives_parseList_iff.mpr ⟨_, parameter.name, nameLine, _, htype, hkeyword, hnew,
        .inl ⟨line, afterComma, rfl, hread⟩⟩, hrest⟩

theorem reads_parseAll {parameters : List Parameter}
    (h : ∀ parameter ∈ parameters, parameter.IsWritten (TypeRef.IsSaid localTypes))
    (hdistinct : (parameters.map (·.name)).Nodup) (after : List Lexeme) :
    Reads (parseAll scope lastLine)
      ([.op ','].intercalate (parameters.map (lexemes localTypes)) ++ .op ')' :: after)
      (parameters.map (reread scope localTypes)) after := by
  intro tokens htokens
  cases parameters with
  | nil =>
    obtain ⟨line, rest, rfl, hrest⟩ := exists_of_map_lexeme_eq_cons htokens
    exact ⟨rest, gives_parseAll_iff.mpr (.inl ⟨line, rfl, rfl⟩), hrest⟩
  | cons parameter parameters =>
    have hearlier : (([] : List Parameter).map (·.name)
        ++ (parameter :: parameters).map (·.name)).Nodup := hdistinct
    obtain ⟨rest, hread, hrest⟩ :=
      reads_parseList (List.cons_ne_nil _ _) h hearlier after tokens htokens
    refine ⟨rest, gives_parseAll_iff.mpr (.inr ⟨?_, hread⟩), hrest⟩
    rw [List.map_cons, intercalate_singleton_cons, List.append_assoc] at htokens
    exact (notNext_lexemes (h _ List.mem_cons_self) ')' _).symbol?_eq_none htokens

end Parameter

/-! ### Statements -/

namespace Statement

theorem gives_parseExpr_iff {statement : Statement} :
    Gives (parseExpr lastLine tokens) statement rest ↔
      (∃ line after, tokens = ⟨.word "return", line⟩ :: after ∧
        ∃ expr, Gives (Expr.parseTernary lastLine after) expr rest ∧ statement = ⟨true, expr⟩) ∨
      (word? "return" tokens = none ∧
        ∃ expr, Gives (Expr.parseTernary lastLine tokens) expr rest ∧ statement = ⟨false, expr⟩) := by
  refine iff_word_or ?_ fun hnone => ?_
  · rintro line after rfl
    rw [parseExpr]
    simp only [word?_cons, Step.next, Gives.bind_iff, Gives.pure_iff, Step.after_value,
      Step.after_rest, Step.map_value, Step.map_rest]
    constructor
    · rintro ⟨expr, _, hexpr, rfl, rfl⟩
      exact ⟨expr, hexpr, rfl⟩
    · rintro ⟨expr, hexpr, rfl⟩
      exact ⟨expr, rest, hexpr, rfl, rfl⟩
  · rw [parseExpr]
    simp only [hnone, Gives.bind_iff, Gives.pure_iff, Step.map_value, Step.map_rest]
    constructor
    · rintro ⟨expr, _, hexpr, rfl, rfl⟩
      exact ⟨expr, hexpr, rfl⟩
    · rintro ⟨expr, hexpr, rfl⟩
      exact ⟨expr, rest, hexpr, rfl, rfl⟩

theorem gives_parse_iff {statement : Statement} :
    Gives (parse lastLine tokens) statement rest ↔
      ∃ middle, Gives (parseExpr lastLine tokens) statement middle ∧ rest = dropSemicolons middle :=
  gives_skipSemicolons_iff

theorem gives_parseBody_iff {methodName : String} {body : List Statement} :
    Gives (parseBody lastLine methodName tokens) body rest ↔
      (∃ line, tokens = ⟨.op '\x7d', line⟩ :: rest ∧ body = []) ∨
      (symbol? '\x7d' tokens = none ∧ tokens ≠ [] ∧ ∃ first middle others,
        Gives (parse lastLine tokens) first middle ∧
        Gives (parseBody lastLine methodName middle) others rest ∧ body = first :: others) := by
  rw [parseBody]
  refine gives_closing_iff.trans (or_congr_right (and_congr_right fun _ => ?_))
  cases tokens with
  | nil => simp
  | cons token tokens =>
    simp only [List.isEmpty_cons, Bool.false_eq_true, if_false, Gives.bind_iff, Gives.pure_iff,
      Step.after_value, Step.after_rest, Step.map_value, Step.map_rest, true_and, ne_eq,
      reduceCtorEq, not_false_eq_true]
    constructor
    · rintro ⟨first, middle, hfirst, others, _, hothers, rfl, rfl⟩
      exact ⟨first, middle, others, hfirst, hothers, rfl⟩
    · rintro ⟨first, middle, others, hfirst, hothers, rfl⟩
      exact ⟨first, middle, hfirst, others, rest, hothers, rfl, rfl⟩

theorem leaves_of_parse {statement : Statement} (h : Gives (parse lastLine tokens) statement rest) :
    Leaves tokens rest := by
  obtain ⟨middle, hexpr, rfl⟩ := gives_parse_iff.mp h
  rcases gives_parseExpr_iff.mp hexpr with ⟨line, after, rfl, expr, hexpr, _⟩ | ⟨_, expr, hexpr, _⟩
  · exact ((Expr.leaves_of_parseTernary hexpr).cons _).dropSemicolons
  · exact (Expr.leaves_of_parseTernary hexpr).dropSemicolons

theorem leaves_of_parseBody {methodName : String} {body : List Statement}
    (h : Gives (parseBody lastLine methodName tokens) body rest) : Leaves tokens rest := by
  induction hlength : tokens.length using Nat.strongRecOn generalizing tokens body with
  | ind length ih =>
    rcases gives_parseBody_iff.mp h with ⟨line, rfl, _⟩ | ⟨_, _, first, middle, others, hfirst, hothers, _⟩
    · exact (Leaves.refl rest).cons _
    · exact (leaves_of_parse hfirst).trans (ih _ (hlength ▸ hfirst.shorter) hothers rfl)

theorem isParsed_of_parse {statement : Statement} (hwords : AreWords (tokens.map Token.lexeme))
    (h : Gives (parse lastLine tokens) statement rest) : statement.expr.IsParsed := by
  obtain ⟨middle, hexpr, rfl⟩ := gives_parse_iff.mp h
  rcases gives_parseExpr_iff.mp hexpr with ⟨line, after, rfl, expr, hgives, rfl⟩ | ⟨_, expr, hgives, rfl⟩
  · exact Expr.isParsed_of_gives hwords.tail hgives
  · exact Expr.isParsed_of_gives hwords hgives

theorem isParsed_of_parseBody {methodName : String} {body : List Statement}
    (hwords : AreWords (tokens.map Token.lexeme))
    (h : Gives (parseBody lastLine methodName tokens) body rest) :
    ∀ statement ∈ body, statement.expr.IsParsed := by
  induction hlength : tokens.length using Nat.strongRecOn generalizing tokens body with
  | ind length ih =>
    rcases gives_parseBody_iff.mp h with ⟨line, rfl, rfl⟩ |
      ⟨_, _, first, middle, others, hfirst, hothers, rfl⟩
    · exact List.forall_mem_nil _
    · have hmiddle := (leaves_of_parse hfirst).areWords hwords
      have hall := ih middle.length (hlength ▸ hfirst.shorter) hmiddle hothers rfl
      exact List.forall_mem_cons.mpr ⟨isParsed_of_parse hwords hfirst, hall⟩

/-- The statement as it is read if no number changes. -/
def asRead (localTypes : List String) (statement : Statement) : Statement :=
  { statement with expr := statement.expr.asRead localTypes }

theorem asRead_of_isParsed {statement : Statement} (h : statement.expr.IsParsed) :
    statement.asRead localTypes = statement := by
  rw [asRead, Expr.asRead_of_isParsed localTypes h]

/-- The statement as it is read. -/
def reread (localTypes : List String) (statement : Statement) : Statement :=
  { statement with expr := statement.expr.reread localTypes }

theorem reread_eq {statement : Statement} (h : statement.expr.IsExact localTypes) :
    statement.reread localTypes = statement.asRead localTypes := by
  rw [reread, asRead, Expr.reread_eq_asRead h]

/-- The lexemes of a statement as it is written. -/
def lexemes (localTypes : List String) (statement : Statement) : List Lexeme :=
  if statement.returns then .word "return" :: statement.expr.lexemes localTypes
  else statement.expr.lexemes localTypes

theorem spells_toSource {statement : Statement} (h : statement.expr.IsSpelled cut localTypes) :
    Spells cut (statement.toSource localTypes) (statement.lexemes localTypes) := by
  have hexpr := Expr.spells_toSource h
  unfold toSource lexemes
  split
  · intro rest next hbreaks tail
    have hreturn : isWord "return" = true := by decide
    rw [String.toList_append, List.append_assoc]
    exact Scan.cut_word hreturn (Scan.breaks_blank (by decide) _)
      (Scan.cut_blank (by decide) (hexpr _ _ hbreaks tail))
  · exact hexpr

/-- What a statement may start with: the word `return`, or what an expression may start with. -/
theorem exists_lexemes_eq_cons {statement : Statement} (h : statement.expr.IsWritten localTypes) :
    ∃ first others, statement.lexemes localTypes = first :: others ∧
      (first = .word "return" ∨ Expr.startsPrimary first = true ∨ first = .op '!') := by
  unfold lexemes
  split
  · exact ⟨_, _, rfl, .inl rfl⟩
  · obtain ⟨first, others, hlexemes, hfirst⟩ := (Expr.derives_ternary (Expr.derives_lexemes h)).exists_cons
    exact ⟨first, others, hlexemes, .inr (hfirst.imp_right And.right)⟩

theorem notNext_lexemes {statement : Statement} (h : statement.expr.IsWritten localTypes) {symbol : Char}
    (hopen : symbol ≠ '(') (hnot : symbol ≠ '!') (after : List Lexeme) :
    NotNext symbol (statement.lexemes localTypes ++ after) := by
  obtain ⟨first, others, hlexemes, hfirst⟩ := exists_lexemes_eq_cons h
  rw [hlexemes]
  intro hhead
  cases Option.some.inj hhead
  rcases hfirst with heq | hfirst | heq
  · cases heq
  · exact hopen (beq_iff_eq.mp hfirst)
  · exact hnot (Lexeme.op.inj heq)

/-- The written statement does not start with a parenthesis, so it cannot be taken for the arguments of a call. -/
def IsSeparate (localTypes : List String) (statement : Statement) : Prop :=
  (statement.toSource localTypes).toList.head? ≠ some '('

instance (statement : Statement) : Decidable (statement.IsSeparate localTypes) :=
  inferInstanceAs (Decidable ((statement.toSource localTypes).toList.head? ≠ some '('))

/-- The written statement starts with a parenthesis. -/
def OpensParenthesis (localTypes : List String) (statement : Statement) : Prop :=
  (statement.lexemes localTypes).head? = some (.op '(')

instance (statement : Statement) : Decidable (statement.OpensParenthesis localTypes) :=
  inferInstanceAs (Decidable ((statement.lexemes localTypes).head? = some (.op '(')))

/-- The first statement ends in a name, and the second starts with a parenthesis, so that it is taken for the arguments of a call. -/
def RunsInto (localTypes : List String) (first second : Statement) : Prop :=
  (first.expr.reread localTypes).endsInName = true ∧ second.OpensParenthesis localTypes

instance (first second : Statement) : Decidable (first.RunsInto localTypes second) :=
  inferInstanceAs (Decidable ((first.expr.reread localTypes).endsInName = true ∧
    second.OpensParenthesis localTypes))

theorem IsSeparate.not_opensParenthesis {statement : Statement} (h : statement.IsSeparate localTypes)
    (hwritten : statement.expr.IsWritten localTypes) : ¬statement.OpensParenthesis localTypes := by
  intro hopen
  unfold OpensParenthesis lexemes at hopen
  split at hopen
  · cases hopen
  · rename_i hreturns
    refine h ?_
    rw [toSource, if_neg hreturns]
    exact Expr.head?_toSource hwritten hopen

theorem notNext_open {statement : Statement} (h : statement.expr.IsWritten localTypes)
    (hopen : ¬statement.OpensParenthesis localTypes) (after : List Lexeme) :
    NotNext '(' (statement.lexemes localTypes ++ after) := by
  obtain ⟨first, others, hlexemes, _⟩ := exists_lexemes_eq_cons h
  unfold OpensParenthesis at hopen
  rw [hlexemes] at hopen ⊢
  exact hopen

theorem word?_return_eq_none {expr : Expr} (h : expr.IsWritten localTypes) {after : List Lexeme}
    (htokens : tokens.map Token.lexeme = expr.lexemes localTypes ++ after) : word? "return" tokens = none := by
  rcases eq_cons_or_word?_eq_none "return" tokens with ⟨line, tail, rfl⟩ | hnone
  · obtain ⟨first, others, hlexemes, hfirst⟩ := (Expr.derives_ternary (Expr.derives_lexemes h)).exists_cons
    have hword : first = .word "return" := by
      rw [hlexemes] at htokens
      exact (List.cons.inj htokens).1.symm
    subst hword
    rcases hfirst with hprimary | ⟨_, hnot⟩
    · exact absurd hprimary (by decide)
    · cases hnot
  · exact hnone

theorem reads_parseExpr {statement : Statement} (h : statement.expr.IsWritten localTypes)
    {after : List Lexeme}
    (hafter : Expr.Ends (statement.expr.reread localTypes).endsInName after) :
    Reads (parseExpr lastLine) (statement.lexemes localTypes ++ after) (statement.reread localTypes)
      after := by
  intro tokens htokens
  obtain ⟨returns, expr⟩ := statement
  cases returns with
  | true =>
    obtain ⟨line, inside, rfl, hinside⟩ := exists_of_map_lexeme_eq_cons htokens
    obtain ⟨rest, hexpr, hrest⟩ := Expr.reads_lexemes h hafter inside hinside
    exact ⟨rest, gives_parseExpr_iff.mpr (.inl ⟨line, inside, rfl, _, hexpr, rfl⟩), hrest⟩
  | false =>
    obtain ⟨rest, hexpr, hrest⟩ := Expr.reads_lexemes h hafter tokens htokens
    exact ⟨rest, gives_parseExpr_iff.mpr (.inr ⟨word?_return_eq_none h htokens, _, hexpr, rfl⟩), hrest⟩

theorem reads_parse {statement : Statement} (h : statement.expr.IsWritten localTypes)
    {after : List Lexeme}
    (hafter : Expr.Ends (statement.expr.reread localTypes).endsInName after) (hsemicolon : NotNext ';' after) :
    Reads (parse lastLine) (statement.lexemes localTypes ++ after) (statement.reread localTypes)
      after := by
  intro tokens htokens
  obtain ⟨rest, hexpr, hrest⟩ := reads_parseExpr h hafter tokens htokens
  refine ⟨rest, gives_parse_iff.mpr ⟨rest, hexpr, ?_⟩, hrest⟩
  exact (hsemicolon.dropSemicolons_eq hrest).symm

/-- The end of a method, or the next statement in it, starts with none of the symbols that an expression could go on with or that end a statement, except for the opening parenthesis. -/
theorem notNext_body {body : List Statement}
    (h : ∀ statement ∈ body, statement.expr.IsWritten localTypes) {symbol : Char}
    (hclose : symbol ≠ '\x7d') (hnot : symbol ≠ '!') (hopen : symbol ≠ '(') (after : List Lexeme) :
    NotNext symbol (body.flatMap (lexemes localTypes) ++ .op '\x7d' :: after) := by
  cases body with
  | nil => exact notNext_symbol hclose.symm after
  | cons statement body =>
    rw [List.flatMap_cons, List.append_assoc]
    exact notNext_lexemes (h statement List.mem_cons_self) hopen hnot _

theorem ends_body {statement : Statement} {body : List Statement}
    (h : ∀ other ∈ body, other.expr.IsWritten localTypes)
    (hruns : ∀ second ∈ body.head?, ¬statement.RunsInto localTypes second) (after : List Lexeme) :
    Expr.Ends (statement.expr.reread localTypes).endsInName
      (body.flatMap (lexemes localTypes) ++ .op '\x7d' :: after) where
  property := notNext_body h (by decide) (by decide) (by decide) after
  ternary := notNext_body h (by decide) (by decide) (by decide) after
  call := by
    intro hname
    cases body with
    | nil => exact notNext_symbol (by decide) after
    | cons second body =>
      rw [List.flatMap_cons, List.append_assoc]
      exact notNext_open (h second List.mem_cons_self) (fun hopen => hruns second rfl ⟨hname, hopen⟩) _

theorem gives_parseBody_cons_iff {methodName : String} {statement : Statement} {body : List Statement}
    (h : ∀ other ∈ statement :: body, other.expr.IsWritten localTypes)
    (hruns : ∀ second ∈ body.head?, ¬statement.RunsInto localTypes second) {after : List Lexeme}
    (htokens : tokens.map Token.lexeme
      = (statement :: body).flatMap (lexemes localTypes) ++ .op '\x7d' :: after) :
    ∃ middle, middle.map Token.lexeme = body.flatMap (lexemes localTypes) ++ .op '\x7d' :: after ∧
      ∀ whole rest, Gives (parseBody lastLine methodName tokens) whole rest ↔ ∃ others,
        Gives (parseBody lastLine methodName middle) others rest ∧
          whole = statement.reread localTypes :: others := by
  obtain ⟨hfirst, hothers⟩ := List.forall_mem_cons.mp h
  have hsemicolon : NotNext ';' (body.flatMap (lexemes localTypes) ++ .op '\x7d' :: after) :=
    notNext_body hothers (by decide) (by decide) (by decide) after
  rw [List.flatMap_cons, List.append_assoc] at htokens
  have hreads : Reads (parse lastLine) _ (statement.reread localTypes) _ :=
    reads_parse hfirst (ends_body hothers hruns after) hsemicolon
  obtain ⟨middle, hparse, hmiddle⟩ := hreads tokens htokens
  have hclose : symbol? '\x7d' tokens = none :=
    (notNext_lexemes hfirst (by decide) (by decide) _).symbol?_eq_none htokens
  refine ⟨middle, hmiddle, fun whole rest => ?_⟩
  rw [gives_parseBody_iff]
  constructor
  · rintro (⟨_, rfl, _⟩ | ⟨_, _, _, _, others, hgives, hbody, rfl⟩)
    · rw [symbol?_cons] at hclose
      cases hclose
    · obtain ⟨rfl, rfl⟩ := hparse.unique hgives
      exact ⟨others, hbody, rfl⟩
  · rintro ⟨others, hbody, rfl⟩
    refine .inr ⟨hclose, ?_, _, middle, others, hparse, hbody, rfl⟩
    rintro rfl
    exact absurd hparse.shorter (Nat.not_lt_zero _)

/-- Written statements are read one by one: each ends where the next one starts. -/
theorem reads_parseBody {methodName : String} {body : List Statement}
    (h : ∀ statement ∈ body, statement.expr.IsWritten localTypes)
    (hapart : body.IsChain fun first second => ¬first.RunsInto localTypes second)
    (after : List Lexeme) :
    Reads (parseBody lastLine methodName)
      (body.flatMap (lexemes localTypes) ++ .op '\x7d' :: after) (body.map (reread localTypes)) after := by
  induction body with
  | nil =>
    intro tokens htokens
    obtain ⟨line, rest, rfl, hrest⟩ := exists_of_map_lexeme_eq_cons htokens
    exact ⟨rest, gives_parseBody_iff.mpr (.inl ⟨line, rfl, rfl⟩), hrest⟩
  | cons statement body ih =>
    intro tokens htokens
    obtain ⟨hruns, hothers⟩ := List.isChain_cons.mp hapart
    obtain ⟨middle, hmiddle, hgives⟩ := gives_parseBody_cons_iff h hruns htokens
    obtain ⟨rest, hbody, hrest⟩ := ih (List.forall_mem_cons.mp h).2 hothers middle hmiddle
    exact ⟨rest, (hgives _ _).mpr ⟨_, hbody, rfl⟩, hrest⟩

end Statement

/-! ### Methods -/

namespace Method

/-- A source can say the method if it can say its types and its expressions. -/
structure IsWritten (types : TypeRef → Prop) (exprs : Expr → Prop) (method : Method) : Prop where
  name : isName method.name = true
  returnType : ∀ known ∈ method.returnType, types known
  parameters : ∀ parameter ∈ method.parameters, parameter.IsWritten types
  distinct : method.parameterNames.Nodup
  body : ∀ statement ∈ method.body, exprs statement.expr

theorem IsWritten.imp {types otherTypes : TypeRef → Prop} {exprs otherExprs : Expr → Prop}
    {method : Method} (h : method.IsWritten types exprs)
    (hreturn : ∀ known ∈ method.returnType, types known → otherTypes known)
    (hparameters : ∀ parameter ∈ method.parameters, ∀ known ∈ parameter.type,
      types known → otherTypes known)
    (hbody : ∀ statement ∈ method.body, exprs statement.expr → otherExprs statement.expr) :
    method.IsWritten otherTypes otherExprs where
  name := h.name
  returnType := fun known hknown => hreturn known hknown (h.returnType known hknown)
  parameters := fun parameter hparameter =>
    (h.parameters parameter hparameter).imp (hparameters parameter hparameter)
  distinct := h.distinct
  body := fun statement hstatement => hbody statement hstatement (h.body statement hstatement)

/-- No statement but the first can be taken for the arguments of a call. -/
def IsSeparated (localTypes : List String) (method : Method) : Prop :=
  ∀ statement ∈ method.body.tail, statement.IsSeparate localTypes

instance (method : Method) : Decidable (method.IsSeparated localTypes) :=
  inferInstanceAs (Decidable (∀ statement ∈ method.body.tail, statement.IsSeparate localTypes))

/-- No statement runs into the next one. -/
def KeepsApart (localTypes : List String) (method : Method) : Prop :=
  method.body.IsChain fun first second => ¬first.RunsInto localTypes second

instance (method : Method) : Decidable (method.KeepsApart localTypes) :=
  inferInstanceAs (Decidable (method.body.IsChain fun first second => ¬first.RunsInto localTypes second))

theorem IsSeparated.keepsApart {method : Method} (h : method.IsSeparated localTypes)
    (hwritten : ∀ statement ∈ method.body, statement.expr.IsWritten localTypes) :
    method.KeepsApart localTypes := by
  unfold IsSeparated at h
  unfold KeepsApart
  generalize method.body = body at h hwritten
  induction body with
  | nil => exact .nil
  | cons first body ih =>
    have hbody := (List.forall_mem_cons.mp hwritten).2
    cases body with
    | nil => exact .singleton first
    | cons second body =>
      obtain ⟨hsecond, hothers⟩ := List.forall_mem_cons.mp h
      have hopen := hsecond.not_opensParenthesis (hbody second List.mem_cons_self)
      exact List.isChain_cons_cons.mpr ⟨fun hruns => hopen hruns.2, ih hothers hbody⟩

/-- The method as it is read in the scope. -/
def reread (scope : NameScope) (localTypes : List String) (method : Method) : Method :=
  { method with
    returnType := method.returnType.map (TypeRef.reread scope localTypes)
    parameters := method.parameters.map (Parameter.reread scope localTypes)
    body := method.body.map (Statement.reread localTypes) }

/-- The method as it is read if its types mean themselves in the scope and no number changes. -/
def asRead (localTypes : List String) (method : Method) : Method :=
  { method with
    returnType := method.returnType.map TypeRef.asRead
    parameters := method.parameters.map Parameter.asRead
    body := method.body.map (Statement.asRead localTypes) }

theorem asRead_of_isParsed {method : Method} (h : method.IsWritten TypeRef.IsParsed Expr.IsParsed) :
    method.asRead localTypes = method := by
  have hparameters : method.parameters.map Parameter.asRead = method.parameters :=
    map_eq_self_of_forall fun parameter hparameter =>
      Parameter.asRead_of_isParsed (h.parameters parameter hparameter)
  have hbody : method.body.map (Statement.asRead localTypes) = method.body :=
    map_eq_self_of_forall fun statement hstatement =>
      Statement.asRead_of_isParsed (h.body statement hstatement)
  rw [asRead, TypeRef.map_asRead_of_isParsed h.returnType, hparameters, hbody]

theorem reread_eq {method : Method}
    (h : method.IsWritten (TypeRef.IsReadBack scope localTypes) (Expr.IsExact localTypes)) :
    method.reread scope localTypes = method.asRead localTypes := by
  have hparameters : method.parameters.map (Parameter.reread scope localTypes)
      = method.parameters.map Parameter.asRead :=
    List.map_congr_left fun parameter hparameter => Parameter.reread_eq (h.parameters parameter hparameter)
  have hbody : method.body.map (Statement.reread localTypes)
      = method.body.map (Statement.asRead localTypes) :=
    List.map_congr_left fun statement hstatement => Statement.reread_eq (h.body statement hstatement)
  rw [reread, asRead, TypeRef.map_reread_eq h.returnType, hparameters, hbody]

/-- The lexemes of a method behind its name. -/
def tailLexemes (localTypes : List String) (method : Method) : List Lexeme :=
  .op '(' :: ([.op ','].intercalate (method.parameters.map (Parameter.lexemes localTypes))
    ++ .op ')' :: .op '\x7b' :: (method.body.flatMap (Statement.lexemes localTypes) ++ [.op '\x7d']))

/-- The lexemes of a method as it is written. -/
def lexemes (localTypes : List String) (method : Method) : List Lexeme :=
  headLexemes localTypes method.modifiers method.returnType
    ++ .word method.name :: method.tailLexemes localTypes

theorem gives_parseMethod_iff {name : String} {modifiers : Modifiers} {returnType : Option TypeRef}
    {member : Member} :
    Gives (Member.parseMethod scope lastLine name modifiers returnType tokens) member rest ↔
      ∃ parameters line inside body,
        Gives (Parameter.parseAll scope lastLine tokens) parameters (⟨.op '\x7b', line⟩ :: inside) ∧
        Gives (Statement.parseBody lastLine name (dropSemicolons inside)) body rest ∧
        member = .method { name, modifiers, returnType, parameters, body } := by
  rw [Member.parseMethod, Gives.bind_iff]
  constructor
  · rintro ⟨parameters, _, hparameters, hnext⟩
    obtain ⟨⟨⟩, _, hopen, hbody⟩ := Gives.bind_iff.mp hnext
    obtain ⟨inside, hsymbol, rfl⟩ := gives_skipSemicolons_iff.mp hopen
    obtain ⟨line, rfl⟩ := gives_symbol_iff.mp hsymbol
    simp only [Gives.bind_iff, Gives.pure_iff, Step.after_value, Step.after_rest, Step.map_value,
      Step.map_rest] at hbody
    obtain ⟨body, _, hgives, rfl, rfl⟩ := hbody
    exact ⟨parameters, line, inside, body, hparameters, hgives, rfl⟩
  · rintro ⟨parameters, line, inside, body, hparameters, hbody, rfl⟩
    refine ⟨parameters, _, hparameters, Gives.bind_iff.mpr ⟨(), dropSemicolons inside, ?_, ?_⟩⟩
    · exact gives_skipSemicolons_iff.mpr ⟨inside, gives_symbol_iff.mpr ⟨line, rfl⟩, rfl⟩
    · simp only [Gives.bind_iff, Gives.pure_iff, Step.after_value, Step.after_rest, Step.map_value,
        Step.map_rest]
      exact ⟨body, rest, hbody, rfl, rfl⟩

theorem leaves_of_parseMethod {name : String} {modifiers : Modifiers} {returnType : Option TypeRef}
    {member : Member}
    (h : Gives (Member.parseMethod scope lastLine name modifiers returnType tokens) member rest) :
    Leaves tokens rest := by
  obtain ⟨parameters, line, inside, body, hparameters, hbody, _⟩ := gives_parseMethod_iff.mp h
  exact (Parameter.leaves_of_parseAll hparameters).tail.dropSemicolons.trans (Statement.leaves_of_parseBody hbody)

theorem isParsed_of_parseMethod {name : String} {modifiers : Modifiers} {returnType : Option TypeRef}
    {member : Member} (hscope : scope.IsWritten) (hname : isName name = true)
    (htype : ∀ known ∈ returnType, known.IsParsed) (hwords : AreWords (tokens.map Token.lexeme))
    (h : Gives (Member.parseMethod scope lastLine name modifiers returnType tokens) member rest) :
    ∃ method : Method, member = .method method ∧ method.IsWritten TypeRef.IsParsed Expr.IsParsed := by
  obtain ⟨parameters, line, inside, body, hparameters, hbody, rfl⟩ := gives_parseMethod_iff.mp h
  obtain ⟨hall, hdistinct⟩ := Parameter.isParsed_of_parseAll hscope hwords hparameters
  have hinside := (Parameter.leaves_of_parseAll hparameters).tail.dropSemicolons.areWords hwords
  have hexprs := Statement.isParsed_of_parseBody hinside hbody
  exact ⟨_, rfl, ⟨hname, htype, hall, hdistinct, hexprs⟩⟩

/-- The first line of a method. -/
def head (localTypes : List String) (method : Method) : String :=
  declarationHead localTypes method.modifiers method.returnType ++ " " ++ method.name ++ "("
    ++ ", ".intercalate (method.parameters.map (Parameter.toSource localTypes)) ++ ") \x7b"

theorem spells_head {method : Method} {exprs : Expr → Prop}
    (h : method.IsWritten (TypeRef.IsSaid localTypes) exprs) :
    Spells cut (method.head localTypes) (headLexemes localTypes method.modifiers method.returnType
      ++ .word method.name :: .op '('
        :: ([.op ','].intercalate (method.parameters.map (Parameter.lexemes localTypes))
          ++ [.op ')', .op '\x7b'])) := by
  intro rest next hbreaks tail
  have htype : Spells cut (declarationHead localTypes method.modifiers method.returnType)
      (headLexemes localTypes method.modifiers method.returnType) :=
    spells_declarationHead h.returnType
  have hparameters : Spells cut (", ".intercalate (method.parameters.map (Parameter.toSource localTypes)))
      ([.op ','].intercalate (method.parameters.map (Parameter.lexemes localTypes))) :=
    spells_intercalate fun parameter hparameter =>
      Parameter.spells_toSource (h.parameters parameter hparameter)
  rw [head]
  simp only [String.toList_append, String.reduceToList, List.append_assoc, List.cons_append,
    List.nil_append]
  exact htype _ _ (Scan.breaks_blank (by decide) _) (Scan.cut_blank (by decide)
    (Scan.cut_word (isWord_of_isName h.name) (Scan.breaks_symbol (by decide) (by decide) _)
      (Scan.cut_symbol (by decide) (hparameters _ _ (Scan.breaks_symbol (by decide) (by decide) _)
        (Scan.cut_symbol (by decide) (Scan.cut_blank (by decide)
          (Scan.cut_symbol (by decide) tail)))))))

theorem spellsLines_sourceLines {method : Method} {indent : String} (hindent : IsIndent indent)
    (h : method.IsWritten (TypeRef.IsSaid localTypes) (Expr.IsSpelled cut localTypes)) :
    SpellsLines cut (method.sourceLines localTypes indent) (method.lexemes localTypes) := by
  have hbody : SpellsLines cut (method.body.map fun statement => indent ++ statement.toSource localTypes)
      (method.body.flatMap (Statement.lexemes localTypes)) :=
    SpellsLines.map fun statement hstatement =>
      spells_indented hindent (Statement.spells_toSource (h.body statement hstatement))
  have hlines := (SpellsLines.cons (spells_head h) hbody).append (.singleton spells_close)
  rw [lexemes, tailLexemes]
  simp only [List.append_assoc, List.cons_append, List.nil_append] at hlines ⊢
  exact hlines

theorem gives_parseMethod_iff_of_lexemes {method : Method}
    (h : method.IsWritten (TypeRef.IsSaid localTypes) (Expr.IsWritten localTypes)) {after : List Lexeme}
    (htokens : tokens.map Token.lexeme
      = [.op ','].intercalate (method.parameters.map (Parameter.lexemes localTypes))
        ++ .op ')' :: .op '\x7b' :: (method.body.flatMap (Statement.lexemes localTypes)
          ++ .op '\x7d' :: after)) :
    ∃ inside, inside.map Token.lexeme
        = method.body.flatMap (Statement.lexemes localTypes) ++ .op '\x7d' :: after ∧
      ∀ member rest, Gives (Member.parseMethod scope lastLine method.name method.modifiers
          (method.returnType.map (TypeRef.reread scope localTypes)) tokens) member rest ↔
        ∃ body, Gives (Statement.parseBody lastLine method.name inside) body rest ∧
          member = .method { method.reread scope localTypes with body } := by
  obtain ⟨_, hparameters, hopen⟩ := Parameter.reads_parseAll h.parameters h.distinct _ tokens htokens
  obtain ⟨line, inside, rfl, hinside⟩ := exists_of_map_lexeme_eq_cons hopen
  have hsemicolon : NotNext ';' (method.body.flatMap (Statement.lexemes localTypes)
      ++ .op '\x7d' :: after) :=
    Statement.notNext_body h.body (by decide) (by decide) (by decide) after
  have hsame : dropSemicolons inside = inside := hsemicolon.dropSemicolons_eq hinside
  refine ⟨inside, hinside, fun member rest => ?_⟩
  rw [gives_parseMethod_iff]
  constructor
  · rintro ⟨_, _, _, body, hfound, hbody, rfl⟩
    obtain ⟨rfl, hcons⟩ := hparameters.unique hfound
    cases hcons
    exact ⟨body, by rwa [hsame] at hbody, rfl⟩
  · rintro ⟨body, hbody, rfl⟩
    exact ⟨_, line, inside, body, hparameters, by rwa [hsame], rfl⟩

end Method

end GuardedLogging
