import GuardedLogging.CompilationUnit.ReadBack
import GuardedLogging.Proofs.CompilationUnit.ClassWords

/-!
# Units are read back

A written unit has a package declaration if it has a package, no imports, and its classes. It is read in the scope of its package and of the classes it declares.
-/

namespace GuardedLogging

open Cursor

variable {cut : Scan.Cutting} {scope : NameScope} {localTypes : List String} {lastLine : Nat}
  {tokens rest : List Token}

namespace CompilationUnit

theorem gives_parsePackage_iff {package : String} :
    Gives (parsePackage lastLine tokens) package rest ↔
      (∃ line after, tokens = ⟨.word "package", line⟩ :: after ∧
        ∃ middle, Gives (dottedName lastLine after) package middle ∧ rest = dropSemicolons middle) ∨
      (word? "package" tokens = none ∧ package = "" ∧ rest = tokens) := by
  refine iff_word_or ?_ fun hnone => ?_
  · rintro line after rfl
    rw [parsePackage]
    simp only [word?_cons, Step.next, Gives.bind_iff, gives_skipSemicolons_iff, Gives.pure_iff,
      Step.optional_value, Step.optional_rest, Step.after_value, Step.after_rest]
    constructor
    · rintro ⟨_, _, ⟨middle, hname, rfl⟩, rfl, rfl⟩
      exact ⟨middle, hname, rfl⟩
    · rintro ⟨middle, hname, rfl⟩
      exact ⟨package, _, ⟨middle, hname, rfl⟩, rfl, rfl⟩
  · rw [parsePackage, hnone]
    exact Gives.stay_iff

theorem gives_parseImports_iff {earlier imports : List (String × String)} :
    Gives (parseImports lastLine earlier tokens) imports rest ↔
      (∃ line after, tokens = ⟨.word "import", line⟩ :: after ∧ ∃ name middle,
        Gives (dottedName lastLine after) name middle ∧
        Gives (parseImports lastLine ((lastPart name, name) :: earlier) (dropSemicolons middle)) imports
          rest) ∨
      (word? "import" tokens = none ∧ imports = earlier ∧ rest = tokens) := by
  refine iff_word_or ?_ fun hnone => ?_
  · rintro line after rfl
    rw [parseImports]
    simp only [word?_cons, Step.next, Gives.bind_iff, gives_skipSemicolons_iff, Gives.pure_iff,
      Step.optional_value, Step.optional_rest, Step.after_value, Step.after_rest, Step.weaken_value,
      Step.weaken_rest]
    constructor
    · rintro ⟨name, _, ⟨middle, hname, rfl⟩, _, _, hothers, rfl, rfl⟩
      exact ⟨name, middle, hname, hothers⟩
    · rintro ⟨name, middle, hname, hothers⟩
      exact ⟨name, _, ⟨middle, hname, rfl⟩, imports, rest, hothers, rfl, rfl⟩
  · rw [parseImports, hnone]
    exact Gives.stay_iff

theorem parseClasses_eq_ok_iff {unit whole : CompilationUnit} :
    parseClasses scope lastLine unit tokens = .ok whole ↔
      (tokens = [] ∧ whole = unit) ∨
      (tokens ≠ [] ∧ ∃ decl line middle,
        Gives (ClassDecl.parse scope lastLine tokens) (decl, line) middle ∧
        unit.class? decl.name = none ∧
        parseClasses scope lastLine { unit with classes := unit.classes ++ [decl] }
          (dropSemicolons middle) = .ok whole) := by
  rw [parseClasses]
  cases tokens with
  | nil =>
    simp only [List.isEmpty_nil, if_true, true_and, ne_eq, not_true_eq_false, false_and, or_false]
    exact ⟨fun h => (Except.ok.inj h).symm, fun h => congrArg Except.ok h.symm⟩
  | cons token tokens =>
    simp only [List.isEmpty_cons, Bool.false_eq_true, if_false, reduceCtorEq, false_and, false_or,
      ne_eq, not_false_eq_true, true_and]
    cases hparsed : ClassDecl.parse scope lastLine (token :: tokens) with
    | error error =>
      constructor
      · intro h
        cases h
      · rintro ⟨decl, line, middle, hgives, _⟩
        exact (Gives.error_iff.mp hgives).elim
    | ok step =>
      obtain ⟨⟨decl, line⟩, middle, hshorter⟩ := step
      show (if (unit.class? decl.name).isSome = true then _ else _) = _ ↔ _
      cases hclass : unit.class? decl.name with
      | some other =>
        constructor
        · intro h
          cases h
        · rintro ⟨_, _, _, hgives, hnone, _⟩
          obtain ⟨hvalue, _⟩ := Gives.ok_iff.mp hgives
          cases hvalue
          rw [hclass] at hnone
          cases hnone
      | none =>
        simp only [Option.isSome_none, Bool.false_eq_true, if_false]
        constructor
        · exact fun h => ⟨decl, line, middle, Gives.ok_iff.mpr ⟨rfl, rfl⟩, hclass, h⟩
        · rintro ⟨_, _, _, hgives, _, h⟩
          obtain ⟨hvalue, hrest⟩ := Gives.ok_iff.mp hgives
          cases hvalue
          subst hrest
          exact h

theorem ofTokens_eq_ok_iff {name : Scalar} {list : TokenList} {unit : CompilationUnit} :
    ofTokens name list = .ok unit ↔
      ∃ package afterPackage imports afterImports,
        Gives (parsePackage list.lastLine list.tokens) package afterPackage ∧
        Gives (parseImports list.lastLine [] afterPackage) imports afterImports ∧
        parseClasses ⟨package, imports, wordsAfterClass list.tokens⟩ list.lastLine
          { name, package := .text package } afterImports = .ok unit := by
  rw [ofTokens]
  cases hpackage : parsePackage list.lastLine list.tokens with
  | error error =>
    constructor
    · intro h
      cases h
    · rintro ⟨_, _, _, _, hgives, _⟩
      exact (Gives.error_iff.mp hgives).elim
  | ok package =>
    show (parseImports list.lastLine [] package.rest >>= _) = _ ↔ _
    cases himports : parseImports list.lastLine [] package.rest with
    | error error =>
      constructor
      · intro h
        cases h
      · rintro ⟨_, _, _, _, hgives, hothers, _⟩
        obtain ⟨rfl, rfl⟩ := Gives.ok_iff.mp hgives
        rw [himports] at hothers
        exact (Gives.error_iff.mp hothers).elim
    | ok imports =>
      constructor
      · intro h
        refine ⟨_, _, imports.value, imports.rest, Gives.ok_iff.mpr ⟨rfl, rfl⟩, ?_, h⟩
        rw [himports]
        exact Gives.ok_iff.mpr ⟨rfl, rfl⟩
      · rintro ⟨_, _, _, _, hgives, hothers, h⟩
        obtain ⟨rfl, rfl⟩ := Gives.ok_iff.mp hgives
        rw [himports] at hothers
        obtain ⟨rfl, rfl⟩ := Gives.ok_iff.mp hothers
        exact h

/-! ### Units that can be written -/

/-- The package of a unit as it is written. -/
def packageName (unit : CompilationUnit) : String := unit.package.plain

/-- The names by which the classes of a unit are declared. -/
def simpleNames (unit : CompilationUnit) : List String := unit.classes.map ClassDecl.simpleName

/-- A source can say the unit if it can say its types and expressions. -/
structure IsWritten (types : TypeRef → Prop) (exprs : Expr → Prop) (unit : CompilationUnit) : Prop where
  text : unit.package = .text unit.packageName
  package : unit.packageName = "" ∨ isDottedName unit.packageName = true
  classes : ∀ decl ∈ unit.classes, decl.IsWritten unit.packageName types exprs
  distinct : unit.classNames.Nodup

theorem IsWritten.imp {types otherTypes : TypeRef → Prop} {exprs otherExprs : Expr → Prop}
    {unit : CompilationUnit} (h : unit.IsWritten types exprs)
    (htypes : ∀ decl ∈ unit.classes, ∀ entry ∈ decl.typeReferences,
      types entry.2 → otherTypes entry.2)
    (hexprs : ∀ decl ∈ unit.classes, ∀ entry ∈ decl.expressions,
      exprs entry.2 → otherExprs entry.2) : unit.IsWritten otherTypes otherExprs where
  text := h.text
  package := h.package
  classes := fun decl hdecl => (h.classes decl hdecl).imp (htypes decl hdecl) (hexprs decl hdecl)
  distinct := h.distinct

theorem name_not_mem_of_class?_eq_none {unit : CompilationUnit} {name : String}
    (h : unit.class? name = none) : name ∉ unit.classNames := by
  intro hmem
  obtain ⟨decl, hdecl, rfl⟩ := List.mem_map.mp hmem
  have hnone := List.find?_eq_none.mp h decl hdecl
  simp at hnone

theorem isParsed_of_parseClasses {unit whole : CompilationUnit} (hscope : scope.IsWritten)
    (hwords : AreWords (tokens.map Token.lexeme)) (hpackage : unit.packageName = scope.package)
    (hunit : unit.IsWritten TypeRef.IsParsed Expr.IsParsed)
    (h : parseClasses scope lastLine unit tokens = .ok whole) :
    whole.IsWritten TypeRef.IsParsed Expr.IsParsed := by
  induction hlength : tokens.length using Nat.strongRecOn generalizing tokens unit with
  | ind length ih =>
    rcases parseClasses_eq_ok_iff.mp h with ⟨_, rfl⟩ | ⟨_, decl, line, middle, hdecl, hnew, hothers⟩
    · exact hunit
    · have hwritten := ClassDecl.isParsed_of_parse hscope hwords hdecl
      have hmiddle := (ClassDecl.leaves_of_parse hdecl).dropSemicolons.areWords hwords
      have hmore : IsWritten TypeRef.IsParsed Expr.IsParsed
          { unit with classes := unit.classes ++ [decl] } := by
        refine ⟨hunit.text, hunit.package, List.forall_mem_append.mpr ⟨hunit.classes, ?_⟩, ?_⟩
        · rw [← hpackage] at hwritten
          exact List.forall_mem_singleton.mpr hwritten
        · exact nodup_map_append_singleton hunit.distinct (name_not_mem_of_class?_eq_none hnew)
      have hsame : packageName { unit with classes := unit.classes ++ [decl] } = scope.package :=
        hpackage
      have hshorter := Nat.lt_of_le_of_lt (length_dropSemicolons_le middle) hdecl.shorter
      exact ih _ (hlength ▸ hshorter) hmiddle hsame hmore hothers rfl

theorem leaves_of_parsePackage {package : String} (h : Gives (parsePackage lastLine tokens) package rest) :
    Leaves tokens rest := by
  rcases gives_parsePackage_iff.mp h with ⟨line, after, rfl, middle, hname, rfl⟩ | ⟨_, _, rfl⟩
  · exact ((leaves_of_dottedName hname).cons _).dropSemicolons
  · exact .refl _

theorem leaves_of_parseImports {earlier imports : List (String × String)}
    (h : Gives (parseImports lastLine earlier tokens) imports rest) : Leaves tokens rest := by
  induction hlength : tokens.length using Nat.strongRecOn generalizing tokens earlier with
  | ind length ih =>
    rcases gives_parseImports_iff.mp h with ⟨line, after, rfl, name, middle, hname, hothers⟩ | ⟨_, _, rfl⟩
    · have hshorter := Nat.lt_of_le_of_lt (length_dropSemicolons_le middle) hname.shorter
      simp only [List.length_cons] at hlength
      exact ((leaves_of_dottedName hname).cons _).dropSemicolons.trans (ih _ (by omega) hothers rfl)
    · exact .refl _

theorem isDottedName_of_parsePackage {package : String} (hwords : AreWords (tokens.map Token.lexeme))
    (h : Gives (parsePackage lastLine tokens) package rest) : package = "" ∨ isDottedName package = true := by
  rcases gives_parsePackage_iff.mp h with ⟨line, after, rfl, middle, hname, rfl⟩ | ⟨_, rfl, rfl⟩
  · exact .inr (isDottedName_of_gives hwords.tail hname)
  · exact .inl rfl

theorem isDottedName_of_parseImports {earlier imports : List (String × String)}
    (hwords : AreWords (tokens.map Token.lexeme))
    (hearlier : ∀ imported ∈ earlier, isDottedName imported.2 = true)
    (h : Gives (parseImports lastLine earlier tokens) imports rest) :
    ∀ imported ∈ imports, isDottedName imported.2 = true := by
  induction hlength : tokens.length using Nat.strongRecOn generalizing tokens earlier with
  | ind length ih =>
    rcases gives_parseImports_iff.mp h with
      ⟨line, after, rfl, name, middle, hname, hothers⟩ | ⟨_, rfl, rfl⟩
    · have hdotted := isDottedName_of_gives hwords.tail hname
      have hmiddle := (leaves_of_dottedName hname).dropSemicolons.areWords hwords.tail
      have hshorter := Nat.lt_of_le_of_lt (length_dropSemicolons_le middle) hname.shorter
      simp only [List.length_cons] at hlength
      exact ih _ (by omega) hmiddle (List.forall_mem_cons.mpr ⟨hdotted, hearlier⟩) hothers rfl
    · exact hearlier

theorem exists_tokenize_of_parse {source : String} {name : Scalar} {unit : CompilationUnit}
    (h : parse source name = .ok unit) :
    ∃ list, tokenize source = .ok list ∧ AreWords (list.tokens.map Token.lexeme) ∧
      ofTokens name list = .ok unit := by
  unfold parse at h
  cases htokens : tokenize source with
  | error error =>
    rw [htokens] at h
    cases h
  | ok list =>
    rw [htokens] at h
    have hcut := Scan.cut_of_tokensFrom htokens
    exact ⟨list, rfl, fun _ hword => Scan.isWord_of_cut hcut hword, h⟩

theorem isParsed_of_parse {source : String} {name : Scalar} {unit : CompilationUnit}
    (h : parse source name = .ok unit) : unit.IsWritten TypeRef.IsParsed Expr.IsParsed := by
  obtain ⟨list, _, hwords, htokens⟩ := exists_tokenize_of_parse h
  obtain ⟨package, afterPackage, imports, afterImports, hpackage, himports, hclasses⟩ :=
    ofTokens_eq_ok_iff.mp htokens
  have hafter := (leaves_of_parsePackage hpackage).areWords hwords
  have hrest := (leaves_of_parseImports himports).areWords hafter
  have hdotted := isDottedName_of_parsePackage hwords hpackage
  have himported := isDottedName_of_parseImports hafter (List.forall_mem_nil _) himports
  have hempty : IsWritten TypeRef.IsParsed Expr.IsParsed { name, package := .text package } :=
    ⟨rfl, hdotted, List.forall_mem_nil _, List.nodup_nil⟩
  exact isParsed_of_parseClasses ⟨hdotted, himported⟩ hrest rfl hempty hclasses

/-! ### Writing -/

/-- The unit as it is read in the scope. -/
def reread (scope : NameScope) (unit : CompilationUnit) : CompilationUnit :=
  { unit with classes := unit.classes.map (ClassDecl.reread scope unit.classNames) }

/-- The unit as it is read if its types mean themselves in the scope and no number changes: its types are not resolved, and references to types are names. -/
def asRead (unit : CompilationUnit) : CompilationUnit :=
  { unit with classes := unit.classes.map (ClassDecl.asRead unit.classNames) }

theorem asRead_of_isParsed {unit : CompilationUnit}
    (h : unit.IsWritten TypeRef.IsParsed Expr.IsParsed) : unit.asRead = unit := by
  have hclasses : unit.classes.map (ClassDecl.asRead unit.classNames) = unit.classes :=
    map_eq_self_of_forall fun decl hdecl =>
      ClassDecl.asRead_of_isParsed (h.classes decl hdecl).toHasWrittenMembers
  rw [asRead, hclasses]

theorem reread_eq {unit : CompilationUnit}
    (h : unit.IsWritten (TypeRef.IsReadBack scope unit.classNames) (Expr.IsExact unit.classNames))
    (hintegers : ∀ decl ∈ unit.classes, ∀ mark ∈ decl.annotations, mark.HasIntegersOnly) :
    unit.reread scope = unit.asRead := by
  have hclasses : unit.classes.map (ClassDecl.reread scope unit.classNames)
      = unit.classes.map (ClassDecl.asRead unit.classNames) :=
    List.map_congr_left fun decl hdecl => ClassDecl.reread_eq (h.classes decl hdecl) (hintegers decl hdecl)
  rw [reread, asRead, hclasses]

/-- The lexemes of the package declaration, if there is one. -/
def packageLexemes (package : String) : List Lexeme :=
  if package.isEmpty then [] else .word "package" :: dottedLexemes package

/-- The lexemes of a unit as it is written. -/
def lexemes (unit : CompilationUnit) : List Lexeme :=
  packageLexemes unit.packageName ++ unit.classes.flatMap (ClassDecl.lexemes unit.classNames)

/-- No number in the unit has a fraction. -/
structure HasIntegersOnly (unit : CompilationUnit) : Prop where
  exprs : ∀ decl ∈ unit.classes, ∀ entry ∈ decl.expressions, ∀ node ∈ entry.2.nodes,
    node.isReal = false
  annotations : ∀ decl ∈ unit.classes, ∀ mark ∈ decl.annotations, mark.HasIntegersOnly

theorem spellsLines_package {unit : CompilationUnit} (htext : unit.package = .text unit.packageName)
    (hpackage : unit.packageName = "" ∨ isDottedName unit.packageName = true) :
    SpellsLines cut (if unit.package.isTrue then ["package " ++ unit.package.plain, ""] else [])
      (packageLexemes unit.packageName) := by
  have htrue : unit.package.isTrue = !unit.packageName.isEmpty := by
    rw [htext]
    rfl
  unfold packageLexemes
  rw [htrue]
  cases hempty : unit.packageName.isEmpty with
  | true => exact .nil
  | false =>
    rcases hpackage with hnone | hdotted
    · rw [hnone] at hempty
      cases hempty
    · have hline : Spells cut ("package " ++ unit.package.plain)
          (.word "package" :: dottedLexemes unit.packageName) := by
        intro rest next hbreaks tail
        have hword : isWord "package" = true := by decide
        rw [String.toList_append, List.append_assoc]
        exact Scan.cut_word hword (Scan.breaks_blank (by decide) _) (Scan.cut_blank (by decide)
          (spells_dottedName hdotted _ _ hbreaks tail))
      have hlines := SpellsLines.cons hline (.singleton spells_empty)
      rw [List.append_nil] at hlines
      exact hlines

theorem spellsLines_sourceLines {unit : CompilationUnit} {indent : String} (hindent : IsIndent indent)
    (h : unit.IsWritten (TypeRef.IsSaid unit.classNames) (Expr.IsSpelled cut unit.classNames))
    (hmarks : ∀ decl ∈ unit.classes, ∀ mark ∈ decl.annotations, mark.IsSpelled cut) :
    SpellsLines cut (unit.sourceLines indent) unit.lexemes := by
  have hclasses : List.Forall₂ (SpellsLines cut)
      (unit.classes.map (ClassDecl.sourceLines unit.classNames indent))
      (unit.classes.map (ClassDecl.lexemes unit.classNames)) := by
    rw [List.forall₂_map_left_iff, List.forall₂_map_right_iff]
    exact List.forall₂_same.mpr fun decl hdecl =>
      ClassDecl.spellsLines_sourceLines hindent (h.classes decl hdecl) (hmarks decl hdecl)
  exact (spellsLines_package h.text h.package).append (SpellsLines.blocks hclasses)

theorem relates_toSource {unit : CompilationUnit} {indent : String} (hindent : IsIndent indent)
    (h : unit.IsWritten (TypeRef.IsSaid unit.classNames) (Expr.IsSpelled cut unit.classNames))
    (hmarks : ∀ decl ∈ unit.classes, ∀ mark ∈ decl.annotations, mark.IsSpelled cut)
    (hend : cut.Relates [] []) : cut.Relates (unit.toSource indent).toList unit.lexemes := by
  have hlines := (spellsLines_sourceLines hindent h hmarks).spells ['\n'] []
    (Scan.breaks_blank (by decide) []) (Scan.cut_blank (by decide) hend)
  rw [toSource, String.toList_append]
  rwa [List.append_nil] at hlines

/-! ### Reading -/

/-- What the declaration of a class starts with comes next, or nothing. -/
def StartsClass (lexemes : List Lexeme) : Prop :=
  ∀ first ∈ lexemes.head?, first = .op '@' ∨ first = .word "class" ∨
    ∃ modifier : Modifier, first = .word modifier.word

theorem startsClass_openingLexemes (decl : ClassDecl) (after : List Lexeme) :
    StartsClass (decl.openingLexemes ++ after) := by
  intro first hfirst
  rw [ClassDecl.openingLexemes, Modifiers.lexemes, Modifiers.words] at hfirst
  cases hannotations : decl.annotations with
  | cons mark marks =>
    rw [hannotations] at hfirst
    exact .inl (Option.some.inj hfirst).symm
  | nil =>
    rw [hannotations] at hfirst
    cases hmodifiers : decl.modifiers.toList with
    | nil =>
      rw [hmodifiers] at hfirst
      exact .inr (.inl (Option.some.inj hfirst).symm)
    | cons modifier modifiers =>
      rw [hmodifiers] at hfirst
      exact .inr (.inr ⟨modifier, (Option.some.inj hfirst).symm⟩)

/-- Written classes start like one, and so does what follows them if there are none. -/
theorem startsClass_flatMap (decls : List ClassDecl) {after : List Lexeme} (hafter : StartsClass after) :
    StartsClass (decls.flatMap (ClassDecl.lexemes localTypes) ++ after) := by
  cases decls with
  | nil => exact hafter
  | cons decl decls =>
    rw [List.flatMap_cons, List.append_assoc, ClassDecl.lexemes_eq, List.append_assoc]
    exact startsClass_openingLexemes decl _

theorem StartsClass.notNext {lexemes : List Lexeme} (h : StartsClass lexemes) {symbol : Char}
    (hsymbol : symbol ≠ '@') : NotNext symbol lexemes := by
  intro hhead
  rcases h _ hhead with heq | heq | ⟨_, heq⟩
  · exact hsymbol (Lexeme.op.inj heq)
  · cases heq
  · cases heq

theorem StartsClass.word?_eq_none {lexemes : List Lexeme} (h : StartsClass lexemes) {word : String}
    (hclass : word ≠ "class") (hmodifier : ∀ modifier : Modifier, word ≠ modifier.word)
    (htokens : tokens.map Token.lexeme = lexemes) : word? word tokens = none := by
  rcases eq_cons_or_word?_eq_none word tokens with ⟨line, rest, rfl⟩ | hnone
  · rcases h (.word word) (by rw [← htokens]; rfl) with heq | heq | ⟨modifier, heq⟩
    · cases heq
    · exact absurd (Lexeme.word.inj heq) hclass
    · exact absurd (Lexeme.word.inj heq) (hmodifier modifier)
  · exact hnone

theorem class?_eq_none {unit : CompilationUnit} {package : String} {decl : ClassDecl}
    (h : ∀ other ∈ unit.classes, other.IsNamedIn package) (hdecl : decl.IsNamedIn package)
    (hnew : decl.name ∉ unit.classNames) : unit.class? decl.name = none := by
  refine List.find?_eq_none.mpr fun other hother hfound => hnew ?_
  rw [Bool.or_eq_true, beq_iff_eq, beq_iff_eq] at hfound
  have hname : other.name = decl.name := by
    rcases hfound with hname | hsimple
    · exact hname
    · obtain ⟨hotherSimple, hotherName⟩ := h other hother
      -- A simple name without a dot is the last part of itself.
      have hlast : other.simpleName = decl.simpleName := by
        show other.simpleName = lastPart decl.name
        rw [← hsimple]
        exact (lastPart_eq_self (dot_not_mem_of_isWord (isWord_of_isName hotherSimple))).symm
      rw [hotherName, hdecl.name, hlast]
  exact List.mem_map.mpr ⟨other, hother, hname⟩

theorem parseClasses_eq_ok_iff_of_gives {unit whole : CompilationUnit} {decl : ClassDecl} {line : Nat}
    (h : Gives (ClassDecl.parse scope lastLine tokens) (decl, line) rest)
    (hnew : unit.class? decl.name = none) :
    parseClasses scope lastLine unit tokens = .ok whole ↔
      parseClasses scope lastLine { unit with classes := unit.classes ++ [decl] } (dropSemicolons rest)
        = .ok whole := by
  have hne : tokens ≠ [] := by
    rintro rfl
    exact absurd h.shorter (Nat.not_lt_zero _)
  rw [parseClasses_eq_ok_iff]
  constructor
  · rintro (⟨hnil, _⟩ | ⟨_, found, foundLine, middle, hgives, _, hothers⟩)
    · exact absurd hnil hne
    · obtain ⟨hsame, rfl⟩ := h.unique hgives
      cases hsame
      exact hothers
  · exact fun hothers => .inr ⟨hne, decl, line, rest, h, hnew, hothers⟩

theorem parseClasses_lexemes {unit : CompilationUnit} {decls : List ClassDecl} {after : List Lexeme}
    (h : ∀ decl ∈ decls, decl.IsWritten scope.package (TypeRef.IsSaid localTypes)
      (Expr.IsWritten localTypes))
    (hapart : ∀ decl ∈ decls, ∀ method ∈ decl.methods, method.KeepsApart localTypes)
    (hearlier : ∀ other ∈ unit.classes, other.IsNamedIn scope.package)
    (hdistinct : (unit.classNames ++ decls.map (·.name)).Nodup) (hafter : StartsClass after)
    (htokens : tokens.map Token.lexeme = decls.flatMap (ClassDecl.lexemes localTypes) ++ after) :
    ∃ rest, rest.map Token.lexeme = after ∧ ∀ whole,
      parseClasses scope lastLine unit tokens = .ok whole ↔
        parseClasses scope lastLine
          { unit with classes := unit.classes ++ decls.map (ClassDecl.reread scope localTypes) } rest
          = .ok whole := by
  induction decls generalizing unit tokens with
  | nil =>
    refine ⟨tokens, htokens, fun whole => ?_⟩
    rw [List.map_nil, List.append_nil]
  | cons decl decls ih =>
    obtain ⟨hdecl, hdecls⟩ := List.forall_mem_cons.mp h
    obtain ⟨hmethods, hapart⟩ := List.forall_mem_cons.mp hapart
    have hnew : decl.name ∉ unit.classNames :=
      fun hmem => (List.nodup_append.mp hdistinct).2.2 _ hmem _ List.mem_cons_self rfl
    have hnamed : (decl.reread scope localTypes).IsNamedIn scope.package :=
      ⟨hdecl.simpleName, hdecl.name⟩
    have hstarts : StartsClass (decls.flatMap (ClassDecl.lexemes localTypes) ++ after) :=
      startsClass_flatMap decls hafter
    rw [List.flatMap_cons, List.append_assoc] at htokens
    obtain ⟨line, middle, hgives, hmiddle⟩ := ClassDecl.exists_gives_parse hdecl hmethods htokens
    have hmoved : (classNames { unit with classes := unit.classes ++ [decl.reread scope localTypes] }
        ++ decls.map (·.name)).Nodup := by
      rw [classNames, List.map_append, List.append_assoc]
      exact hdistinct
    obtain ⟨rest, hrest, hothers⟩ := ih hdecls hapart
      (List.forall_mem_append.mpr ⟨hearlier, List.forall_mem_singleton.mpr hnamed⟩) hmoved hmiddle
    refine ⟨rest, hrest, fun whole => ?_⟩
    have hsemicolon := (hstarts.notNext (by decide)).dropSemicolons_eq hmiddle
    have happend : unit.classes ++ (decl :: decls).map (ClassDecl.reread scope localTypes)
        = unit.classes ++ [decl.reread scope localTypes]
          ++ decls.map (ClassDecl.reread scope localTypes) := by
      rw [List.map_cons, List.append_cons]
    rw [parseClasses_eq_ok_iff_of_gives hgives (class?_eq_none hearlier hnamed hnew), hsemicolon,
      happend]
    exact hothers whole

theorem reads_parsePackage {package : String} (h : package = "" ∨ isDottedName package = true)
    {after : List Lexeme} (hafter : StartsClass after) :
    Reads (parsePackage lastLine) (packageLexemes package ++ after) package after := by
  intro tokens htokens
  unfold packageLexemes at htokens
  split at htokens
  · rename_i hempty
    refine ⟨tokens, gives_parsePackage_iff.mpr (.inr ⟨?_, String.isEmpty_iff.mp hempty, rfl⟩), htokens⟩
    exact hafter.word?_eq_none (by decide) (Modifier.ofWord?_eq_none_iff.mp (by decide)) htokens
  · rename_i hempty
    rcases h with rfl | hdotted
    · exact absurd rfl hempty
    · obtain ⟨line, inside, rfl, hinside⟩ := exists_of_map_lexeme_eq_cons htokens
      obtain ⟨rest, hname, hrest⟩ :=
        reads_dottedName hdotted (hafter.notNext (by decide)) inside hinside
      refine ⟨rest, gives_parsePackage_iff.mpr (.inl ⟨line, inside, rfl, rest, hname, ?_⟩), hrest⟩
      exact ((hafter.notNext (by decide)).dropSemicolons_eq hrest).symm

theorem noClass_packageLexemes {package : String} (h : "class" ∉ dotParts package) :
    NoClass (packageLexemes package) := by
  unfold packageLexemes
  split
  · exact .nil
  · exact NoClass.word_iff.mpr ⟨by decide, NoClass.dottedLexemes h⟩

theorem ofTokens_eq_ok_iff_of_lexemes {name : Scalar} {package : String} {decls : List ClassDecl}
    {list : TokenList} {after : List Lexeme}
    (hpackage : package = "" ∨ isDottedName package = true)
    (h : ∀ decl ∈ decls, decl.IsWritten package (TypeRef.IsSaid localTypes) (Expr.IsWritten localTypes))
    (hapart : ∀ decl ∈ decls, ∀ method ∈ decl.methods, method.KeepsApart localTypes)
    (hdistinct : (decls.map (·.name)).Nodup) (hafter : StartsClass after)
    (htokens : list.tokens.map Token.lexeme
      = packageLexemes package ++ (decls.flatMap (ClassDecl.lexemes localTypes) ++ after)) :
    let scope : NameScope := ⟨package, [], wordsAfterClass list.tokens⟩
    ∃ rest, rest.map Token.lexeme = after ∧ ∀ whole,
      ofTokens name list = .ok whole ↔
        parseClasses scope list.lastLine
          { name, package := .text package, classes := decls.map (ClassDecl.reread scope localTypes) } rest
          = .ok whole := by
  intro scope
  have hstarts : StartsClass (decls.flatMap (ClassDecl.lexemes localTypes) ++ after) :=
    startsClass_flatMap decls hafter
  obtain ⟨afterPackage, hparsePackage, hrest⟩ := reads_parsePackage hpackage hstarts list.tokens htokens
  have himports : Gives (parseImports list.lastLine [] afterPackage) [] afterPackage := by
    refine gives_parseImports_iff.mpr (.inr ⟨?_, rfl, rfl⟩)
    exact hstarts.word?_eq_none (by decide) (Modifier.ofWord?_eq_none_iff.mp (by decide)) hrest
  let empty : CompilationUnit := { name, package := .text package }
  have hearlier : ∀ other ∈ empty.classes, other.IsNamedIn scope.package := List.forall_mem_nil _
  obtain ⟨rest, hlexemes, hclasses⟩ :=
    @parseClasses_lexemes scope localTypes list.lastLine _ empty _ _ h hapart hearlier hdistinct hafter hrest
  refine ⟨rest, hlexemes, fun whole => ?_⟩
  rw [ofTokens_eq_ok_iff]
  constructor
  · rintro ⟨_, _, _, _, hgives, hmore, hwhole⟩
    obtain ⟨rfl, rfl⟩ := hparsePackage.unique hgives
    obtain ⟨rfl, rfl⟩ := himports.unique hmore
    exact (hclasses whole).mp hwhole
  · exact fun hwhole =>
      ⟨package, afterPackage, [], afterPackage, hparsePackage, himports, (hclasses whole).mpr hwhole⟩

/-- From its lexemes, a written unit is read in the scope of its package and of the words that follow the word `class`. -/
theorem ofTokens_of_lexemes {unit : CompilationUnit} {list : TokenList}
    (h : unit.IsWritten (TypeRef.IsSaid unit.classNames) (Expr.IsWritten unit.classNames))
    (hapart : ∀ decl ∈ unit.classes, ∀ method ∈ decl.methods, method.KeepsApart unit.classNames)
    (htokens : list.tokens.map Token.lexeme = unit.lexemes) :
    ofTokens unit.name list
      = .ok (unit.reread ⟨unit.packageName, [], wordsAfterClass list.tokens⟩) := by
  rw [lexemes, ← List.append_nil (unit.classes.flatMap _)] at htokens
  have hend : StartsClass [] := fun _ hfirst => by cases hfirst
  obtain ⟨rest, hrest, hwhole⟩ :=
    ofTokens_eq_ok_iff_of_lexemes h.package h.classes hapart h.distinct hend htokens
  cases List.map_eq_nil_iff.mp hrest
  refine (hwhole _).mpr (parseClasses_eq_ok_iff.mpr (.inl ⟨rfl, ?_⟩))
  rw [reread, h.text]

theorem readBack_eq_ofTokens {unit : CompilationUnit} {indent : String} {list : TokenList}
    (h : tokenize (unit.toSource indent) = .ok list) :
    unit.readBack indent = ofTokens unit.name list := by
  show tokenize (unit.toSource indent) >>= ofTokens unit.name = _
  rw [h]
  rfl

/-- The scope in which a written unit is read if the word `class` stands only in front of declared names. -/
def readScope (unit : CompilationUnit) : NameScope := ⟨unit.packageName, [], unit.simpleNames⟩

theorem readBack_eq_reread {unit : CompilationUnit} {indent : String} {list : TokenList}
    (h : unit.IsWritten (TypeRef.IsSaid unit.classNames) (Expr.IsWritten unit.classNames))
    (hapart : ∀ decl ∈ unit.classes, ∀ method ∈ decl.methods, method.KeepsApart unit.classNames)
    (htokenize : tokenize (unit.toSource indent) = .ok list)
    (hlexemes : list.tokens.map Token.lexeme = unit.lexemes) :
    unit.readBack indent = .ok (unit.reread ⟨unit.packageName, [], classWords unit.lexemes⟩) := by
  rw [readBack_eq_ofTokens htokenize, ofTokens_of_lexemes h hapart hlexemes, wordsAfterClass_eq, hlexemes]

theorem exists_tokenize_of_isSpelled {unit : CompilationUnit} {indent : String} (hindent : IsIndent indent)
    (h : unit.IsWritten (TypeRef.IsSaid unit.classNames) (Expr.IsSpelled .exact unit.classNames))
    (hmarks : ∀ decl ∈ unit.classes, ∀ mark ∈ decl.annotations, mark.IsSpelled .exact) :
    ∃ list, tokenize (unit.toSource indent) = .ok list ∧
      list.tokens.map Token.lexeme = unit.lexemes := by
  have hcut : Scan.Cut (unit.toSource indent).toList unit.lexemes := relates_toSource hindent h hmarks .nil
  exact Scan.tokensFrom_of_cut hcut 1

theorem exists_tokenize_eq {unit : CompilationUnit} {indent : String} (hindent : IsIndent indent)
    (h : unit.IsWritten (TypeRef.IsSaid unit.classNames) (Expr.IsExact unit.classNames))
    (hintegers : ∀ decl ∈ unit.classes, ∀ mark ∈ decl.annotations, mark.HasIntegersOnly) :
    ∃ list, tokenize (unit.toSource indent) = .ok list ∧
      list.tokens.map Token.lexeme = unit.lexemes := by
  have hspelled : unit.IsWritten (TypeRef.IsSaid unit.classNames) (Expr.IsSpelled .exact unit.classNames) :=
    h.imp (fun _ _ _ _ => id) fun _ _ _ _ hexpr => hexpr.isSpelled
  exact exists_tokenize_of_isSpelled hindent hspelled fun decl hdecl mark hmark =>
    Annotation.isSpelled_of_hasIntegersOnly ((h.classes decl hdecl).annotations mark hmark)
      (hintegers decl hdecl mark hmark)

theorem readBack_eq {unit : CompilationUnit} {indent : String} (hindent : IsIndent indent)
    (h : unit.IsWritten (TypeRef.IsReadBack unit.readScope unit.classNames) fun expr =>
      expr.IsExact unit.classNames ∧ NoClass (expr.lexemes unit.classNames))
    (hintegers : ∀ decl ∈ unit.classes, ∀ mark ∈ decl.annotations, mark.HasIntegersOnly)
    (hseparated : ∀ decl ∈ unit.classes, ∀ method ∈ decl.methods, method.IsSeparated unit.classNames)
    (hpackage : "class" ∉ dotParts unit.packageName)
    (hmarks : ∀ decl ∈ unit.classes, ∀ mark ∈ decl.annotations, "class" ∉ dotParts mark.name) :
    unit.readBack indent = .ok unit.asRead := by
  have hexact : unit.IsWritten (TypeRef.IsReadBack unit.readScope unit.classNames)
      (Expr.IsExact unit.classNames) :=
    h.imp (fun _ _ _ _ => id) fun _ _ _ _ => And.left
  have hclass : unit.IsWritten (TypeRef.IsReadBack unit.readScope unit.classNames) fun expr =>
      NoClass (expr.lexemes unit.classNames) :=
    h.imp (fun _ _ _ _ => id) fun _ _ _ _ => And.right
  have hsaid : unit.IsWritten (TypeRef.IsSaid unit.classNames) (Expr.IsExact unit.classNames) :=
    hexact.imp (fun _ _ _ _ htype => htype.isSaid) fun _ _ _ _ => id
  have hwritten : unit.IsWritten (TypeRef.IsSaid unit.classNames) (Expr.IsWritten unit.classNames) :=
    hsaid.imp (fun _ _ _ _ => id) fun _ _ _ _ hexpr => hexpr.isWritten
  obtain ⟨list, htokenize, hlexemes⟩ := exists_tokenize_eq hindent hsaid hintegers
  have hwords : classWords unit.lexemes = unit.simpleNames := by
    rw [lexemes, classWords_append (noClass_packageLexemes hpackage)]
    exact ClassDecl.classWords_flatMap_lexemes hclass.classes hmarks
  have hapart : ∀ decl ∈ unit.classes, ∀ method ∈ decl.methods, method.KeepsApart unit.classNames :=
    fun decl hdecl method hmethod => (hseparated decl hdecl method hmethod).keepsApart
      ((hwritten.classes decl hdecl).methods method hmethod).body
  rw [readBack_eq_reread hwritten hapart htokenize hlexemes, hwords]
  exact congrArg Except.ok (reread_eq hexact hintegers)

end CompilationUnit

end GuardedLogging
