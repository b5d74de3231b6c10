import GuardedLogging.Audit
import GuardedLogging.Proofs.CompilationUnit.Annotations
import GuardedLogging.Proofs.CompilationUnit.Members

/-!
# Classes are read back

A class is written with its fields in front of its methods, and its members are read in any order. The line of its closing brace is read along with it and matters for errors only.
-/

namespace GuardedLogging

open Cursor
open Annotation (parseAll leaves_of_parseAll)

variable {cut : Scan.Cutting} {scope : NameScope} {localTypes : List String} {lastLine : Nat}
  {tokens rest : List Token}

namespace ClassDecl

variable {decl : ClassDecl} {types : TypeRef → Prop} {exprs : Expr → Prop}

theorem gives_parseMembers_iff {simpleName : String} {whole : ClassDecl × Nat} :
    Gives (parseMembers scope lastLine simpleName decl tokens) whole rest ↔
      (∃ line, tokens = ⟨.op '\x7d', line⟩ :: rest ∧ whole = (decl, Cursor.line lastLine tokens)) ∨
      (symbol? '\x7d' tokens = none ∧ tokens ≠ [] ∧ ∃ member middle,
        Gives (Member.parse scope lastLine decl.name decl.fields tokens) member middle ∧
        Gives (parseMembers scope lastLine simpleName (decl.appendMember member)
          (dropSemicolons middle)) whole rest) := by
  rw [parseMembers]
  refine gives_closing_iff.trans (or_congr_right (and_congr_right fun _ => ?_))
  cases tokens with
  | nil => simp
  | cons token tokens =>
    simp only [List.isEmpty_cons, Bool.false_eq_true, if_false, Gives.bind_iff,
      gives_skipSemicolons_iff, Gives.pure_iff, Step.after_value, Step.after_rest, true_and, ne_eq,
      reduceCtorEq, not_false_eq_true]
    constructor
    · rintro ⟨member, _, ⟨middle, hmember, rfl⟩, _, _, hothers, rfl, rfl⟩
      exact ⟨member, middle, hmember, hothers⟩
    · rintro ⟨member, middle, hmember, hothers⟩
      exact ⟨member, _, ⟨middle, hmember, rfl⟩, whole, rest, hothers, rfl, rfl⟩

theorem gives_parse_iff {whole : ClassDecl × Nat} :
    Gives (parse scope lastLine tokens) whole rest ↔
      ∃ annotations afterAnnotations modifiers classLine name nameLine openLine inside,
        Gives (parseAll lastLine tokens) annotations afterAnnotations ∧
        Gives (Modifiers.parse .none afterAnnotations) modifiers
          (⟨.word "class", classLine⟩ :: ⟨.word name, nameLine⟩ :: ⟨.op '\x7b', openLine⟩ :: inside) ∧
        isKeyword name = false ∧
        Gives (parseMembers scope lastLine name
          { name := qualify scope.package name, annotations, modifiers } (dropSemicolons inside))
          whole rest := by
  rw [parse]
  constructor
  · intro h
    obtain ⟨annotations, afterAnnotations, hannotations, hnext⟩ := Gives.bind_iff.mp h
    obtain ⟨modifiers, afterModifiers, hmodifiers, hclass⟩ := Gives.bind_iff.mp hnext
    rcases eq_cons_or_word?_eq_none "class" afterModifiers with ⟨classLine, _, rfl⟩ | hnone
    · simp only [word?_cons, Step.next] at hclass
      obtain ⟨name, afterName, hname, hmore⟩ := Gives.bind_iff.mp hclass
      obtain ⟨nameLine, rfl, hkeyword⟩ := gives_identifier_iff.mp hname
      obtain ⟨⟨⟩, _, hopen, hmembers⟩ := Gives.bind_iff.mp hmore
      obtain ⟨inside, hsymbol, rfl⟩ := gives_skipSemicolons_iff.mp hopen
      obtain ⟨openLine, rfl⟩ := gives_symbol_iff.mp hsymbol
      simp only [Gives.bind_iff, Gives.pure_iff, Step.after_value, Step.after_rest,
        Step.afterOptional_value, Step.afterOptional_rest] at hmembers
      obtain ⟨_, _, hgives, rfl, rfl⟩ := hmembers
      exact ⟨annotations, afterAnnotations, modifiers, classLine, name, nameLine, openLine, inside,
        hannotations, hmodifiers, hkeyword, hgives⟩
    · simp only [hnone] at hclass
      exact (Gives.fail_iff.mp hclass).elim
  · rintro ⟨annotations, afterAnnotations, modifiers, classLine, name, nameLine, openLine, inside,
      hannotations, hmodifiers, hkeyword, hmembers⟩
    refine Gives.bind_iff.mpr ⟨annotations, afterAnnotations, hannotations, ?_⟩
    refine Gives.bind_iff.mpr ⟨modifiers, _, hmodifiers, ?_⟩
    simp only [word?_cons, Step.next]
    refine Gives.bind_iff.mpr ⟨name, _, gives_identifier_iff.mpr ⟨nameLine, rfl, hkeyword⟩, ?_⟩
    refine Gives.bind_iff.mpr ⟨(), dropSemicolons inside, ?_, ?_⟩
    · exact gives_skipSemicolons_iff.mpr ⟨inside, gives_symbol_iff.mpr ⟨openLine, rfl⟩, rfl⟩
    · simp only [Gives.bind_iff, Gives.pure_iff, Step.after_value, Step.after_rest,
        Step.afterOptional_value, Step.afterOptional_rest]
      exact ⟨whole, rest, hmembers, rfl, rfl⟩

/-! ### Classes that can be written -/

/-- A source can say the members of the class if it can say their types and expressions. -/
structure HasWrittenMembers (types : TypeRef → Prop) (exprs : Expr → Prop) (decl : ClassDecl) : Prop where
  fields : ∀ field ∈ decl.fields, field.IsWritten types exprs decl.name
  distinct : (decl.fields.map (·.name)).Nodup
  methods : ∀ method ∈ decl.methods, method.IsWritten types exprs

/-- A source can say the class in this package if it can say its types and expressions. -/
structure IsWritten (package : String) (types : TypeRef → Prop) (exprs : Expr → Prop) (decl : ClassDecl) :
    Prop extends HasWrittenMembers types exprs decl where
  simpleName : isName decl.simpleName = true
  name : decl.name = qualify package decl.simpleName
  annotations : ∀ mark ∈ decl.annotations, mark.IsWritten

theorem exists_mem_typeReferences_of_field {field : Field} {type : TypeRef} (hfield : field ∈ decl.fields)
    (htype : type ∈ field.type) : ∃ place, (place, type) ∈ decl.typeReferences := by
  refine ⟨"type of field " ++ decl.name ++ "." ++ field.name, ?_⟩
  refine List.mem_append_left _ (List.mem_append_left _ (List.mem_filterMap.mpr ⟨field, hfield, ?_⟩))
  rw [Option.mem_def.mp htype]
  rfl

theorem exists_mem_typeReferences_of_method {method : Method} {type : TypeRef}
    (hmethod : method ∈ decl.methods) (htype : type ∈ method.returnType) :
    ∃ place, (place, type) ∈ decl.typeReferences := by
  refine ⟨"return type of " ++ decl.name ++ "." ++ method.name ++ "()", ?_⟩
  refine List.mem_append_left _ (List.mem_append_right _ (List.mem_flatMap.mpr ⟨method, hmethod, ?_⟩))
  refine List.mem_append_left _ (List.mem_map.mpr ⟨type, ?_, rfl⟩)
  exact Option.mem_toList.mpr htype

theorem exists_mem_typeReferences_of_parameter {method : Method} {parameter : Parameter}
    {type : TypeRef} (hmethod : method ∈ decl.methods) (hparameter : parameter ∈ method.parameters)
    (htype : type ∈ parameter.type) : ∃ place, (place, type) ∈ decl.typeReferences := by
  refine ⟨"parameter " ++ parameter.name ++ " of " ++ decl.name ++ "." ++ method.name ++ "()", ?_⟩
  refine List.mem_append_left _ (List.mem_append_right _ (List.mem_flatMap.mpr ⟨method, hmethod, ?_⟩))
  refine List.mem_append_right _ (List.mem_filterMap.mpr ⟨parameter, hparameter, ?_⟩)
  rw [Option.mem_def.mp htype]
  rfl

theorem exists_mem_expressions_of_field {field : Field} (hfield : field ∈ decl.fields)
    (hinitial : ¬field.initial.isAbsent = true) : ∃ place, (place, field.initial) ∈ decl.expressions := by
  refine ⟨decl.name ++ "." ++ field.name, List.mem_append_left _ (List.mem_map.mpr ⟨field, ?_, rfl⟩)⟩
  exact List.mem_filter.mpr ⟨hfield, by simpa using hinitial⟩

theorem exists_mem_expressions_of_statement {method : Method} {statement : Statement}
    (hmethod : method ∈ decl.methods) (hstatement : statement ∈ method.body) :
    ∃ place, (place, statement.expr) ∈ decl.expressions := by
  refine ⟨decl.name ++ "." ++ method.name ++ "()", List.mem_append_right _ ?_⟩
  exact List.mem_flatMap.mpr ⟨method, hmethod, List.mem_map.mpr ⟨statement, hstatement, rfl⟩⟩

theorem IsWritten.imp {package : String} {otherTypes : TypeRef → Prop} {otherExprs : Expr → Prop}
    (h : decl.IsWritten package types exprs)
    (htypes : ∀ entry ∈ decl.typeReferences, types entry.2 → otherTypes entry.2)
    (hexprs : ∀ entry ∈ decl.expressions, exprs entry.2 → otherExprs entry.2) :
    decl.IsWritten package otherTypes otherExprs where
  fields := by
    intro field hfield
    refine (h.fields field hfield).imp (fun known hknown => ?_) fun hinitial => ?_
    · obtain ⟨place, hentry⟩ := exists_mem_typeReferences_of_field hfield hknown
      exact htypes _ hentry
    · obtain ⟨place, hentry⟩ := exists_mem_expressions_of_field hfield hinitial
      exact hexprs _ hentry
  distinct := h.distinct
  methods := by
    intro method hmethod
    refine (h.methods method hmethod).imp (fun known hknown => ?_)
      (fun parameter hparameter known hknown => ?_) fun statement hstatement => ?_
    · obtain ⟨place, hentry⟩ := exists_mem_typeReferences_of_method hmethod hknown
      exact htypes _ hentry
    · obtain ⟨place, hentry⟩ := exists_mem_typeReferences_of_parameter hmethod hparameter hknown
      exact htypes _ hentry
    · obtain ⟨place, hentry⟩ := exists_mem_expressions_of_statement hmethod hstatement
      exact hexprs _ hentry
  simpleName := h.simpleName
  name := h.name
  annotations := h.annotations

/-- The name of the class is that of its declaration in the package. -/
structure IsNamedIn (package : String) (decl : ClassDecl) : Prop where
  simpleName : isName decl.simpleName = true
  name : decl.name = qualify package decl.simpleName

theorem HasWrittenMembers.appendField (h : decl.HasWrittenMembers types exprs) {field : Field}
    (hfield : field.IsWritten types exprs decl.name) (hnew : field.name ∉ decl.fields.map (·.name)) :
    (decl.appendMember (.field field)).HasWrittenMembers types exprs where
  fields := List.forall_mem_append.mpr ⟨h.fields, List.forall_mem_singleton.mpr hfield⟩
  distinct := nodup_map_append_singleton h.distinct hnew
  methods := h.methods

theorem HasWrittenMembers.appendMethod (h : decl.HasWrittenMembers types exprs) {method : Method}
    (hmethod : method.IsWritten types exprs) :
    (decl.appendMember (.method method)).HasWrittenMembers types exprs where
  fields := h.fields
  distinct := h.distinct
  methods := List.forall_mem_append.mpr ⟨h.methods, List.forall_mem_singleton.mpr hmethod⟩

theorem appendMember_name (member : Member) : (decl.appendMember member).name = decl.name := by
  cases member <;> rfl

theorem appendMember_annotations (member : Member) :
    (decl.appendMember member).annotations = decl.annotations := by
  cases member <;> rfl

theorem leaves_of_parseMembers {simpleName : String} {whole : ClassDecl × Nat}
    (h : Gives (parseMembers scope lastLine simpleName decl tokens) whole rest) : Leaves tokens rest := by
  induction hlength : tokens.length using Nat.strongRecOn generalizing tokens decl with
  | ind length ih =>
    rcases gives_parseMembers_iff.mp h with ⟨line, rfl, _⟩ | ⟨_, _, member, middle, hmember, hothers⟩
    · exact (Leaves.refl rest).cons _
    · have hshorter := Nat.lt_of_le_of_lt (length_dropSemicolons_le middle) hmember.shorter
      exact (Member.leaves_of_parse hmember).dropSemicolons.trans (ih _ (hlength ▸ hshorter) hothers rfl)

theorem leaves_of_parse {line : Nat} (h : Gives (parse scope lastLine tokens) (decl, line) rest) :
    Leaves tokens rest := by
  obtain ⟨annotations, afterAnnotations, modifiers, classLine, name, nameLine, openLine, inside,
    hannotations, hmodifiers, _, hmembers⟩ := gives_parse_iff.mp h
  have hfront := (leaves_of_parseAll hannotations).trans (Modifiers.leaves_of_parse hmodifiers)
  exact hfront.tail.tail.tail.dropSemicolons.trans (leaves_of_parseMembers hmembers)

theorem name_and_annotations_of_parseMembers {simpleName : String} {whole : ClassDecl × Nat}
    (h : Gives (parseMembers scope lastLine simpleName decl tokens) whole rest) :
    whole.1.name = decl.name ∧ whole.1.annotations = decl.annotations := by
  induction hlength : tokens.length using Nat.strongRecOn generalizing tokens decl with
  | ind length ih =>
    rcases gives_parseMembers_iff.mp h with ⟨line, rfl, rfl⟩ | ⟨_, _, member, middle, hmember, hothers⟩
    · exact ⟨rfl, rfl⟩
    · have hshorter := Nat.lt_of_le_of_lt (length_dropSemicolons_le middle) hmember.shorter
      obtain ⟨hname, hannotations⟩ := ih _ (hlength ▸ hshorter) hothers rfl
      exact ⟨hname.trans (appendMember_name member), hannotations.trans (appendMember_annotations member)⟩

theorem isParsed_of_parseMembers {simpleName : String} {whole : ClassDecl × Nat}
    (hscope : scope.IsWritten) (hwords : AreWords (tokens.map Token.lexeme))
    (hmembers : decl.HasWrittenMembers TypeRef.IsParsed Expr.IsParsed)
    (h : Gives (parseMembers scope lastLine simpleName decl tokens) whole rest) :
    whole.1.HasWrittenMembers TypeRef.IsParsed Expr.IsParsed := by
  induction hlength : tokens.length using Nat.strongRecOn generalizing tokens decl with
  | ind length ih =>
    rcases gives_parseMembers_iff.mp h with ⟨line, rfl, rfl⟩ | ⟨_, _, member, middle, hmember, hothers⟩
    · exact hmembers
    · have hmore : (decl.appendMember member).HasWrittenMembers TypeRef.IsParsed Expr.IsParsed := by
        rcases Member.isParsed_of_parse hscope hwords hmember with
          ⟨field, rfl, hnew, hfield⟩ | ⟨method, rfl, hmethod⟩
        · exact hmembers.appendField hfield hnew
        · exact hmembers.appendMethod hmethod
      have hmiddle := (Member.leaves_of_parse hmember).dropSemicolons.areWords hwords
      have hshorter := Nat.lt_of_le_of_lt (length_dropSemicolons_le middle) hmember.shorter
      exact ih _ (hlength ▸ hshorter) hmiddle hmore hothers rfl

/-- A class that was read is declared by the word behind `class`, which is found in the tokens. -/
theorem exists_name_of_parse {line : Nat} (hwords : AreWords (tokens.map Token.lexeme))
    (h : Gives (parse scope lastLine tokens) (decl, line) rest) :
    ∃ classLine nameLine inside, decl.IsNamedIn scope.package ∧
      Leaves tokens (⟨.word "class", classLine⟩ :: ⟨.word decl.simpleName, nameLine⟩ :: inside) := by
  obtain ⟨annotations, afterAnnotations, modifiers, classLine, name, nameLine, openLine, inside,
    hannotations, hmodifiers, hkeyword, hmembers⟩ := gives_parse_iff.mp h
  have hfront := (leaves_of_parseAll hannotations).trans (Modifiers.leaves_of_parse hmodifiers)
  have hname : isName name = true := (hfront.areWords hwords).tail.isName_head hkeyword
  have hqualified : decl.name = qualify scope.package name := (name_and_annotations_of_parseMembers hmembers).1
  have hsimple : decl.simpleName = name := by
    show lastPart decl.name = name
    rw [hqualified]
    exact lastPart_qualify scope.package (dot_not_mem_of_isWord (isWord_of_isName hname))
  subst hsimple
  exact ⟨classLine, nameLine, _, ⟨hname, hqualified⟩, hfront⟩

theorem isParsed_of_parse {line : Nat} (hscope : scope.IsWritten)
    (hwords : AreWords (tokens.map Token.lexeme))
    (h : Gives (parse scope lastLine tokens) (decl, line) rest) :
    decl.IsWritten scope.package TypeRef.IsParsed Expr.IsParsed := by
  obtain ⟨_, _, _, ⟨hsimple, hqualified⟩, _⟩ := exists_name_of_parse hwords h
  obtain ⟨annotations, afterAnnotations, modifiers, classLine, name, nameLine, openLine, inside,
    hannotations, hmodifiers, _, hmembers⟩ := gives_parse_iff.mp h
  have hfront := (leaves_of_parseAll hannotations).trans (Modifiers.leaves_of_parse hmodifiers)
  have hinside := hfront.tail.tail.tail.dropSemicolons.areWords hwords
  have hempty : HasWrittenMembers TypeRef.IsParsed Expr.IsParsed
      { name := qualify scope.package name, annotations, modifiers } :=
    ⟨List.forall_mem_nil _, List.nodup_nil, List.forall_mem_nil _⟩
  refine ⟨isParsed_of_parseMembers hscope hinside hempty hmembers, hsimple, hqualified, ?_⟩
  rw [(name_and_annotations_of_parseMembers hmembers).2]
  exact Annotation.isWritten_of_parseAll hwords hannotations

/-! ### Writing -/

/-- The class as it is read in the scope. -/
def reread (scope : NameScope) (localTypes : List String) (decl : ClassDecl) : ClassDecl :=
  { decl with
    annotations := decl.annotations.map Annotation.reread
    fields := decl.fields.map (Field.reread scope localTypes)
    methods := decl.methods.map (Method.reread scope localTypes) }

/-- The class as it is read if its types mean themselves in the scope and no number changes. -/
def asRead (localTypes : List String) (decl : ClassDecl) : ClassDecl :=
  { decl with
    fields := decl.fields.map (Field.asRead localTypes)
    methods := decl.methods.map (Method.asRead localTypes) }

theorem asRead_of_isParsed (h : decl.HasWrittenMembers TypeRef.IsParsed Expr.IsParsed) :
    decl.asRead localTypes = decl := by
  have hfields : decl.fields.map (Field.asRead localTypes) = decl.fields :=
    map_eq_self_of_forall fun field hfield => Field.asRead_of_isParsed (h.fields field hfield)
  have hmethods : decl.methods.map (Method.asRead localTypes) = decl.methods :=
    map_eq_self_of_forall fun method hmethod => Method.asRead_of_isParsed (h.methods method hmethod)
  rw [asRead, hfields, hmethods]

theorem reread_eq {package : String}
    (h : decl.IsWritten package (TypeRef.IsReadBack scope localTypes) (Expr.IsExact localTypes))
    (hintegers : ∀ mark ∈ decl.annotations, mark.HasIntegersOnly) :
    decl.reread scope localTypes = decl.asRead localTypes := by
  have hmarks : decl.annotations.map Annotation.reread = decl.annotations :=
    map_eq_self_of_forall fun mark hmark => Annotation.reread_of_hasIntegersOnly (hintegers mark hmark)
  have hfields : decl.fields.map (Field.reread scope localTypes) = decl.fields.map (Field.asRead localTypes) :=
    List.map_congr_left fun field hfield => Field.reread_eq (h.fields field hfield)
  have hmethods : decl.methods.map (Method.reread scope localTypes)
      = decl.methods.map (Method.asRead localTypes) :=
    List.map_congr_left fun method hmethod => Method.reread_eq (h.methods method hmethod)
  rw [reread, asRead, hmarks, hfields, hmethods]

/-- The lexemes of the members of a class as they are written. -/
def memberLexemes (localTypes : List String) (decl : ClassDecl) : List Lexeme :=
  decl.fields.flatMap (Field.lexemes localTypes) ++ decl.methods.flatMap (Method.lexemes localTypes)

/-- The lexemes of a class as it is written. -/
def lexemes (localTypes : List String) (decl : ClassDecl) : List Lexeme :=
  decl.annotations.flatMap Annotation.lexemes ++ (decl.modifiers.lexemes
    ++ .word "class" :: .word decl.simpleName :: .op '\x7b'
      :: (decl.memberLexemes localTypes ++ [.op '\x7d']))

theorem spellsLines_sourceBlocks {indent : String} (hindent : IsIndent indent)
    (h : decl.HasWrittenMembers (TypeRef.IsSaid localTypes) (Expr.IsSpelled cut localTypes)) :
    ∃ parts, List.Forall₂ (SpellsLines cut) (decl.sourceBlocks localTypes indent) parts ∧
      parts.flatten = decl.memberLexemes localTypes := by
  have hmethods : List.Forall₂ (SpellsLines cut) (decl.methods.map (Method.sourceLines localTypes indent))
      (decl.methods.map (Method.lexemes localTypes)) := by
    rw [List.forall₂_map_left_iff, List.forall₂_map_right_iff]
    exact List.forall₂_same.mpr fun method hmethod =>
      Method.spellsLines_sourceLines hindent (h.methods method hmethod)
  have hfields : SpellsLines cut (decl.fields.map (Field.toSource localTypes))
      (decl.fields.flatMap (Field.lexemes localTypes)) :=
    SpellsLines.map fun field hfield => Field.spells_toSource (h.fields field hfield)
  unfold sourceBlocks memberLexemes
  cases hdeclared : decl.fields with
  | nil => exact ⟨_, hmethods, rfl⟩
  | cons field fields =>
    rw [hdeclared] at hfields
    exact ⟨_, .cons hfields hmethods, rfl⟩

theorem spells_head (h : isName decl.simpleName = true) :
    Spells cut (" ".intercalate (decl.modifiers.words ++ ["class", decl.simpleName]) ++ " \x7b")
      (decl.modifiers.lexemes ++ [.word "class", .word decl.simpleName, .op '\x7b']) := by
  intro rest next hbreaks tail
  have hname : Spells cut decl.simpleName [.word decl.simpleName] :=
    fun _ _ => Scan.cut_word (isWord_of_isName h)
  have hwords : ∀ word ∈ decl.modifiers.words ++ ["class"], isWord word = true :=
    List.forall_mem_append.mpr ⟨fun _ => Modifiers.isWord_of_mem_words,
      List.forall_mem_singleton.mpr (by decide)⟩
  have hphrase := spells_words hwords hname
  rw [List.append_assoc, List.map_append, List.append_assoc] at hphrase
  have hcut := hphrase (' ' :: '\x7b' :: rest) (.op '\x7b' :: next) (Scan.breaks_blank (by decide) _)
    (Scan.cut_blank (by decide) (Scan.cut_symbol (by decide) tail))
  rw [String.toList_append, List.append_assoc, Modifiers.lexemes, List.append_assoc]
  rw [List.append_assoc] at hcut
  exact hcut

/-- The lexemes of a class up to its members. -/
def openingLexemes (decl : ClassDecl) : List Lexeme :=
  decl.annotations.flatMap Annotation.lexemes ++ (decl.modifiers.lexemes
    ++ [.word "class", .word decl.simpleName, .op '\x7b'])

theorem lexemes_eq (localTypes : List String) (decl : ClassDecl) :
    decl.lexemes localTypes = decl.openingLexemes ++ (decl.memberLexemes localTypes ++ [.op '\x7d']) := by
  simp only [lexemes, openingLexemes, List.append_assoc, List.cons_append, List.nil_append]

/-- The lines in front of the members of a class. -/
def openingLines (decl : ClassDecl) : List String :=
  decl.annotations.map Annotation.toSource
    ++ [" ".intercalate (decl.modifiers.words ++ ["class", decl.simpleName]) ++ " \x7b"]

theorem spellsLines_openingLines (hname : isName decl.simpleName = true)
    (h : ∀ mark ∈ decl.annotations, mark.IsWritten)
    (hmarks : ∀ mark ∈ decl.annotations, mark.IsSpelled cut) :
    SpellsLines cut decl.openingLines decl.openingLexemes := by
  have hannotations : SpellsLines cut (decl.annotations.map Annotation.toSource)
      (decl.annotations.flatMap Annotation.lexemes) :=
    SpellsLines.map fun mark hmark => Annotation.spells_toSource (h mark hmark) (hmarks mark hmark)
  exact hannotations.append (.singleton (spells_head hname))

theorem spellsLines_sourceLines {indent package : String} (hindent : IsIndent indent)
    (h : decl.IsWritten package (TypeRef.IsSaid localTypes) (Expr.IsSpelled cut localTypes))
    (hmarks : ∀ mark ∈ decl.annotations, mark.IsSpelled cut) :
    SpellsLines cut (decl.sourceLines localTypes indent) (decl.lexemes localTypes) := by
  obtain ⟨parts, hparts, hflatten⟩ := spellsLines_sourceBlocks hindent h.toHasWrittenMembers
  have hindented : List.Forall₂ (SpellsLines cut) ((decl.sourceBlocks localTypes indent).map fun block =>
      block.map fun line => if line.isEmpty then "" else indent ++ line) parts :=
    List.forall₂_map_left_iff.mpr (hparts.imp fun _ _ hblock => hblock.indented hindent)
  have hlines := ((spellsLines_openingLines h.simpleName h.annotations hmarks).append
    (SpellsLines.blocks hindented)).append (.singleton spells_close)
  rw [hflatten, List.append_assoc decl.openingLexemes, ← lexemes_eq] at hlines
  exact hlines

/-! ### Reading -/

theorem follows_methods {methods : List Method}
    (h : ∀ method ∈ methods,
      method.IsWritten (TypeRef.IsSaid localTypes) (Expr.IsWritten localTypes))
    {after : List Lexeme} (hafter : Member.Follows after) :
    Member.Follows (methods.flatMap (Method.lexemes localTypes) ++ after) := by
  cases methods with
  | nil => exact hafter
  | cons method methods =>
    rw [List.flatMap_cons, List.append_assoc, Method.lexemes, List.append_assoc]
    exact .head (h method List.mem_cons_self).returnType _

theorem follows_fields {fields : List Field} {owner : String}
    (h : ∀ field ∈ fields,
      field.IsWritten (TypeRef.IsSaid localTypes) (Expr.IsWritten localTypes) owner)
    {after : List Lexeme} (hafter : Member.Follows after) :
    Member.Follows (fields.flatMap (Field.lexemes localTypes) ++ after) := by
  cases fields with
  | nil => exact hafter
  | cons field fields =>
    rw [List.flatMap_cons, List.append_assoc, Field.lexemes, List.append_assoc]
    exact .head (h field List.mem_cons_self).type _

/-- From the first class, the lexemes are read as members up to what follows them, where reading goes on from the other class. -/
def MembersReach (scope : NameScope) (lastLine : Nat) (simpleName : String) (decl reached : ClassDecl)
    (lexemes after : List Lexeme) : Prop :=
  ∀ tokens, tokens.map Token.lexeme = lexemes → ∃ rest, rest.map Token.lexeme = after ∧
    ∀ whole tail, Gives (parseMembers scope lastLine simpleName decl tokens) whole tail ↔
      Gives (parseMembers scope lastLine simpleName reached rest) whole tail

section Reach

variable {simpleName : String} {reached : ClassDecl}

theorem MembersReach.refl (lexemes : List Lexeme) :
    MembersReach scope lastLine simpleName decl decl lexemes lexemes :=
  fun tokens htokens => ⟨tokens, htokens, fun _ _ => Iff.rfl⟩

theorem MembersReach.trans {between : ClassDecl} {lexemes middle after : List Lexeme}
    (h : MembersReach scope lastLine simpleName decl between lexemes middle)
    (hothers : MembersReach scope lastLine simpleName between reached middle after) :
    MembersReach scope lastLine simpleName decl reached lexemes after := by
  intro tokens htokens
  obtain ⟨betweenTokens, hbetween, hfirst⟩ := h tokens htokens
  obtain ⟨rest, hrest, hlast⟩ := hothers betweenTokens hbetween
  exact ⟨rest, hrest, fun whole tail => (hfirst whole tail).trans (hlast whole tail)⟩

/-- A member is read, and is a part of the class from then on. -/
theorem membersReach_member {member : Member} {forMember after : List Lexeme}
    (hmember : Reads (Member.parse scope lastLine decl.name decl.fields) (forMember ++ after) member after)
    (hclose : NotNext '\x7d' (forMember ++ after)) (hsemicolon : NotNext ';' after) :
    MembersReach scope lastLine simpleName decl (decl.appendMember member) (forMember ++ after) after := by
  intro tokens htokens
  obtain ⟨rest, hgives, hrest⟩ := hmember tokens htokens
  refine ⟨rest, hrest, fun whole tail => ?_⟩
  have hnone := hclose.symbol?_eq_none htokens
  have hsame : dropSemicolons rest = rest := hsemicolon.dropSemicolons_eq hrest
  rw [gives_parseMembers_iff]
  constructor
  · rintro (⟨_, rfl, _⟩ | ⟨_, _, found, middle, hfound, hothers⟩)
    · rw [symbol?_cons] at hnone
      cases hnone
    · obtain ⟨rfl, rfl⟩ := hgives.unique hfound
      rwa [hsame] at hothers
  · intro hothers
    refine .inr ⟨hnone, ?_, member, rest, hgives, by rwa [hsame]⟩
    rintro rfl
    exact absurd hgives.shorter (Nat.not_lt_zero _)

theorem membersReach_methods {methods : List Method}
    (h : ∀ method ∈ methods,
      method.IsWritten (TypeRef.IsSaid localTypes) (Expr.IsWritten localTypes))
    (hapart : ∀ method ∈ methods, method.KeepsApart localTypes) {after : List Lexeme}
    (hafter : Member.Follows after) :
    MembersReach scope lastLine simpleName decl
      { decl with methods := decl.methods ++ methods.map (Method.reread scope localTypes) }
      (methods.flatMap (Method.lexemes localTypes) ++ after) after := by
  induction methods generalizing decl with
  | nil =>
    rw [List.map_nil, List.append_nil]
    exact .refl after
  | cons method methods ih =>
    obtain ⟨hmethod, hmethods⟩ := List.forall_mem_cons.mp h
    obtain ⟨hfirst, hothers⟩ := List.forall_mem_cons.mp hapart
    rw [List.flatMap_cons, List.append_assoc, List.map_cons, List.append_cons]
    refine .trans (membersReach_member (Member.reads_method hmethod hfirst _) ?_
      (follows_methods hmethods hafter).semicolon) (ih hmethods hothers)
    rw [Method.lexemes, List.append_assoc]
    exact notNext_headLexemes hmethod.returnType _ _

theorem membersReach_fields {fields : List Field}
    (h : ∀ field ∈ fields,
      field.IsWritten (TypeRef.IsSaid localTypes) (Expr.IsWritten localTypes) decl.name)
    (hdistinct : (decl.fields.map (·.name) ++ fields.map (·.name)).Nodup) {after : List Lexeme}
    (hafter : Member.Follows after) :
    MembersReach scope lastLine simpleName decl
      { decl with fields := decl.fields ++ fields.map (Field.reread scope localTypes) }
      (fields.flatMap (Field.lexemes localTypes) ++ after) after := by
  induction fields generalizing decl with
  | nil =>
    rw [List.map_nil, List.append_nil]
    exact .refl after
  | cons field fields ih =>
    obtain ⟨hfield, hfields⟩ := List.forall_mem_cons.mp h
    have hnew : field.name ∉ decl.fields.map (·.name) :=
      fun hmem => (List.nodup_append.mp hdistinct).2.2 _ hmem _ List.mem_cons_self rfl
    have hmoved : ((decl.appendMember (.field (field.reread scope localTypes))).fields.map (·.name)
        ++ fields.map (·.name)).Nodup := by
      rw [appendMember, List.map_append, List.append_assoc]
      exact hdistinct
    have hfollows := follows_fields hfields hafter
    rw [List.flatMap_cons, List.append_assoc, List.map_cons, List.append_cons]
    refine .trans (membersReach_member (Member.reads_field hfield hnew hfollows) ?_ hfollows.semicolon)
      (ih hfields hmoved)
    rw [Field.lexemes, List.append_assoc]
    exact notNext_headLexemes hfield.type _ _

end Reach

theorem gives_parse_opening_iff (hname : isName decl.simpleName = true)
    (hmarks : ∀ mark ∈ decl.annotations, mark.IsWritten) {after : List Lexeme}
    (hsemicolon : NotNext ';' after) (htokens : tokens.map Token.lexeme = decl.openingLexemes ++ after) :
    ∃ inside, inside.map Token.lexeme = after ∧ ∀ whole tail,
      Gives (parse scope lastLine tokens) whole tail ↔
        Gives (parseMembers scope lastLine decl.simpleName
          { name := qualify scope.package decl.simpleName, annotations := decl.annotations.map .reread,
            modifiers := decl.modifiers } inside) whole tail := by
  have hclass : ∀ modifier : Modifier, "class" ≠ modifier.word :=
    Modifier.ofWord?_eq_none_iff.mp (by decide)
  rw [openingLexemes, List.append_assoc, List.append_assoc] at htokens
  obtain ⟨afterAnnotations, hannotations, hmiddle⟩ := Annotation.reads_parseAll hmarks
    (decl.modifiers.notNext_lexemes '.' _ _) (decl.modifiers.notNext_lexemes '(' _ _)
    (decl.modifiers.notNext_lexemes '@' _ _) tokens htokens
  obtain ⟨_, hmodifiers, hword⟩ :=
    decl.modifiers.reads_parse (noModifier_word hclass _) afterAnnotations hmiddle
  obtain ⟨classLine, _, rfl, hrest⟩ := exists_of_map_lexeme_eq_cons hword
  obtain ⟨nameLine, _, rfl, hopen⟩ := exists_of_map_lexeme_eq_cons hrest
  obtain ⟨openLine, inside, rfl, hinside⟩ := exists_of_map_lexeme_eq_cons hopen
  have hsame : dropSemicolons inside = inside := hsemicolon.dropSemicolons_eq hinside
  refine ⟨inside, hinside, fun whole tail => ?_⟩
  rw [gives_parse_iff]
  constructor
  · rintro ⟨_, _, _, _, _, _, _, _, hfound, hother, _, hmembers⟩
    obtain ⟨rfl, rfl⟩ := hannotations.unique hfound
    obtain ⟨rfl, hcons⟩ := hmodifiers.unique hother
    cases hcons
    rwa [hsame] at hmembers
  · intro hmembers
    exact ⟨_, _, _, classLine, decl.simpleName, nameLine, openLine, inside, hannotations, hmodifiers,
      isKeyword_of_isName hname, by rwa [hsame]⟩

theorem gives_parse_iff_of_lexemes {methods : List Method}
    (h : decl.IsWritten scope.package (TypeRef.IsSaid localTypes) (Expr.IsWritten localTypes))
    (hmethods : ∀ method ∈ methods,
      method.IsWritten (TypeRef.IsSaid localTypes) (Expr.IsWritten localTypes))
    (hapart : ∀ method ∈ methods, method.KeepsApart localTypes) {after : List Lexeme}
    (hafter : Member.Follows after)
    (htokens : tokens.map Token.lexeme = decl.openingLexemes
      ++ (decl.fields.flatMap (Field.lexemes localTypes)
        ++ (methods.flatMap (Method.lexemes localTypes) ++ after))) :
    ∃ rest, rest.map Token.lexeme = after ∧ ∀ whole tail,
      Gives (parse scope lastLine tokens) whole tail ↔
        Gives (parseMembers scope lastLine decl.simpleName
          { decl.reread scope localTypes with methods := methods.map (Method.reread scope localTypes) } rest)
          whole tail := by
  have hfollows := follows_methods hmethods hafter
  obtain ⟨inside, hinside, hopening⟩ := gives_parse_opening_iff h.simpleName h.annotations
    (follows_fields h.fields hfollows).semicolon htokens
  rw [← h.name] at hopening
  let opened : ClassDecl :=
    { name := decl.name, annotations := decl.annotations.map .reread, modifiers := decl.modifiers }
  let withFields : ClassDecl := { opened with fields := decl.fields.map (Field.reread scope localTypes) }
  have howned : ∀ field ∈ decl.fields,
      field.IsWritten (TypeRef.IsSaid localTypes) (Expr.IsWritten localTypes) opened.name := h.fields
  have hfields : MembersReach scope lastLine decl.simpleName opened withFields _ _ :=
    membersReach_fields howned h.distinct hfollows
  have hmembers : MembersReach scope lastLine decl.simpleName withFields
      { withFields with methods := methods.map (Method.reread scope localTypes) } _ _ :=
    membersReach_methods hmethods hapart hafter
  obtain ⟨rest, hrest, hgives⟩ := hfields.trans hmembers inside hinside
  exact ⟨rest, hrest, fun whole tail => (hopening whole tail).trans (hgives whole tail)⟩

theorem exists_gives_parse
    (h : decl.IsWritten scope.package (TypeRef.IsSaid localTypes) (Expr.IsWritten localTypes))
    (hapart : ∀ method ∈ decl.methods, method.KeepsApart localTypes) {after : List Lexeme}
    (htokens : tokens.map Token.lexeme = decl.lexemes localTypes ++ after) :
    ∃ line rest, Gives (parse scope lastLine tokens) (decl.reread scope localTypes, line) rest ∧
      rest.map Token.lexeme = after := by
  rw [lexemes_eq, memberLexemes, List.append_assoc, List.append_assoc, List.append_assoc] at htokens
  obtain ⟨_, hclose, hgives⟩ :=
    gives_parse_iff_of_lexemes h h.methods hapart (.close after) htokens
  obtain ⟨line, rest, rfl, hrest⟩ := exists_of_map_lexeme_eq_cons hclose
  exact ⟨line, rest, (hgives _ _).mpr (gives_parseMembers_iff.mpr (.inl ⟨line, rfl, rfl⟩)), hrest⟩

end ClassDecl

end GuardedLogging
