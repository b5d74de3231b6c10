import GuardedLogging.Proofs.CompilationUnit.Joining
import GuardedLogging.Proofs.Token.Identifiers
import GuardedLogging.Proofs.Token.Numbers

/-!
# Units that cannot be read back

A field may have been given a name that is no name in a source: a keyword, or an identifier with letters that are not ASCII. Where such a field comes first in a class, the text of the unit is not read: it is cut up to the type of the field as usual, and no member of a class goes on with what comes there.
-/

namespace GuardedLogging

open Cursor Scan

variable {cut : Cutting} {scope : NameScope} {localTypes : List String} {lastLine : Nat}
  {tokens rest : List Token}

/-! ### Reading -/

theorem Scan.BrokenName.notNext {lexemes : List Lexeme} (h : BrokenName lexemes) (symbol : Char) :
    NotNext symbol lexemes := by
  cases h with
  | keyword word _ after => exact notNext_word symbol word after
  | number text after => exact fun hhead => by cases hhead
  | split word text after => exact notNext_word symbol word _

namespace Member

theorem not_gives_parse_number {className : String} {fields : List Field} {text : String} {line : Nat}
    {after : List Token} {member : Member} :
    ¬Gives (parse scope lastLine className fields (⟨.number text, line⟩ :: after)) member rest := by
  intro h
  obtain ⟨_, modifiers, afterModifiers, type, name, nameLine, afterName, hmodifiers, htype, _⟩ :=
    gives_parse_iff.mp h
  have hnone : NoModifier ((⟨.number text, line⟩ :: after).map Token.lexeme) :=
    fun modifier hmodifier => by cases hmodifier
  obtain ⟨rfl, rfl⟩ := (Modifiers.gives_parse_stay_iff hnone).mp hmodifiers
  rcases gives_parseType_iff.mp htype with ⟨_, _, hcons, _⟩ | ⟨_, _, hname, _⟩
  · cases hcons
  · obtain ⟨_, _, hidentifier, _⟩ := gives_dottedName_iff.mp hname
    obtain ⟨_, hcons, _⟩ := gives_identifier_iff.mp hidentifier
    cases hcons

/-- If a member with a broken name is read at all, then as a field that ends in front of a number. -/
theorem exists_number_of_gives {modifiers : Modifiers} {type : Option TypeRef}
    (htypes : ∀ known ∈ type, TypeRef.IsSaid localTypes known) {after : List Lexeme}
    (hbroken : BrokenName after)
    (htokens : tokens.map Token.lexeme = headLexemes localTypes modifiers type ++ after)
    {className : String} {fields : List Field} {member : Member}
    (h : Gives (parse scope lastLine className fields tokens) member rest) :
    ∃ text line others, rest = ⟨.number text, line⟩ :: others := by
  obtain ⟨_, foundModifiers, afterFound, found, name, nameLine, afterName, hfound, htype, hkeyword, hmember⟩ :=
    gives_parse_iff.mp h
  obtain ⟨afterModifiers, afterType, hmodifiers, hhead, hafter⟩ :=
    reads_headLexemes htypes (hbroken.notNext '.') htokens
  obtain ⟨rfl, rfl⟩ := hmodifiers.unique hfound
  obtain ⟨rfl, rfl⟩ := hhead.unique htype
  cases hbroken with
  | keyword word hword others =>
    cases (List.cons.inj hafter).1
    rw [hword] at hkeyword
    cases hkeyword
  | number text others => cases (List.cons.inj hafter).1
  | split word text others =>
    obtain ⟨numberLine, others, rfl, _⟩ := exists_of_map_lexeme_eq_cons (List.cons.inj hafter).2
    rcases hmember with ⟨_, _, hopen, _⟩ | ⟨_, _, hfield⟩
    · cases hopen
    · obtain ⟨initial, middle, hinitial, rfl, _⟩ := gives_parseField_iff.mp hfield
      rcases gives_parseInitial_iff.mp hinitial with ⟨_, _, hsign, _⟩ | ⟨_, _, rfl⟩
      · cases hsign
      · exact ⟨text, numberLine, others, rfl⟩

end Member

namespace ClassDecl

variable {decl : ClassDecl}

theorem refuses_parseMembers {modifiers : Modifiers} {type : Option TypeRef}
    (htypes : ∀ known ∈ type, TypeRef.IsSaid localTypes known) {after : List Lexeme}
    (hbroken : BrokenName after) {simpleName : String} :
    Refuses (parseMembers scope lastLine simpleName decl) (headLexemes localTypes modifiers type ++ after) := by
  intro tokens htokens whole rest hgives
  rcases gives_parseMembers_iff.mp hgives with ⟨_, rfl, _⟩ | ⟨_, _, member, middle, hmember, hothers⟩
  · exact notNext_headLexemes htypes '\x7d' after (congrArg List.head? htokens.symm)
  · obtain ⟨text, line, others, rfl⟩ := Member.exists_number_of_gives htypes hbroken htokens hmember
    rcases gives_parseMembers_iff.mp hothers with ⟨_, hclose, _⟩ | ⟨_, _, _, _, hnumber, _⟩
    · cases hclose
    · exact Member.not_gives_parse_number hnumber

theorem refuses_parse_of_brokenName (hname : isName decl.simpleName = true)
    (hmarks : ∀ mark ∈ decl.annotations, mark.IsWritten) {modifiers : Modifiers} {type : Option TypeRef}
    (htypes : ∀ known ∈ type, TypeRef.IsSaid localTypes known) {after : List Lexeme}
    (hbroken : BrokenName after) : Refuses (parse scope lastLine)
      (decl.openingLexemes ++ (headLexemes localTypes modifiers type ++ after)) := by
  intro tokens htokens whole rest hgives
  obtain ⟨inside, hinside, hiff⟩ :=
    gives_parse_opening_iff hname hmarks (notNext_headLexemes htypes ';' after) htokens
  exact refuses_parseMembers htypes hbroken inside hinside _ _ ((hiff whole rest).mp hgives)

end ClassDecl

/-! ### Writing -/

theorem Expr.IsWritten.isSpelled_ifAtAll (known : List Lexeme → Prop) {expr : Expr}
    (h : expr.IsWritten localTypes) : expr.IsSpelled (Cutting.ifAtAll known) localTypes := by
  refine h.mono fun node hnode => ⟨hnode, ?_⟩
  rintro value rfl
  exact Scalar.isSpelled_ifAtAll known hnode

theorem Annotation.IsWritten.isSpelled_ifAtAll (known : List Lexeme → Prop) {mark : Annotation}
    (h : mark.IsWritten) : mark.IsSpelled (Cutting.ifAtAll known) :=
  fun member hmember => Scalar.isSpelled_ifAtAll known (h.members member hmember).2

theorem ClassDecl.IsWritten.isSpelled_ifAtAll (known : List Lexeme → Prop) {decl : ClassDecl}
    {package : String} {types : TypeRef → Prop}
    (h : decl.IsWritten package types (Expr.IsWritten localTypes)) :
    decl.IsWritten package types (Expr.IsSpelled (Cutting.ifAtAll known) localTypes) :=
  h.imp (fun _ _ => id) fun _ _ hexpr => hexpr.isSpelled_ifAtAll known

/-- The field was given an identifier for its name that is no name in a source. -/
structure Field.HasBrokenName (localTypes : List String) (field : Field) : Prop where
  type : ∀ known ∈ field.type, TypeRef.IsSaid localTypes known
  identifier : isIdentifier field.name = true
  name : isName field.name = false

theorem Field.HasBrokenName.opens_toSource {field : Field} (h : field.HasBrokenName localTypes) :
    Opens (Cutting.ifAtAll BrokenName) (field.toSource localTypes)
      (headLexemes localTypes field.modifiers field.type) := by
  intro rest hbreaks
  obtain ⟨behind, hbehind, htext⟩ : ∃ behind, Breaks behind ∧
      (field.toSource localTypes).toList ++ rest
        = (declarationHead localTypes field.modifiers field.type).toList
          ++ ' ' :: (field.name.toList ++ behind) := by
    unfold toSource
    split
    · refine ⟨rest, hbreaks, ?_⟩
      simp only [String.toList_append, String.reduceToList, List.append_assoc, List.cons_append,
        List.nil_append]
    · refine ⟨' ' :: '=' :: ' ' :: ((field.initial.toSource localTypes).toList ++ rest),
        breaks_blank (by decide) _, ?_⟩
      simp only [String.toList_append, String.reduceToList, List.append_assoc, List.cons_append,
        List.nil_append]
  have hbroken : (Cutting.ifAtAll BrokenName).Relates (field.name.toList ++ behind) [] :=
    fun all hall => ⟨all, hall.brokenName h.identifier h.name hbehind, rfl⟩
  have hhead : Spells (Cutting.ifAtAll BrokenName) (declarationHead localTypes field.modifiers field.type)
      (headLexemes localTypes field.modifiers field.type) := spells_declarationHead h.type
  rw [htext, ← List.append_nil (headLexemes _ _ _)]
  exact hhead _ _ (breaks_blank (by decide) _) (cut_blank (by decide) hbroken)

/-- The class can be written up to the name of its first field. -/
structure ClassDecl.HasBrokenName (localTypes : List String) (field : Field) (decl : ClassDecl) : Prop where
  simpleName : isName decl.simpleName = true
  annotations : ∀ mark ∈ decl.annotations, mark.IsWritten
  first : ∃ fields, decl.fields = field :: fields
  field : field.HasBrokenName localTypes

theorem ClassDecl.HasBrokenName.opensLines_sourceLines {field : Field} {decl : ClassDecl} {indent : String}
    (hindent : IsIndent indent) (h : decl.HasBrokenName localTypes field) :
    OpensLines (Cutting.ifAtAll BrokenName) (decl.sourceLines localTypes indent)
      (decl.openingLexemes ++ headLexemes localTypes field.modifiers field.type) := by
  obtain ⟨fields, hfields⟩ := h.first
  have hopening : SpellsLines (Cutting.ifAtAll BrokenName) decl.openingLines decl.openingLexemes :=
    spellsLines_openingLines h.simpleName h.annotations fun mark hmark =>
      (h.annotations mark hmark).isSpelled_ifAtAll _
  have hfield : OpensLines (Cutting.ifAtAll BrokenName) (decl.fields.map (Field.toSource localTypes))
      (headLexemes localTypes field.modifiers field.type) := by
    rw [hfields, List.map_cons]
    exact .line h.field.opens_toSource _
  have hblocks := (hfield.indented hindent).blocks .nil
    ((decl.methods.map (Method.sourceLines localTypes indent)).map fun block =>
      block.map fun line => if line.isEmpty then "" else indent ++ line)
  have hsource : decl.sourceBlocks localTypes indent = decl.fields.map (Field.toSource localTypes)
      :: decl.methods.map (Method.sourceLines localTypes indent) := by
    rw [sourceBlocks, hfields]
    rfl
  rw [sourceLines, hsource]
  exact (hblocks.prepend hopening).append ["\x7d"]

namespace CompilationUnit

/-- The unit can be written up to a class of which the first field has a name that is no name in a source. -/
structure HasBrokenName (unit : CompilationUnit) : Prop where
  text : unit.package = .text unit.packageName
  package : unit.packageName = "" ∨ isDottedName unit.packageName = true
  distinct : unit.classNames.Nodup
  classes : ∃ earlier decl later, unit.classes = earlier ++ decl :: later ∧
    (∀ other ∈ earlier, other.IsWritten unit.packageName (TypeRef.IsSaid unit.classNames)
      (Expr.IsWritten unit.classNames)) ∧ ∃ field, decl.HasBrokenName unit.classNames field

/-- The text of a unit is cut as that of its classes up to the first that is not spelled. -/
theorem relates_toSource_of_opensLines {known : List Lexeme → Prop} {unit : CompilationUnit}
    {indent : String} (hindent : IsIndent indent) (htext : unit.package = .text unit.packageName)
    (hpackage : unit.packageName = "" ∨ isDottedName unit.packageName = true)
    {earlier later : List ClassDecl} {decl : ClassDecl} (hclasses : unit.classes = earlier ++ decl :: later)
    (hearlier : ∀ other ∈ earlier, other.IsWritten unit.packageName (TypeRef.IsSaid unit.classNames)
      (Expr.IsWritten unit.classNames)) {opened : List Lexeme}
    (hopened : OpensLines (Cutting.ifAtAll known) (decl.sourceLines unit.classNames indent) opened) :
    (Cutting.ifAtAll known).Relates (unit.toSource indent).toList (packageLexemes unit.packageName
      ++ (earlier.flatMap (ClassDecl.lexemes unit.classNames) ++ opened)) := by
  have hspelled : List.Forall₂ (SpellsLines (Cutting.ifAtAll known))
      (earlier.map (ClassDecl.sourceLines unit.classNames indent))
      (earlier.map (ClassDecl.lexemes unit.classNames)) := by
    rw [List.forall₂_map_left_iff, List.forall₂_map_right_iff]
    exact List.forall₂_same.mpr fun other hother =>
      ClassDecl.spellsLines_sourceLines hindent ((hearlier other hother).isSpelled_ifAtAll known)
        fun mark hmark => ((hearlier other hother).annotations mark hmark).isSpelled_ifAtAll known
  have hblocks := hopened.blocks hspelled (later.map (ClassDecl.sourceLines unit.classNames indent))
  have hlines := (hblocks.prepend (spellsLines_package htext hpackage)).opens
  rw [← List.map_cons, ← List.map_append, ← hclasses] at hlines
  rw [toSource, String.toList_append]
  exact hlines ['\n'] (breaks_blank (by decide) [])

theorem HasBrokenName.readBack_ne_ok {unit : CompilationUnit} {indent : String} (h : unit.HasBrokenName)
    (hindent : IsIndent indent) (reread : CompilationUnit) : unit.readBack indent ≠ .ok reread := by
  intro hread
  obtain ⟨earlier, decl, later, hclasses, hearlier, field, hdecl⟩ := h.classes
  cases htokenize : tokenize (unit.toSource indent) with
  | error error =>
    unfold readBack parse at hread
    rw [htokenize] at hread
    cases hread
  | ok list =>
    rw [readBack_eq_ofTokens htokenize] at hread
    obtain ⟨tail, htail, hlexemes⟩ := relates_toSource_of_opensLines hindent h.text h.package hclasses
      hearlier (hdecl.opensLines_sourceLines hindent) _ (cut_of_tokensFrom htokenize)
    -- The classes in front may have statements that join; what is read in front is the joined classes.
    rw [List.append_assoc, List.append_assoc, List.append_assoc, ← flatMap_lexemes_joined hearlier] at hlexemes
    have hjoined : ∀ other ∈ earlier.map (ClassDecl.joined unit.classNames), other.IsWritten unit.packageName
        (TypeRef.IsSaid unit.classNames) (Expr.IsWritten unit.classNames) :=
      List.forall_mem_map.mpr fun other hother => (hearlier other hother).joined
    have hdistinct : ((earlier.map (ClassDecl.joined unit.classNames)).map (·.name)).Nodup := by
      have hall := h.distinct
      rw [classNames, hclasses, List.map_append] at hall
      rw [List.map_map]
      exact hall.of_append_left
    have hapart := keepsApart_of_ofTokens h.package hjoined
      (List.forall_mem_map.mpr fun other _ => other.joinsNone_joined) hdistinct hlexemes hread
    refine absurd hread (ofTokens_ne_ok h.package hjoined hapart hdistinct (startsClass_openingLexemes decl _)
      ?_ (fun scope _ => ?_) hlexemes)
    · simp [ClassDecl.openingLexemes]
    · exact ClassDecl.refuses_parse_of_brokenName hdecl.simpleName hdecl.annotations hdecl.field.type htail

end CompilationUnit

end GuardedLogging
