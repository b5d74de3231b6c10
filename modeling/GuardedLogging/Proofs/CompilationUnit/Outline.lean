import GuardedLogging.Proofs.CompilationUnit.Units

/-!
# Names of types as they are written

What the names of types mean is found out while a source is read, and nothing else that is read depends on it. So a source has an outline, in which every type is named as it is written, and the unit that it declares is the outline with its names looked up. The names of classes are no names of types in this sense: they are declared, and the package of the scope is all that they depend on.
-/

namespace GuardedLogging

open Cursor

/-- A scope in which every name means itself: no class is declared in it, and the language types are hidden behind imports. -/
def NameScope.plain (package : String) : NameScope :=
  ⟨package, languageTypes.map fun name => (name, name), []⟩

theorem NameScope.qualify_plain (package name : String) : (plain package).qualify name = name := by
  unfold qualify
  split
  · rfl
  · split
    · rename_i imported himported
      obtain ⟨known, _, hknown⟩ := List.mem_map.mp (mem_of_lookup_eq_some himported)
      cases hknown
      rfl
    · rename_i hnone
      have hlanguage : name ∉ languageTypes := by
        intro hmem
        refine lookup_eq_none_iff_not_mem.mp hnone ?_
        exact List.mem_map.mpr ⟨(name, name), List.mem_map_of_mem hmem, rfl⟩
      rw [if_neg (show ¬(plain package).classNames.contains name = true from nofun), languageType?,
        if_neg (by simpa using hlanguage)]
      rfl

/-! ### Looking the names up -/

/-- The type whose name was written, as the scope knows it. -/
def TypeRef.inScope (scope : NameScope) (written : TypeRef) : TypeRef := scope.typeRef written.name

def Parameter.inScope (scope : NameScope) (parameter : Parameter) : Parameter :=
  { parameter with type := parameter.type.map (TypeRef.inScope scope) }

def Field.inScope (scope : NameScope) (field : Field) : Field :=
  { field with type := field.type.map (TypeRef.inScope scope) }

def Method.inScope (scope : NameScope) (method : Method) : Method :=
  { method with
    returnType := method.returnType.map (TypeRef.inScope scope)
    parameters := method.parameters.map (Parameter.inScope scope) }

def Member.inScope (scope : NameScope) : Member → Member
  | .field declared => .field (declared.inScope scope)
  | .method declared => .method (declared.inScope scope)

def ClassDecl.inScope (scope : NameScope) (decl : ClassDecl) : ClassDecl :=
  { decl with
    fields := decl.fields.map (Field.inScope scope)
    methods := decl.methods.map (Method.inScope scope) }

def CompilationUnit.inScope (scope : NameScope) (unit : CompilationUnit) : CompilationUnit :=
  { unit with classes := unit.classes.map (ClassDecl.inScope scope) }

variable {scope : NameScope} {lastLine : Nat} {tokens rest : List Token}

theorem TypeRef.inScope_plain (scope : NameScope) (package name : String) :
    ((NameScope.plain package).typeRef name).inScope scope = scope.typeRef name := by
  show scope.typeRef ((NameScope.plain package).qualify name) = _
  rw [NameScope.qualify_plain]

/-! ### Readers read the outline in the plain scope -/

namespace Parameter

theorem exists_plain_of_parseType (package : String) {type : Option TypeRef}
    (h : Gives (parseType scope lastLine tokens) type rest) :
    ∃ written, Gives (parseType (.plain package) lastLine tokens) written rest ∧
      type = written.map (TypeRef.inScope scope) := by
  rcases gives_parseType_iff.mp h with ⟨line, after, rfl, rfl, rfl⟩ | ⟨hdef, htype⟩
  · exact ⟨none, gives_parseType_iff.mpr (.inl ⟨line, _, rfl, rfl, rfl⟩), rfl⟩
  · rcases htype with ⟨htyped, name, hname, rfl⟩ | ⟨htyped, rfl, rfl⟩
    · refine ⟨_, gives_parseType_iff.mpr (.inr ⟨hdef, .inl ⟨htyped, name, hname, rfl⟩⟩), ?_⟩
      rw [Option.map_some, TypeRef.inScope_plain]
    · exact ⟨none, gives_parseType_iff.mpr (.inr ⟨hdef, .inr ⟨htyped, rfl, rfl⟩⟩), rfl⟩

theorem map_name_inScope (parameters : List Parameter) :
    (parameters.map (inScope scope)).map (·.name) = parameters.map (·.name) := by
  rw [List.map_map]
  rfl

theorem exists_plain_of_parseList (package : String) {earlier parameters : List Parameter} {tokens : List Token}
    (h : Gives (parseList scope lastLine (earlier.map (inScope scope)) tokens) parameters rest) :
    ∃ written, Gives (parseList (.plain package) lastLine earlier tokens) written rest ∧
      parameters = written.map (inScope scope) := by
  obtain ⟨type, name, nameLine, afterName, htype, hkeyword, hnew, hothers⟩ := gives_parseList_iff.mp h
  obtain ⟨written, hwritten, rfl⟩ := exists_plain_of_parseType package htype
  rw [map_name_inScope] at hnew
  let parameter : Parameter := ⟨name, written⟩
  -- What was read so far is passed on, so it has to be known as looked up in the scope for the others as well.
  have hearlier : earlier.map (inScope scope) ++ [⟨name, written.map (TypeRef.inScope scope)⟩]
      = (earlier ++ [parameter]).map (inScope scope) := by
    rw [List.map_append]
    rfl
  rw [hearlier] at hothers
  rcases hothers with ⟨line, afterComma, rfl, hothers⟩ | ⟨line, rfl, rfl⟩
  · have hshorter : afterComma.length < tokens.length := by
      have := htype.shorter
      simp only [List.length_cons] at this
      omega
    obtain ⟨others, hgives, hsame⟩ := exists_plain_of_parseList package hothers
    exact ⟨others, gives_parseList_iff.mpr
      ⟨written, name, nameLine, _, hwritten, hkeyword, hnew, .inl ⟨line, _, rfl, hgives⟩⟩, hsame⟩
  · exact ⟨_, gives_parseList_iff.mpr
      ⟨written, name, nameLine, _, hwritten, hkeyword, hnew, .inr ⟨line, rfl, rfl⟩⟩, rfl⟩
termination_by tokens.length

theorem exists_plain_of_parseAll (package : String) {parameters : List Parameter}
    (h : Gives (parseAll scope lastLine tokens) parameters rest) :
    ∃ written, Gives (parseAll (.plain package) lastLine tokens) written rest ∧
      parameters = written.map (inScope scope) := by
  rcases gives_parseAll_iff.mp h with ⟨line, rfl, rfl⟩ | ⟨hopen, hlist⟩
  · exact ⟨[], gives_parseAll_iff.mpr (.inl ⟨line, rfl, rfl⟩), rfl⟩
  · have hnone : Gives (parseList scope lastLine (([] : List Parameter).map (inScope scope)) tokens) parameters
        rest := hlist
    obtain ⟨written, hgives, hsame⟩ := exists_plain_of_parseList package hnone
    exact ⟨written, gives_parseAll_iff.mpr (.inr ⟨hopen, hgives⟩), hsame⟩

end Parameter

namespace Member

variable (package : String)

theorem exists_plain_of_parseType {type : Option TypeRef} (h : Gives (parseType scope lastLine tokens) type rest) :
    ∃ written, Gives (parseType (.plain package) lastLine tokens) written rest ∧
      type = written.map (TypeRef.inScope scope) := by
  rcases gives_parseType_iff.mp h with ⟨line, after, rfl, rfl, rfl⟩ | ⟨hdef, name, hname, rfl⟩
  · exact ⟨none, gives_parseType_iff.mpr (.inl ⟨line, _, rfl, rfl, rfl⟩), rfl⟩
  · refine ⟨_, gives_parseType_iff.mpr (.inr ⟨hdef, name, hname, rfl⟩), ?_⟩
    rw [Option.map_some, TypeRef.inScope_plain]

theorem exists_plain_of_parseMethod {name : String} {modifiers : Modifiers} {returnType : Option TypeRef}
    {member : Member} (h : Gives (parseMethod scope lastLine name modifiers
      (returnType.map (TypeRef.inScope scope)) tokens) member rest) :
    ∃ written, Gives (parseMethod (.plain package) lastLine name modifiers returnType tokens) written rest ∧
      member = written.inScope scope := by
  obtain ⟨parameters, line, inside, body, hparameters, hbody, rfl⟩ := Method.gives_parseMethod_iff.mp h
  obtain ⟨written, hwritten, rfl⟩ := Parameter.exists_plain_of_parseAll package hparameters
  refine ⟨.method { name, modifiers, returnType, parameters := written, body }, ?_, rfl⟩
  exact Method.gives_parseMethod_iff.mpr ⟨written, line, inside, body, hwritten, hbody, rfl⟩

theorem exists_plain_of_parseField {field : Field} {member : Member}
    (h : Gives (parseField lastLine (field.inScope scope) tokens) member rest) :
    ∃ written, Gives (parseField lastLine field tokens) written rest ∧ member = written.inScope scope := by
  obtain ⟨initial, middle, hinitial, rfl, rfl⟩ := gives_parseField_iff.mp h
  exact ⟨.field { field with initial }, gives_parseField_iff.mpr ⟨initial, middle, hinitial, rfl, rfl⟩, rfl⟩

theorem exists_plain_of_parse {className : String} {fields : List Field} {member : Member}
    (h : Gives (parse scope lastLine className (fields.map (Field.inScope scope)) tokens) member rest) :
    ∃ written, Gives (parse (.plain package) lastLine className fields tokens) written rest ∧
      member = written.inScope scope := by
  obtain ⟨hmark, modifiers, afterModifiers, type, name, nameLine, afterName, hmodifiers, htype, hkeyword,
    hmember⟩ := gives_parse_iff.mp h
  obtain ⟨written, hwritten, rfl⟩ := exists_plain_of_parseType package htype
  have hnames : (fields.map (Field.inScope scope)).map (·.name) = fields.map (·.name) := by
    rw [List.map_map]
    rfl
  rcases hmember with ⟨line, inside, rfl, hmethod⟩ | ⟨hopen, hnew, hfield⟩
  · obtain ⟨whole, hwhole, hsame⟩ := exists_plain_of_parseMethod package hmethod
    exact ⟨whole, gives_parse_iff.mpr ⟨hmark, modifiers, afterModifiers, written, name, nameLine, _, hmodifiers,
      hwritten, hkeyword, .inl ⟨line, inside, rfl, hwhole⟩⟩, hsame⟩
  · rw [hnames] at hnew
    let field : Field := { name, modifiers, type := written, owner := className }
    have hfield : Gives (parseField lastLine (field.inScope scope) afterName) member rest := hfield
    obtain ⟨whole, hwhole, hsame⟩ := exists_plain_of_parseField hfield
    exact ⟨whole, gives_parse_iff.mpr ⟨hmark, modifiers, afterModifiers, written, name, nameLine, _, hmodifiers,
      hwritten, hkeyword, .inr ⟨hopen, hnew, hwhole⟩⟩, hsame⟩

end Member

namespace ClassDecl

theorem inScope_appendMember (decl : ClassDecl) (member : Member) :
    (decl.inScope scope).appendMember (member.inScope scope) = (decl.appendMember member).inScope scope := by
  cases member <;> simp [appendMember, Member.inScope, inScope]

theorem exists_plain_of_parseMembers (package : String) {simpleName : String} {decl whole : ClassDecl}
    {line : Nat} {tokens : List Token}
    (h : Gives (parseMembers scope lastLine simpleName (decl.inScope scope) tokens) (whole, line) rest) :
    ∃ written, Gives (parseMembers (.plain package) lastLine simpleName decl tokens) (written, line) rest ∧
      whole = written.inScope scope := by
  rcases gives_parseMembers_iff.mp h with ⟨closing, rfl, hwhole⟩ | ⟨hopen, hne, member, middle, hmember, hothers⟩
  · cases hwhole
    exact ⟨decl, gives_parseMembers_iff.mpr (.inl ⟨closing, rfl, rfl⟩), rfl⟩
  · obtain ⟨written, hwritten, rfl⟩ := Member.exists_plain_of_parse package hmember
    rw [inScope_appendMember] at hothers
    have hshorter := Nat.lt_of_le_of_lt (length_dropSemicolons_le middle) hmember.shorter
    obtain ⟨others, hgives, hsame⟩ := exists_plain_of_parseMembers package hothers
    exact ⟨others, gives_parseMembers_iff.mpr (.inr ⟨hopen, hne, written, middle, hwritten, hgives⟩), hsame⟩
termination_by tokens.length

theorem exists_plain_of_parse {decl : ClassDecl} {line : Nat}
    (h : Gives (parse scope lastLine tokens) (decl, line) rest) :
    ∃ written, Gives (parse (.plain scope.package) lastLine tokens) (written, line) rest ∧
      decl = written.inScope scope := by
  obtain ⟨annotations, afterAnnotations, modifiers, classLine, name, nameLine, openLine, inside,
    hannotations, hmodifiers, hkeyword, hmembers⟩ := gives_parse_iff.mp h
  let empty : ClassDecl := { name := qualify scope.package name, annotations, modifiers }
  have hempty : Gives (parseMembers scope lastLine name (empty.inScope scope) (dropSemicolons inside)) (decl, line)
      rest := hmembers
  obtain ⟨written, hwritten, hsame⟩ := exists_plain_of_parseMembers scope.package hempty
  exact ⟨written, gives_parse_iff.mpr ⟨annotations, afterAnnotations, modifiers, classLine, name, nameLine,
    openLine, inside, hannotations, hmodifiers, hkeyword, hwritten⟩, hsame⟩

end ClassDecl

namespace CompilationUnit

theorem class?_inScope_eq_none_iff {unit : CompilationUnit} {name : String} :
    (unit.inScope scope).class? name = none ↔ unit.class? name = none := by
  rw [class?, class?, List.find?_eq_none, List.find?_eq_none]
  exact List.forall_mem_map

theorem packageName_of_parseClasses {unit whole : CompilationUnit}
    (h : parseClasses scope lastLine unit tokens = .ok whole) : whole.packageName = unit.packageName := by
  induction hlength : tokens.length using Nat.strongRecOn generalizing tokens unit with
  | ind length ih =>
    rcases parseClasses_eq_ok_iff.mp h with ⟨_, rfl⟩ | ⟨_, decl, line, middle, hdecl, _, hothers⟩
    · rfl
    · have hshorter := Nat.lt_of_le_of_lt (length_dropSemicolons_le middle) hdecl.shorter
      have hsame : whole.packageName = packageName { unit with classes := unit.classes ++ [decl] } :=
        ih _ (hlength ▸ hshorter) hothers rfl
      exact hsame

theorem exists_plain_of_parseClasses {unit whole : CompilationUnit}
    (h : parseClasses scope lastLine (unit.inScope scope) tokens = .ok whole) :
    ∃ written, parseClasses (.plain scope.package) lastLine unit tokens = .ok written ∧
      whole = written.inScope scope := by
  induction hlength : tokens.length using Nat.strongRecOn generalizing tokens unit with
  | ind length ih =>
    rcases parseClasses_eq_ok_iff.mp h with ⟨hempty, rfl⟩ | ⟨hne, decl, line, middle, hdecl, hnew, hothers⟩
    · exact ⟨unit, parseClasses_eq_ok_iff.mpr (.inl ⟨hempty, rfl⟩), rfl⟩
    · obtain ⟨written, hwritten, rfl⟩ := ClassDecl.exists_plain_of_parse hdecl
      have hunit : { unit.inScope scope with
            classes := (unit.inScope scope).classes ++ [written.inScope scope] }
          = inScope scope { unit with classes := unit.classes ++ [written] } := by
        simp [inScope]
      rw [hunit] at hothers
      have hshorter := Nat.lt_of_le_of_lt (length_dropSemicolons_le middle) hdecl.shorter
      obtain ⟨others, hgives, hsame⟩ := ih _ (hlength ▸ hshorter) hothers rfl
      exact ⟨others, parseClasses_eq_ok_iff.mpr
        (.inr ⟨hne, written, line, middle, hwritten, class?_inScope_eq_none_iff.mp hnew, hgives⟩), hsame⟩

end CompilationUnit

/-- What a source says before names are looked up: its imports by their last parts, the words behind the word `class`, and its unit with each type named as it is written. -/
structure Outline where
  imports : List (String × String)
  classWords : List String
  unit : CompilationUnit
deriving DecidableEq

namespace Outline

/-- The outline is read like the unit. -/
def ofTokens (name : Scalar) (list : TokenList) : Except ParseError Outline := do
  let package ← CompilationUnit.parsePackage list.lastLine list.tokens
  let imports ← CompilationUnit.parseImports list.lastLine [] package.rest
  let unit ← CompilationUnit.parseClasses (.plain package.value) list.lastLine
    { name, package := .text package.value } imports.rest
  return ⟨imports.value, wordsAfterClass list.tokens, unit⟩

def parse (source : String) (name : Scalar := .text CompilationUnit.defaultName) : Except ParseError Outline := do
  ofTokens name (← tokenize source)

/-- The last parts of the imported names. -/
def importedNames (outline : Outline) : List String := outline.imports.map Prod.fst

/-- The scope in which a source with this outline is read. -/
def nameScope (outline : Outline) : NameScope :=
  ⟨outline.unit.packageName, outline.imports, outline.classWords⟩

/-- A unit is its outline with the names of types looked up. -/
theorem exists_ofTokens {name : Scalar} {list : TokenList} {unit : CompilationUnit}
    (h : CompilationUnit.ofTokens name list = .ok unit) :
    ∃ outline, ofTokens name list = .ok outline ∧ outline.classWords = wordsAfterClass list.tokens ∧
      unit = outline.unit.inScope outline.nameScope := by
  obtain ⟨package, afterPackage, imports, afterImports, ⟨packageStep, hpackage, rfl, rfl⟩,
    ⟨importsStep, himports, rfl, rfl⟩, hclasses⟩ := CompilationUnit.ofTokens_eq_ok_iff.mp h
  let scope : NameScope := ⟨packageStep.value, importsStep.value, wordsAfterClass list.tokens⟩
  -- A unit without classes is the same in every scope, so both readers start from it.
  let empty : CompilationUnit := { name, package := .text packageStep.value }
  have hempty : CompilationUnit.parseClasses scope list.lastLine (empty.inScope scope) importsStep.rest = .ok unit :=
    hclasses
  obtain ⟨written, hwritten, rfl⟩ := CompilationUnit.exists_plain_of_parseClasses hempty
  have hsame : written.packageName = packageStep.value := CompilationUnit.packageName_of_parseClasses hwritten
  refine ⟨⟨importsStep.value, wordsAfterClass list.tokens, written⟩, ?_, rfl, ?_⟩
  · unfold ofTokens
    rw [hpackage]
    show (CompilationUnit.parseImports list.lastLine [] packageStep.rest >>= _) = _
    rw [himports]
    show (CompilationUnit.parseClasses (.plain packageStep.value) list.lastLine _ importsStep.rest >>= _) = _
    rw [hwritten]
    rfl
  · rw [nameScope, hsame]

end Outline

end GuardedLogging
