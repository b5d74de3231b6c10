import GuardedLogging.Proofs.CompilationUnit.DeclaredNames
import GuardedLogging.Proofs.Transformation.Boundaries

/-!
# Which types keep their names in a text

A type is written by its simple name if the unit declares it or the language provides it, and by its whole name otherwise. The text has no imports, and its reader takes a name without a dot for that of a class if it stands behind the word `class`. So a declared type keeps its name, and any other type keeps it unless its written name is mistaken: the simple name of a language type for that of a class of the package, or a name without a dot, which only an import can give, for that of a class or of a language type.
-/

namespace GuardedLogging

/-- A place at which a type may be declared. -/
inductive TypePlace where
  | field (className name : String)
  | result (className methodName : String)
  | parameter (className methodName name : String)
deriving DecidableEq, Repr

/-- The declared types of a class with their places, in the order of its fields and methods. -/
def ClassDecl.declaredTypes (decl : ClassDecl) : List (TypePlace × Option TypeRef) :=
  decl.fields.map (fun field => (.field decl.name field.name, field.type)) ++
    decl.methods.flatMap fun method =>
      (.result decl.name method.name, method.returnType) :: method.parameters.map fun parameter =>
        (.parameter decl.name method.name parameter.name, parameter.type)

namespace CompilationUnit

variable {unit parsed reread : CompilationUnit} {indent : String}

def declaredTypes (unit : CompilationUnit) : List (TypePlace × Option TypeRef) :=
  unit.classes.flatMap ClassDecl.declaredTypes

/-- The names of the declared types with their places. -/
def declaredTypeNames (unit : CompilationUnit) : List (TypePlace × Option String) :=
  unit.declaredTypes.map fun entry => (entry.1, entry.2.map (·.name))

/-- What is read where a unit was written has its types at the same places. -/
theorem declaredTypes_reread_joined (unit : CompilationUnit) (scope : NameScope) :
    (unit.joined.reread scope).declaredTypes =
      unit.declaredTypes.map fun entry => (entry.1, entry.2.map (TypeRef.reread scope unit.classNames)) := by
  have hdecl : ∀ decl : ClassDecl, ((decl.joined unit.classNames).reread scope unit.classNames).declaredTypes =
      decl.declaredTypes.map fun entry => (entry.1, entry.2.map (TypeRef.reread scope unit.classNames)) := by
    intro decl
    simp only [ClassDecl.declaredTypes, ClassDecl.joined, ClassDecl.reread, Method.joined, Method.reread,
      Field.reread, Parameter.reread, List.map_map, List.map_append, List.flatMap_map, List.map_flatMap,
      List.map_cons, Function.comp_def]
  have hnames := unit.classNames_joined
  simp only [declaredTypes, CompilationUnit.reread, hnames]
  simp only [joined, List.map_map, List.flatMap_map, List.map_flatMap, Function.comp_def, hdecl]

theorem simpleNames_reread_joined (unit : CompilationUnit) (scope : NameScope) :
    (unit.joined.reread scope).simpleNames = unit.simpleNames := by
  simp only [simpleNames, CompilationUnit.reread, joined, List.map_map, Function.comp_def]
  rfl

theorem IsWritten.simpleNames_subset (hindent : IsIndent indent)
    (h : unit.IsWritten (TypeRef.IsSaid unit.classNames) (Expr.IsWritten unit.classNames))
    (hread : unit.readBack indent = .ok reread) : unit.simpleNames ⊆ classWords unit.lexemes := by
  obtain ⟨list, htokenize, hwords, htokens⟩ := exists_tokenize_of_parse hread
  have hsubset := simpleNames_subset_of_ofTokens hwords htokens
  rwa [h.eq_reread hindent hread, simpleNames_reread_joined, wordsAfterClass_eq,
    h.lexemes_of_tokenize hindent htokenize] at hsubset

theorem IsWritten.declaredTypeNames_eq_iff (hindent : IsIndent indent)
    (h : unit.IsWritten (TypeRef.IsSaid unit.classNames) (Expr.IsWritten unit.classNames))
    (hread : unit.readBack indent = .ok reread) :
    reread.declaredTypeNames = unit.declaredTypeNames ↔
      ∀ entry ∈ unit.declaredTypes, ∀ type ∈ entry.2,
        type.name ∈ unit.classNames ∨ type.IsUnmistaken unit.packageName (classWords unit.lexemes) := by
  have hwords := h.simpleNames_subset hindent hread
  have hmeaning : ∀ type : TypeRef,
      (type.reread ⟨unit.packageName, [], classWords unit.lexemes⟩ unit.classNames).name = type.name ↔
        type.name ∈ unit.classNames ∨ type.IsUnmistaken unit.packageName (classWords unit.lexemes) := by
    intro type
    rw [classNames_eq h]
    exact TypeRef.qualify_toSource_eq_iff (isName_of_mem_simpleNames h) hwords
  rw [declaredTypeNames, declaredTypeNames, h.eq_reread hindent hread, declaredTypes_reread_joined,
    List.map_map, List.map_inj_left]
  refine forall₂_congr fun entry _ => ?_
  obtain ⟨place, _ | type⟩ := entry
  · simp
  · simp [hmeaning]

end CompilationUnit

open CompilationUnit in
/-- If the text of a unit that came from a source is read, the declared types have the same names again, each at its place, if and only if each of them is a class of the unit or has a written name that is not mistaken. -/
theorem declared_types_keep_names_iff (source : String) (name : Scalar) (parsed unit reread : CompilationUnit)
    (indent : String) (hparse : parse source name = .ok parsed) (hunit : parsed.Becomes unit)
    (hindent : IsIndent indent) (hread : unit.readBack indent = .ok reread) :
    reread.declaredTypeNames = unit.declaredTypeNames ↔
      ∀ entry ∈ unit.declaredTypes, ∀ type ∈ entry.2,
        type.name ∈ unit.classNames ∨ type.IsUnmistaken unit.packageName (classWords unit.lexemes) := by
  rcases hunit.isWritten_or (isParsed_of_parse hparse) with hwritten | hbroken
  · exact hwritten.declaredTypeNames_eq_iff hindent hread
  -- A logger that no source can name makes a text that is not read at all.
  · exact absurd hread (hbroken.readBack_ne_ok hindent reread)

open CompilationUnit in
theorem declared_types_of_sampleUnit_keep_names :
    parse sampleUnit.toSource sampleUnit.name = .ok sampleUnit ∧ sampleUnit.Becomes sampleUnit ∧
      IsIndent defaultIndent ∧ sampleUnit.readBack defaultIndent = .ok sampleUnit ∧
        ∀ entry ∈ sampleUnit.declaredTypes, ∀ type ∈ entry.2, type.name ∈ sampleUnit.classNames ∨
          type.IsUnmistaken sampleUnit.packageName (classWords sampleUnit.lexemes) := by
  have hindent : IsIndent defaultIndent := by decide +kernel
  exact ⟨parse_sampleUnit, .parsed, hindent, parse_sampleUnit,
    (declared_types_keep_names_iff _ _ _ _ _ _ parse_sampleUnit .parsed hindent parse_sampleUnit).mp rfl⟩

namespace CompilationUnit

/-- A class with the simple name of a language type, and a field of the language type. -/
def shadowingUnit : CompilationUnit :=
  let title : Field := { name := "title", type := some ⟨"java.lang.String", false⟩, owner := "p.String" }
  { name := .text defaultName, package := .text "p", classes := [{ name := "p.String", fields := [title] }] }

theorem parse_shadowingUnit :
    parse "package p class String { java.lang.String title }" = .ok shadowingUnit := by
  decide +kernel

end CompilationUnit

open CompilationUnit in
/-- The text says that the field is of the declared class. -/
theorem declared_types_of_shadowingUnit_change :
    parse "package p class String { java.lang.String title }" = .ok shadowingUnit ∧
      ∃ reread, shadowingUnit.readBack defaultIndent = .ok reread ∧
        reread.declaredTypeNames ≠ shadowingUnit.declaredTypeNames := by
  have hindent : IsIndent defaultIndent := by decide +kernel
  have hwritten := (isWritten_of_isParsed (isParsed_of_parse parse_shadowingUnit)).isSaid
  obtain ⟨scope, hread⟩ :=
    hwritten.exists_readBack_eq hindent ⟨by decide +kernel, by decide +kernel⟩ (by decide +kernel)
  exact ⟨parse_shadowingUnit, _, hread,
    (hwritten.declaredTypeNames_eq_iff hindent hread).not.mpr (by decide +kernel)⟩

end GuardedLogging
