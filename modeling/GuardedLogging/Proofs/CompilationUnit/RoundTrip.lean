import GuardedLogging.Proofs.CompilationUnit.Units

/-!
# Which units are read back

What a source can say is written so that it is read back, under four conditions. Numbers with a fraction may lose digits; a statement that starts with a parenthesis is taken for the arguments of the call in front of it; a simple name that has two meanings is read with the other one; and the word `class` declares the name behind it wherever it stands.
-/

namespace GuardedLogging

/-- The name of the member that the node refers to. -/
def Expr.memberName? : Expr → Option String
  | .call _ name _ => some name
  | .property _ name => some name
  | _ => none

/-- The name of the type is a dotted name. -/
def TypeRef.IsDotted (type : TypeRef) : Prop := isDottedName type.name = true

namespace CompilationUnit

/-- No statement but the first of a method starts with a parenthesis. -/
def IsSeparated (unit : CompilationUnit) : Prop :=
  ∀ decl ∈ unit.classes, ∀ method ∈ decl.methods, method.IsSeparated unit.classNames

instance (unit : CompilationUnit) : Decidable unit.IsSeparated :=
  inferInstanceAs (Decidable (∀ decl ∈ unit.classes, ∀ method ∈ decl.methods,
    method.IsSeparated unit.classNames))

/-- No class is named like a language type, and each type that is named without a package has one meaning. -/
structure IsClear (unit : CompilationUnit) : Prop where
  classes : ∀ decl ∈ unit.classes, decl.simpleName ∉ languageTypes
  types : ∀ decl ∈ unit.classes, ∀ entry ∈ decl.typeReferences,
    entry.2.IsClear unit.packageName unit.simpleNames

/-- The word `class` is no member name and no part of a dotted name. -/
structure HasNoClass (unit : CompilationUnit) : Prop where
  package : "class" ∉ dotParts unit.packageName
  annotations : ∀ decl ∈ unit.classes, ∀ mark ∈ decl.annotations, "class" ∉ dotParts mark.name
  types : ∀ decl ∈ unit.classes, ∀ entry ∈ decl.typeReferences, "class" ∉ dotParts entry.2.name
  members : ∀ decl ∈ unit.classes, ∀ entry ∈ decl.expressions, ∀ node ∈ entry.2.nodes,
    node.memberName? ≠ some "class"

variable {unit : CompilationUnit}

theorem classNames_eq {types : TypeRef → Prop} {exprs : Expr → Prop} (h : unit.IsWritten types exprs) :
    unit.classNames = unit.simpleNames.map (qualify unit.packageName) := by
  rw [classNames, simpleNames, List.map_map]
  exact List.map_congr_left fun decl hdecl => (h.classes decl hdecl).name

theorem isName_of_mem_simpleNames {types : TypeRef → Prop} {exprs : Expr → Prop}
    (h : unit.IsWritten types exprs) : ∀ name ∈ unit.simpleNames, isName name = true := by
  intro name hname
  obtain ⟨decl, hdecl, rfl⟩ := List.mem_map.mp hname
  exact (h.classes decl hdecl).simpleName

theorem readBack_of_isWritten {indent : String} (hindent : IsIndent indent)
    (h : unit.IsWritten TypeRef.IsDotted (Expr.IsWritten unit.classNames))
    (hintegers : unit.HasIntegersOnly) (hseparated : unit.IsSeparated) (hclear : unit.IsClear)
    (hclass : unit.HasNoClass) : unit.readBack indent = .ok unit.asRead := by
  have hnames := classNames_eq h
  have hdeclared := isName_of_mem_simpleNames h
  have hlanguage : ∀ name ∈ unit.simpleNames, name ∉ languageTypes := by
    intro name hname
    obtain ⟨decl, hdecl, rfl⟩ := List.mem_map.mp hname
    exact hclear.classes decl hdecl
  refine readBack_eq hindent (h.imp ?_ ?_) hintegers.annotations hseparated hclass.package
    hclass.annotations
  · intro decl hdecl entry hentry hdotted
    rw [hnames]
    exact TypeRef.isReadBack_of_isClear hdeclared hlanguage hdotted (hclass.types decl hdecl entry hentry)
      (hclear.types decl hdecl entry hentry)
  · intro decl hdecl entry hentry hwritten
    have hexact : entry.2.IsExact unit.classNames :=
      fun node hnode => ⟨hwritten node hnode, hintegers.exprs decl hdecl entry hentry node hnode⟩
    refine ⟨hexact, Expr.noClass_lexemes hexact fun node hnode => ?_⟩
    have hmember := hclass.members decl hdecl entry hentry node hnode
    cases node with
    | call receiver name arguments => exact fun heq => hmember (congrArg some heq)
    | property receiver name => exact fun heq => hmember (congrArg some heq)
    | classRef type =>
      have htype : ("class reference in " ++ entry.1, type) ∈ decl.typeReferences := by
        refine List.mem_append_right _ (List.mem_flatMap.mpr ⟨entry, hentry, ?_⟩)
        exact List.mem_map.mpr ⟨type, Expr.mem_typeRefs_of_mem_nodes hnode, rfl⟩
      have hpart := hclass.types decl hdecl _ htype
      rw [hnames]
      exact TypeRef.class_not_mem_toSource hdeclared hpart
    | _ => trivial

end CompilationUnit

end GuardedLogging
