import GuardedLogging.Proofs.CompilationUnit.Outline
import GuardedLogging.Proofs.CompilationUnit.DeclaredNames

/-!
# What bare names mean

A name of a type without a dot, and without an import, is meant to be a class of the unit if there is one, else a language type, else itself. The classes of a unit are not known before it has been read, so names are taken for declared ones that stand behind the word `class` anywhere. That word may be the name of a member or a part of a dotted name; a name behind it then means a class of the package that no one declares.
-/

namespace GuardedLogging

variable {bare package : String}

/-- Only in the package of the language types is the qualified name of a bare name that of a language type. -/
theorem getD_languageType?_eq_qualify_iff (hpackage : package ≠ "") :
    (languageType? bare).getD bare = qualify package bare ↔
      package = languagePackage ∧ bare ∈ languageTypes := by
  by_cases hlanguage : bare ∈ languageTypes
  · rw [languageType?, if_pos (List.contains_iff_mem.mpr hlanguage), Option.getD_some, qualify_left_inj,
      and_iff_left hlanguage, eq_comm]
  · rw [languageType?, if_neg (mt List.contains_iff_mem.mp hlanguage), Option.getD_none, eq_comm,
      qualify_eq_self_iff]
    exact iff_of_false hpackage fun h => hlanguage h.2

namespace CompilationUnit

/-- The bare name means what exists: a class that the unit declares, or else a language type, or else itself. -/
structure MeansWhatExists (unit : CompilationUnit) (bare meaning : String) : Prop where
  declared : meaning = qualify unit.packageName bare ↔ bare ∈ unit.simpleNames
  otherwise : bare ∉ unit.simpleNames → meaning = (languageType? bare).getD bare

variable {unit : CompilationUnit} {scope : NameScope}

theorem meansWhatExists_qualify_iff (hpackage : unit.packageName ≠ "") (hscope : scope.package = unit.packageName)
    (hnames : unit.simpleNames ⊆ scope.classNames) (hdot : '.' ∉ bare.toList)
    (himported : bare ∉ scope.imports.map Prod.fst) :
    unit.MeansWhatExists bare (scope.qualify bare) ↔
      bare ∈ unit.simpleNames ∨ (bare ∉ scope.classNames ∧
        ¬(unit.packageName = languagePackage ∧ bare ∈ languageTypes)) := by
  -- Every declared name stands behind the word `class`, so only names that are not declared can go wrong.
  by_cases hdeclared : bare ∈ unit.simpleNames
  · have hmeaning := NameScope.qualify_declared hdot himported (hnames hdeclared)
    rw [hscope] at hmeaning
    exact iff_of_true ⟨iff_of_true hmeaning hdeclared, fun hnew => absurd hdeclared hnew⟩ (.inl hdeclared)
  · rw [or_iff_right hdeclared]
    by_cases hstray : bare ∈ scope.classNames
    · have hmeaning := NameScope.qualify_declared hdot himported hstray
      rw [hscope] at hmeaning
      exact iff_of_false (fun h => hdeclared (h.declared.mp hmeaning)) fun h => h.1 hstray
    · have hmeaning := NameScope.qualify_undeclared hdot himported hstray
      rw [and_iff_right hstray, ← getD_languageType?_eq_qualify_iff hpackage, ← hmeaning]
      constructor
      · exact fun h hclash => hdeclared (h.declared.mp hclash)
      · exact fun h => ⟨iff_of_false h hdeclared, fun _ => hmeaning⟩

end CompilationUnit

open CompilationUnit in
/-- In a unit with a package, a bare name that is not imported means what exists if it is declared, or if it does not stand behind the word `class`; where the unit is part of the language's package, the language types are named as if they were its own. -/
theorem bare_names_mean_what_exists_iff (source : String) (name : Scalar) (unit : CompilationUnit)
    (hparse : parse source name = .ok unit) (hpackage : unit.packageName ≠ "") :
    ∃ outline, Outline.parse source name = .ok outline ∧ unit = outline.unit.inScope outline.nameScope ∧
      ∀ bare, '.' ∉ bare.toList → bare ∉ outline.importedNames →
        (unit.MeansWhatExists bare (outline.nameScope.qualify bare) ↔
          bare ∈ unit.simpleNames ∨ (bare ∉ outline.classWords ∧
            ¬(unit.packageName = languagePackage ∧ bare ∈ languageTypes))) := by
  obtain ⟨list, htokenize, hwords, htokens⟩ := exists_tokenize_of_parse hparse
  obtain ⟨outline, houtline, hclassWords, rfl⟩ := Outline.exists_ofTokens htokens
  have hnames := simpleNames_subset_of_ofTokens hwords htokens
  rw [← hclassWords] at hnames
  refine ⟨outline, ?_, rfl, fun bare hdot himported => ?_⟩
  · rw [Outline.parse, htokenize]
    exact houtline
  · exact meansWhatExists_qualify_iff hpackage rfl hnames hdot himported

namespace CompilationUnit

/-- A unit with a field of its own class and one of a class that it does not declare. -/
def linkedUnit : CompilationUnit :=
  let next : Field := { name := "next", type := some ⟨"p.A", false⟩, owner := "p.A" }
  let other : Field := { name := "other", type := some ⟨"B", false⟩, owner := "p.A" }
  { name := .text defaultName, package := .text "p", classes := [{ name := "p.A", fields := [next, other] }] }

def linkedSource : String := "package p class A { A next B other }"

theorem parse_linkedSource : parse linkedSource = .ok linkedUnit := by
  decide +kernel

theorem outline_linkedSource {outline : Outline} (h : Outline.parse linkedSource = .ok outline) :
    outline.importedNames = [] ∧ outline.classWords = ["A"] := by
  have hnames : (Outline.parse linkedSource).map (fun outline => (outline.importedNames, outline.classWords))
      = .ok ([], ["A"]) := by
    decide +kernel
  rw [h] at hnames
  exact Prod.mk.inj (Except.ok.inj hnames)

end CompilationUnit

open CompilationUnit in
theorem bare_names_of_linkedUnit_mean_what_exists :
    parse linkedSource = .ok linkedUnit ∧ linkedUnit.packageName ≠ "" ∧
      ∃ outline, Outline.parse linkedSource = .ok outline ∧
        linkedUnit = outline.unit.inScope outline.nameScope ∧
        linkedUnit.MeansWhatExists "A" (outline.nameScope.qualify "A") ∧
        linkedUnit.MeansWhatExists "B" (outline.nameScope.qualify "B") := by
  have hpackage : linkedUnit.packageName ≠ "" := by decide
  obtain ⟨outline, houtline, hunit, hmeans⟩ :=
    bare_names_mean_what_exists_iff linkedSource _ _ parse_linkedSource hpackage
  obtain ⟨himported, hclassWords⟩ := outline_linkedSource houtline
  rw [himported, hclassWords] at hmeans
  refine ⟨parse_linkedSource, hpackage, outline, houtline, hunit, ?_, ?_⟩
  · exact (hmeans "A" (by decide) List.not_mem_nil).mpr (.inl (by decide))
  · exact (hmeans "B" (by decide) List.not_mem_nil).mpr (.inr ⟨by decide, by decide⟩)

namespace CompilationUnit

/-- A unit in which the word `class` is the name of a member, at the end of a statement. -/
def strayUnit : CompilationUnit :=
  let start : Method :=
    { name := "start"
      parameters := [{ name := "a" }]
      body := [⟨false, .property (.var "a") "class"⟩, ⟨false, .call (.var "Foo") "b" []⟩] }
  let known : Field := { name := "x", type := some ⟨"p.Foo", false⟩, owner := "p.A" }
  { name := .text defaultName
    package := .text "p"
    classes := [{ name := "p.A", fields := [known], methods := [start] }] }

def straySource : String := "package p class A { Foo x def start(a) { a.class Foo.b() } }"

/-- What the source of the unit says, with the type of the field as it is written. -/
def strayOutline : Outline :=
  let asWritten (decl : ClassDecl) : ClassDecl :=
    { decl with fields := decl.fields.map fun field => { field with type := some ⟨"Foo", false⟩ } }
  { imports := []
    classWords := ["A", "Foo"]
    unit := { strayUnit with classes := strayUnit.classes.map asWritten } }

end CompilationUnit

open CompilationUnit in
/-- The name behind that word means a class of the package, and no such class is declared. -/
theorem stray_class_word_makes_undeclared_type :
    parse straySource = .ok strayUnit ∧ Outline.parse straySource = .ok strayOutline ∧
      strayUnit = strayOutline.unit.inScope strayOutline.nameScope ∧ "Foo" ∉ strayOutline.importedNames ∧
        strayOutline.nameScope.qualify "Foo" = qualify strayUnit.packageName "Foo" ∧
          "Foo" ∉ strayUnit.simpleNames ∧
            ¬strayUnit.MeansWhatExists "Foo" (strayOutline.nameScope.qualify "Foo") := by
  have hmeaning : strayOutline.nameScope.qualify "Foo" = qualify strayUnit.packageName "Foo" :=
    NameScope.qualify_declared (by decide) List.not_mem_nil (by decide)
  have hundeclared : "Foo" ∉ strayUnit.simpleNames := by decide
  exact ⟨by decide +kernel, by decide +kernel, by decide +kernel, List.not_mem_nil, hmeaning, hundeclared,
    fun h => hundeclared (h.declared.mp hmeaning)⟩

end GuardedLogging
