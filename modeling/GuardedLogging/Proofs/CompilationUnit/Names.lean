import GuardedLogging.CompilationUnit.NameScope
import GuardedLogging.Expr.Source
import GuardedLogging.Proofs.Token.DottedName

/-!
# Names

A type is written by its simple name if the unit declares it or the language provides it, and by its qualified name otherwise. The two meet again when the written name is looked up, as long as no simple name has two meanings.
-/

namespace GuardedLogging

/-! ### Qualified names -/

theorem lastPart_eq_self {name : String} (h : '.' ∉ name.toList) : lastPart name = name := by
  have hparts : ∀ c ∈ name.toList.reverse, (c != '.') = true :=
    fun c hc => bne_iff_ne.mpr fun hdot => h (List.mem_reverse.mp (hdot ▸ hc))
  rw [lastPart, List.takeWhile_eq_self_iff.mpr hparts, List.reverse_reverse, String.ofList_toList]

theorem lastPart_qualify (package : String) {name : String} (h : '.' ∉ name.toList) :
    lastPart (qualify package name) = name := by
  unfold qualify
  split
  · exact lastPart_eq_self h
  · have hparts : ∀ c ∈ name.toList.reverse, (c != '.') = true :=
      fun c hc => bne_iff_ne.mpr fun hdot => h (List.mem_reverse.mp (hdot ▸ hc))
    rw [lastPart, String.toList_append, String.toList_append, List.reverse_append,
      List.takeWhile_append_of_pos hparts, List.reverse_append]
    simp

theorem qualify_of_ne {package : String} (h : package ≠ "") (name : String) :
    qualify package name = package ++ "." ++ name :=
  if_neg (by simpa using h)

/-- A qualified name is longer than its last part, so it is never that part. -/
theorem qualify_eq_self_iff {package name : String} : qualify package name = name ↔ package = "" := by
  constructor
  · intro h
    by_contra hpackage
    have hlength := congrArg String.length h
    rw [qualify_of_ne hpackage, String.length_append, String.length_append] at hlength
    have hdot : ".".length = 1 := rfl
    omega
  · rintro rfl
    rfl

theorem qualify_left_inj {package other name : String} : qualify package name = qualify other name ↔ package = other := by
  by_cases hother : other = ""
  · rw [hother]
    exact qualify_eq_self_iff
  · by_cases hpackage : package = ""
    · rw [hpackage, eq_comm (a := ""), eq_comm]
      exact qualify_eq_self_iff
    · rw [qualify_of_ne hpackage, qualify_of_ne hother, String.append_assoc, String.append_assoc,
        String.append_left_inj]

theorem getD_languageType?_eq_self_iff {name : String} :
    (languageType? name).getD name = name ↔ name ∉ languageTypes := by
  by_cases h : name ∈ languageTypes
  · rw [languageType?, if_pos (List.contains_iff_mem.mpr h), Option.getD_some, qualify_eq_self_iff]
    exact iff_of_false (by decide) (not_not_intro h)
  · rw [languageType?, if_neg (mt List.contains_iff_mem.mp h), Option.getD_none]
    exact iff_of_true rfl h

theorem isName_of_isDottedName {name : String} (h : isDottedName name = true)
    (hdot : '.' ∉ name.toList) : isName name = true := by
  obtain ⟨first, parts, hparts, hfirst, _⟩ := dotParts_of_isDottedName h
  rw [dotParts_eq_singleton hdot] at hparts
  cases hparts
  exact hfirst

theorem isDottedName_qualify {package name : String}
    (hpackage : package = "" ∨ isDottedName package = true) (hname : isName name = true) :
    isDottedName (qualify package name) = true := by
  unfold qualify
  split
  · exact isDottedName_of_isName hname
  · rename_i hempty
    rcases hpackage with rfl | hdotted
    · exact absurd rfl hempty
    · obtain ⟨first, parts, hparts, hfirst, hwords⟩ := dotParts_of_isDottedName hdotted
      have hword := isWord_of_isName hname
      rw [isDottedName, dotParts_append, hparts, dotParts_eq_singleton (dot_not_mem_of_isWord hword),
        List.cons_append]
      refine Bool.and_eq_true_iff.mpr ⟨hfirst, List.all_eq_true.mpr ?_⟩
      exact List.forall_mem_append.mpr ⟨hwords, List.forall_mem_singleton.mpr hword⟩

theorem isName_of_mem_languageTypes {name : String} (h : name ∈ languageTypes) : isName name = true := by
  have hall : ∀ name ∈ languageTypes, isName name = true := by decide
  exact hall name h

/-- The word `class` is a keyword, so it is no part of a name without a dot. -/
theorem class_not_mem_dotParts {name : String} (h : isName name = true) :
    "class" ∉ dotParts name := by
  rw [dotParts_eq_singleton (dot_not_mem_of_isWord (isWord_of_isName h)), List.mem_singleton]
  exact (Cursor.ne_of_isKeyword (isKeyword_of_isName h) (by decide)).symm

/-! ### Types that were read -/

/-- The type may come from a source: its name is dotted and nothing is known of it. -/
structure TypeRef.IsParsed (type : TypeRef) : Prop where
  dotted : isDottedName type.name = true
  unresolved : type.resolved = false

/-- The package and the imports of the scope are dotted names; the empty text stands for no package. -/
structure NameScope.IsWritten (scope : NameScope) : Prop where
  package : scope.package = "" ∨ isDottedName scope.package = true
  imports : ∀ imported ∈ scope.imports, isDottedName imported.2 = true

namespace NameScope

variable {scope : NameScope} {name : String}

theorem isParsed_typeRef (hscope : scope.IsWritten) (hname : isDottedName name = true) :
    (scope.typeRef name).IsParsed := by
  refine ⟨?_, rfl⟩
  show isDottedName (scope.qualify name) = true
  unfold qualify
  split
  · exact hname
  · rename_i hdot
    have hsimple := isName_of_isDottedName hname hdot
    split
    · rename_i imported hlookup
      exact hscope.imports _ (mem_of_lookup_eq_some hlookup)
    · split
      · exact isDottedName_qualify hscope.package hsimple
      · unfold languageType?
        split
        · exact isDottedName_qualify (.inr (by decide)) hsimple
        · exact hname

end NameScope

/-! ### Types that are read back -/

/-- A source can say the type in a unit that declares the given types. -/
def TypeRef.IsSaid (localTypes : List String) (type : TypeRef) : Prop :=
  isDottedName (type.toSource localTypes) = true

/-- The type that the written type is read as. -/
def TypeRef.reread (scope : NameScope) (localTypes : List String) (type : TypeRef) : TypeRef :=
  scope.typeRef (type.toSource localTypes)

/-- The type as a source says it: nothing is resolved yet. -/
def TypeRef.asRead (type : TypeRef) : TypeRef := ⟨type.name, false⟩

theorem TypeRef.asRead_of_isParsed {type : TypeRef} (h : type.IsParsed) : type.asRead = type := by
  rw [asRead, ← h.unresolved]

theorem TypeRef.map_asRead_of_isParsed {type : Option TypeRef} (h : ∀ known ∈ type, known.IsParsed) :
    type.map asRead = type := by
  cases type with
  | none => rfl
  | some known => rw [Option.map_some, asRead_of_isParsed (h known rfl)]

/-- The written type is a dotted name and means the type in the scope of the reader. The word `class` is not in it, so what follows is not taken for a declared name. -/
structure TypeRef.IsReadBack (scope : NameScope) (localTypes : List String) (type : TypeRef) : Prop where
  dotted : isDottedName (type.toSource localTypes) = true
  meaning : scope.qualify (type.toSource localTypes) = type.name
  noClass : "class" ∉ dotParts (type.toSource localTypes)

theorem TypeRef.IsReadBack.isSaid {scope : NameScope} {localTypes : List String} {type : TypeRef}
    (h : type.IsReadBack scope localTypes) : type.IsSaid localTypes := h.dotted

theorem TypeRef.IsReadBack.reread_eq {scope : NameScope} {localTypes : List String} {type : TypeRef}
    (h : type.IsReadBack scope localTypes) : type.reread scope localTypes = type.asRead := by
  rw [reread, NameScope.typeRef, h.meaning, asRead]

theorem TypeRef.map_reread_eq {scope : NameScope} {localTypes : List String} {type : Option TypeRef}
    (h : ∀ known ∈ type, known.IsReadBack scope localTypes) :
    type.map (reread scope localTypes) = type.map asRead := by
  cases type with
  | none => rfl
  | some known => rw [Option.map_some, Option.map_some, (h known rfl).reread_eq]

/-- The name of the type has one meaning: without a dot, it is neither provided by the language nor declared in the package. -/
structure TypeRef.IsClear (package : String) (declared : List String) (type : TypeRef) : Prop where
  language : '.' ∉ type.name.toList → type.name ∉ languageTypes
  declared : '.' ∉ type.name.toList → package ≠ "" → type.name ∉ declared

instance (package : String) (declared : List String) (type : TypeRef) :
    Decidable (type.IsClear package declared) :=
  decidable_of_iff (('.' ∉ type.name.toList → type.name ∉ languageTypes) ∧
      ('.' ∉ type.name.toList → package ≠ "" → type.name ∉ declared))
    ⟨fun h => ⟨h.1, h.2⟩, fun h => ⟨h.language, h.declared⟩⟩

section Meaning

variable {package : String} {declared : List String} {type : TypeRef}

theorem NameScope.qualify_declared {scope : NameScope} {name : String} (hname : '.' ∉ name.toList)
    (himported : name ∉ scope.imports.map Prod.fst) (h : name ∈ scope.classNames) :
    scope.qualify name = GuardedLogging.qualify scope.package name := by
  have hlookup : scope.imports.lookup name = none := lookup_eq_none_iff_not_mem.mpr himported
  rw [NameScope.qualify, if_neg hname, hlookup]
  exact if_pos (List.contains_iff_mem.mpr h)

theorem NameScope.qualify_undeclared {scope : NameScope} {name : String} (hname : '.' ∉ name.toList)
    (himported : name ∉ scope.imports.map Prod.fst) (h : name ∉ scope.classNames) :
    scope.qualify name = (languageType? name).getD name := by
  have hlookup : scope.imports.lookup name = none := lookup_eq_none_iff_not_mem.mpr himported
  rw [NameScope.qualify, if_neg hname, hlookup]
  exact if_neg (mt List.contains_iff_mem.mp h)

/-- How a type is written: by the simple name of a declared type or of a language type, or by its whole name. -/
theorem TypeRef.toSource_cases (hdeclared : ∀ name ∈ declared, isName name = true) :
    (∃ name ∈ declared, type.name = qualify package name ∧
        type.toSource (declared.map (qualify package)) = name) ∨
      (type.name ∉ declared.map (qualify package) ∧
        ∃ name ∈ languageTypes, type.name = qualify languagePackage name ∧
          type.toSource (declared.map (qualify package)) = name) ∨
      (type.name ∉ declared.map (qualify package) ∧ isLanguageType type.name = false ∧
        type.toSource (declared.map (qualify package)) = type.name) := by
  by_cases hlocal : type.name ∈ declared.map (qualify package)
  · obtain ⟨name, hname, hqualified⟩ := List.mem_map.mp hlocal
    refine .inl ⟨name, hname, hqualified.symm, ?_⟩
    rw [toSource, List.contains_iff_mem.mpr hlocal, Bool.true_or, if_pos rfl, simpleName, ← hqualified]
    exact lastPart_qualify package (dot_not_mem_of_isWord (isWord_of_isName (hdeclared name hname)))
  · by_cases hprovided : isLanguageType type.name = true
    · obtain ⟨name, hname, hqualified⟩ := List.mem_map.mp (List.contains_iff_mem.mp hprovided)
      refine .inr (.inl ⟨hlocal, name, hname, hqualified.symm, ?_⟩)
      rw [toSource, hprovided, Bool.or_true, if_pos rfl, simpleName, ← hqualified]
      exact lastPart_qualify languagePackage
        (dot_not_mem_of_isWord (isWord_of_isName (isName_of_mem_languageTypes hname)))
    · refine .inr (.inr ⟨hlocal, Bool.eq_false_iff.mpr hprovided, ?_⟩)
      rw [toSource, Bool.eq_false_iff.mpr (mt List.contains_iff_mem.mp hlocal),
        Bool.eq_false_iff.mpr hprovided, Bool.or_false, if_neg Bool.false_ne_true]

theorem TypeRef.isDottedName_toSource (hdeclared : ∀ name ∈ declared, isName name = true)
    (htype : isDottedName type.name = true) :
    isDottedName (type.toSource (declared.map (qualify package))) = true := by
  rcases type.toSource_cases hdeclared with ⟨name, hname, _, h⟩ | ⟨_, name, hname, _, h⟩ | ⟨_, _, h⟩
  · rw [h]
    exact isDottedName_of_isName (hdeclared name hname)
  · rw [h]
    exact isDottedName_of_isName (isName_of_mem_languageTypes hname)
  · rwa [h]

theorem TypeRef.class_not_mem_toSource (hdeclared : ∀ name ∈ declared, isName name = true)
    (htype : "class" ∉ dotParts type.name) :
    "class" ∉ dotParts (type.toSource (declared.map (qualify package))) := by
  rcases type.toSource_cases hdeclared with ⟨name, hname, _, h⟩ | ⟨_, name, hname, _, h⟩ | ⟨_, _, h⟩
  · rw [h]
    exact class_not_mem_dotParts (hdeclared name hname)
  · rw [h]
    exact class_not_mem_dotParts (isName_of_mem_languageTypes hname)
  · rwa [h]

theorem TypeRef.simpleName_mem_languageTypes (h : isLanguageType type.name = true) :
    type.simpleName ∈ languageTypes := by
  obtain ⟨name, hname, hqualified⟩ := List.mem_map.mp (List.contains_iff_mem.mp h)
  have hdot := dot_not_mem_of_isWord (isWord_of_isName (isName_of_mem_languageTypes hname))
  rw [simpleName, ← hqualified, lastPart_qualify languagePackage hdot]
  exact hname

/-- The written name of the type is not mistaken: the simple name of a language type is not that of a class of another package, and a name without a dot is neither that of a class of a package nor that of a language type. -/
structure TypeRef.IsUnmistaken (package : String) (words : List String) (type : TypeRef) : Prop where
  language : isLanguageType type.name = true → type.simpleName ∈ words → package = languagePackage
  declared : '.' ∉ type.name.toList → type.name ∈ words → package = ""
  provided : '.' ∉ type.name.toList → type.name ∈ languageTypes → type.name ∈ words

instance (package : String) (words : List String) (type : TypeRef) : Decidable (type.IsUnmistaken package words) :=
  decidable_of_iff ((isLanguageType type.name = true → type.simpleName ∈ words → package = languagePackage) ∧
      ('.' ∉ type.name.toList → type.name ∈ words → package = "") ∧
      ('.' ∉ type.name.toList → type.name ∈ languageTypes → type.name ∈ words))
    ⟨fun h => ⟨h.1, h.2.1, h.2.2⟩, fun h => ⟨h.language, h.declared, h.provided⟩⟩

theorem TypeRef.qualify_toSource_eq_iff {words : List String} (hdeclared : ∀ name ∈ declared, isName name = true)
    (hwords : declared ⊆ words) :
    NameScope.qualify ⟨package, [], words⟩ (type.toSource (declared.map (qualify package))) = type.name ↔
      type.name ∈ declared.map (qualify package) ∨ type.IsUnmistaken package words := by
  rcases type.toSource_cases hdeclared with
    ⟨name, hname, hqualified, h⟩ | ⟨hlocal, name, hname, hqualified, h⟩ | ⟨hlocal, hlanguage, h⟩
  · have hdot := dot_not_mem_of_isWord (isWord_of_isName (hdeclared name hname))
    rw [h, NameScope.qualify_declared hdot List.not_mem_nil (hwords hname), hqualified]
    exact iff_of_true rfl (.inl (List.mem_map_of_mem hname))
  · have hdot := dot_not_mem_of_isWord (isWord_of_isName (isName_of_mem_languageTypes hname))
    have hdotted : '.' ∈ type.name.toList := by
      rw [hqualified]
      simp [qualify, languagePackage]
    have hprovided : isLanguageType type.name = true :=
      List.contains_iff_mem.mpr (hqualified ▸ List.mem_map_of_mem hname)
    have hsimple : type.simpleName = name := by
      rw [simpleName, hqualified, lastPart_qualify languagePackage hdot]
    rw [h, or_iff_right hlocal, hqualified]
    by_cases hmem : name ∈ words
    · rw [NameScope.qualify_declared hdot List.not_mem_nil hmem, qualify_left_inj]
      constructor
      · exact fun hpackage => ⟨fun _ _ => hpackage, absurd hdotted, absurd hdotted⟩
      · exact fun hclear => hclear.language hprovided (hsimple ▸ hmem)
    · rw [NameScope.qualify_undeclared hdot List.not_mem_nil hmem, languageType?,
        if_pos (List.contains_iff_mem.mpr hname), Option.getD_some]
      exact iff_of_true rfl ⟨fun _ hwritten => absurd (hsimple ▸ hwritten) hmem, absurd hdotted, absurd hdotted⟩
  · rw [h, or_iff_right hlocal]
    have hvacuous : ¬isLanguageType type.name = true := Bool.eq_false_iff.mp hlanguage
    by_cases hdot : '.' ∈ type.name.toList
    · rw [NameScope.qualify, if_pos hdot]
      exact iff_of_true rfl ⟨fun hprovided => absurd hprovided hvacuous, absurd hdot, absurd hdot⟩
    · by_cases hmem : type.name ∈ words
      · rw [NameScope.qualify_declared hdot List.not_mem_nil hmem, qualify_eq_self_iff]
        constructor
        · exact fun hpackage => ⟨fun hprovided => absurd hprovided hvacuous, fun _ _ => hpackage, fun _ _ => hmem⟩
        · exact fun hclear => hclear.declared hdot hmem
      · rw [NameScope.qualify_undeclared hdot List.not_mem_nil hmem, getD_languageType?_eq_self_iff]
        constructor
        · exact fun hnot => ⟨fun hprovided => absurd hprovided hvacuous, fun _ hwritten => absurd hwritten hmem,
            fun _ hprovided => absurd hprovided hnot⟩
        · exact fun hclear hprovided => hmem (hclear.provided hdot hprovided)

theorem TypeRef.qualify_toSource (hdeclared : ∀ name ∈ declared, isName name = true)
    (hlanguage : ∀ name ∈ declared, name ∉ languageTypes) (hclear : type.IsClear package declared) :
    NameScope.qualify ⟨package, [], declared⟩ (type.toSource (declared.map (qualify package)))
      = type.name := by
  refine (qualify_toSource_eq_iff hdeclared fun _ => id).mpr (.inr ⟨?_, ?_, ?_⟩)
  · exact fun hprovided hname => absurd (simpleName_mem_languageTypes hprovided) (hlanguage _ hname)
  · intro hdot hname
    by_contra hpackage
    exact hclear.declared hdot hpackage hname
  · exact fun hdot hprovided => absurd hprovided (hclear.language hdot)

theorem TypeRef.isReadBack_of_isClear (hdeclared : ∀ name ∈ declared, isName name = true)
    (hlanguage : ∀ name ∈ declared, name ∉ languageTypes) (htype : isDottedName type.name = true)
    (hclass : "class" ∉ dotParts type.name) (hclear : type.IsClear package declared) :
    type.IsReadBack ⟨package, [], declared⟩ (declared.map (qualify package)) where
  dotted := isDottedName_toSource hdeclared htype
  meaning := qualify_toSource hdeclared hlanguage hclear
  noClass := class_not_mem_toSource hdeclared hclass

end Meaning

end GuardedLogging
