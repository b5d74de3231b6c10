import GuardedLogging.CompilationUnit
import Mathlib.Data.List.DropRight

/-!
# What is on a class path

The white space around a name is no part of it, and a text of white space alone is no name. Putting further names on a class path leaves those that are there, since they have lost their white space already. The classes of a unit come on it under their own names, unless these begin or end with white space.
-/

namespace GuardedLogging

theorem strip_strip (text : String) : strip (strip text) = strip text := by
  have hlist : (strip text).toList = List.rdropWhile isBlank (text.toList.dropWhile isBlank) := by
    rw [strip, String.toList_ofList]
    rfl
  have hfront : (strip text).toList.dropWhile isBlank = (strip text).toList := by
    rw [hlist, List.dropWhile_eq_self_iff]
    intro hpos
    have hbegins := List.rdropWhile_prefix isBlank (text.toList.dropWhile isBlank)
    rw [hbegins.getElem hpos]
    exact List.dropWhile_get_zero_not isBlank text.toList (hpos.trans_le hbegins.length_le)
  have hback : List.rdropWhile isBlank (strip text).toList = (strip text).toList := by
    rw [hlist, List.rdropWhile_idempotent]
  calc strip (strip text)
      = String.ofList (List.rdropWhile isBlank ((strip text).toList.dropWhile isBlank)) := rfl
    _ = strip text := by rw [hfront, hback, String.ofList_toList]

namespace ClassPath

variable {names more : List String} {name : String}

theorem mem_names_ofList_iff : name ∈ (ofList names).names ↔ name ≠ "" ∧ ∃ given ∈ names, strip given = name := by
  simp only [ofList, List.mem_eraseDups, List.mem_filter, List.mem_map, Bool.not_eq_true', String.isEmpty_eq_false_iff]
  exact and_comm

theorem contains_iff {classPath : ClassPath} :
    classPath.contains name = true ↔ name ∈ classPath.names ∨ isLanguageType name = true := by
  rw [contains, Bool.or_eq_true, List.contains_iff_mem]

/-- The names on a class path are as they are when they come onto another one. -/
theorem strip_of_mem_names (h : name ∈ (ofList names).names) : strip name = name := by
  obtain ⟨_, given, _, rfl⟩ := mem_names_ofList_iff.mp h
  exact strip_strip given

theorem contains_extended_iff :
    ((ofList names).extended more).contains name = true ↔
      (ofList names).contains name = true ∨ name ≠ "" ∧ ∃ given ∈ more, strip given = name := by
  have hmem : name ∈ ((ofList names).extended more).names ↔
      name ∈ (ofList names).names ∨ name ≠ "" ∧ ∃ given ∈ more, strip given = name := by
    rw [extended, mem_names_ofList_iff]
    simp only [List.mem_append, or_and_right, exists_or, and_or_left]
    refine or_congr_left ⟨?_, fun h => ?_⟩
    · rintro ⟨_, given, hgiven, rfl⟩
      rwa [strip_of_mem_names hgiven]
    · exact ⟨(mem_names_ofList_iff.mp h).1, name, h, strip_of_mem_names h⟩
  rw [contains_iff, contains_iff, hmem, or_right_comm]

theorem contains_withUnit_iff {unit : CompilationUnit} :
    ((ofList names).withUnit unit).contains name = true ↔
      (ofList names).contains name = true ∨ name ≠ "" ∧ ∃ decl ∈ unit.classes, strip decl.name = name := by
  rw [withUnit, contains_extended_iff]
  simp [CompilationUnit.classNames]

end ClassPath

/-- The name of a class is a name on any class path as it stands. -/
structure ClassDecl.HasPlainName (decl : ClassDecl) : Prop where
  nonempty : decl.name ≠ ""
  stripped : strip decl.name = decl.name

theorem ClassPath.contains_withUnit_iff_of_hasPlainName {unit : CompilationUnit} {names : List String} {name : String}
    (h : ∀ decl ∈ unit.classes, decl.HasPlainName) :
    ((ofList names).withUnit unit).contains name = true ↔
      (ofList names).contains name = true ∨ name ∈ unit.classNames := by
  rw [contains_withUnit_iff]
  refine or_congr_right ?_
  constructor
  · rintro ⟨_, decl, hdecl, rfl⟩
    rw [(h decl hdecl).stripped]
    exact List.mem_map_of_mem hdecl
  · intro hname
    obtain ⟨decl, hdecl, rfl⟩ := List.mem_map.mp hname
    exact ⟨(h decl hdecl).nonempty, decl, hdecl, (h decl hdecl).stripped⟩

end GuardedLogging
