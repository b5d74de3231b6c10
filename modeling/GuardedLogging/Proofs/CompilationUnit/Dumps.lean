import Mathlib.Data.List.Basic
import GuardedLogging.Document.Equality
import GuardedLogging.Exchange
import GuardedLogging.Proofs.CompilationUnit.SortedDocuments
import GuardedLogging.Proofs.General.Joined
import GuardedLogging.Proofs.Transformation.Documents

/-!
# The text of a dumped unit

A dump orders the members of annotations, and the text of a unit shows them as they are ordered. Nothing else changes, and an annotation keeps the length of its text; so the text of the unit that is read from the dump is the same exactly if each annotation already had its members in order.
-/

namespace GuardedLogging

/-! ### Annotations -/

namespace Annotation

variable {mark : Annotation}

/-- The members stand in the order of their names. -/
def HasOrderedMembers (mark : Annotation) : Prop :=
  mark.members.Pairwise fun left right => left.1 ≤ right.1

instance : Decidable mark.HasOrderedMembers :=
  inferInstanceAs (Decidable (mark.members.Pairwise fun left right => left.1 ≤ right.1))

theorem members_ordered_perm (mark : Annotation) : mark.ordered.members.Perm mark.members :=
  List.mergeSort_perm _ _

theorem hasOrderedMembers_ordered (mark : Annotation) : mark.ordered.HasOrderedMembers := by
  refine (List.pairwise_mergeSort ?_ ?_ mark.members).imp of_decide_eq_true
  · intro first second third hfirst hsecond
    exact decide_eq_true (String.le_trans (of_decide_eq_true hfirst) (of_decide_eq_true hsecond))
  · intro left right
    rw [Bool.or_eq_true, decide_eq_true_iff, decide_eq_true_iff]
    exact String.le_total left.1 right.1

theorem HasOrderedMembers.ordered_eq (h : mark.HasOrderedMembers) : mark.ordered = mark := by
  rw [ordered, List.mergeSort_of_pairwise (h.imp decide_eq_true)]

theorem hasOrderedMembers_of_length_le (h : mark.members.length ≤ 1) : mark.HasOrderedMembers := by
  unfold HasOrderedMembers
  cases hmembers : mark.members with
  | nil => exact .nil
  | cons member rest =>
    rw [hmembers, List.length_cons] at h
    rw [List.eq_nil_of_length_eq_zero (by omega : rest.length = 0)]
    exact List.pairwise_singleton _ _

theorem toSource_of_two_le (h : 2 ≤ mark.members.length) :
    mark.toSource = "@" ++ mark.name ++ "(" ++ ", ".intercalate (mark.members.map memberToSource) ++ ")" := by
  unfold toSource
  split
  · rename_i hmembers
    rw [hmembers] at h
    simp at h
  · rename_i value hmembers
    rw [hmembers] at h
    simp at h
  · rfl

theorem toSource_ordered_of_two_le (h : 2 ≤ mark.members.length) :
    mark.ordered.toSource
      = "@" ++ mark.name ++ "(" ++ ", ".intercalate (mark.ordered.members.map memberToSource) ++ ")" := by
  refine toSource_of_two_le ?_
  rw [mark.members_ordered_perm.length_eq]
  exact h

theorem length_toSource_ordered (mark : Annotation) : mark.ordered.toSource.length = mark.toSource.length := by
  by_cases h : 2 ≤ mark.members.length
  · have hjoined : (", ".intercalate (mark.ordered.members.map memberToSource)).length
        = (", ".intercalate (mark.members.map memberToSource)).length := by
      rw [← String.length_toList, ← String.length_toList, String.toList_intercalate, String.toList_intercalate]
      exact length_intercalate_of_perm ((mark.members_ordered_perm.map memberToSource).map String.toList)
    rw [toSource_of_two_le h, toSource_ordered_of_two_le h]
    simp only [String.length_append, hjoined]
  · rw [(hasOrderedMembers_of_length_le (by omega)).ordered_eq]

/-- Members in two orders have the same text only if the orders are the same: the text up to the first blank is the name of the first member. -/
theorem eq_of_memberTexts_eq {left right : List (String × Scalar)} (hperm : left.Perm right)
    (hnames : ∀ member ∈ left, ' ' ∉ member.1.toList) (hdistinct : (left.map Prod.fst).Nodup)
    (h : (left.flatMap fun member => ", ".toList ++ (memberToSource member).toList)
      = right.flatMap fun member => ", ".toList ++ (memberToSource member).toList) : left = right := by
  induction left generalizing right with
  | nil => exact hperm.nil_eq
  | cons first rest ih =>
    cases right with
    | nil => exact absurd hperm.symm.nil_eq (List.cons_ne_nil _ _).symm
    | cons other others =>
      have hother : other ∈ first :: rest := hperm.mem_iff.mpr List.mem_cons_self
      have hname : first.1 = other.1 := by
        simp only [List.flatMap_cons, memberToSource, String.toList_append, List.append_assoc,
          List.append_cancel_left_eq] at h
        exact String.toList_inj.mp
          (eq_of_append_cons_eq (hnames first List.mem_cons_self) (hnames other hother) h)
      have hsame : other = first := List.inj_on_of_nodup_map hdistinct hother List.mem_cons_self hname.symm
      subst hsame
      rw [List.flatMap_cons, List.flatMap_cons] at h
      rw [ih hperm.cons_inv (List.forall_mem_cons.mp hnames).2 (List.nodup_cons.mp hdistinct).2 (List.append_cancel_left h)]

/-- The texts of members are told apart behind the same separator, also behind the one that the first of them lacks. -/
theorem eq_of_intercalate_members_eq {left right : List (String × Scalar)} (hperm : left.Perm right)
    (hnames : ∀ member ∈ left, ' ' ∉ member.1.toList) (hdistinct : (left.map Prod.fst).Nodup)
    (h : ", ".intercalate (left.map memberToSource) = ", ".intercalate (right.map memberToSource)) : left = right := by
  cases left with
  | nil => exact hperm.nil_eq
  | cons first rest =>
    cases right with
    | nil => exact hperm.eq_nil
    | cons other others =>
      refine eq_of_memberTexts_eq hperm hnames hdistinct ?_
      have hlists := congrArg String.toList h
      rw [List.map_cons, List.map_cons, toList_intercalate_cons, toList_intercalate_cons, List.flatMap_map,
        List.flatMap_map] at hlists
      rw [List.flatMap_cons, List.flatMap_cons, List.append_assoc, List.append_assoc, hlists]

theorem toSource_ordered_eq_iff (h : mark.IsWritten) :
    mark.ordered.toSource = mark.toSource ↔ mark.HasOrderedMembers := by
  constructor
  · intro htext
    by_cases hlength : 2 ≤ mark.members.length
    · rw [toSource_of_two_le hlength, toSource_ordered_of_two_le hlength, String.append_left_inj,
        String.append_right_inj] at htext
      have hnames : ∀ member ∈ mark.members, ' ' ∉ member.1.toList := fun member hmember hblank =>
        absurd (isWordPart_of_mem (isWord_of_isName (h.members member hmember).1) hblank) (by decide)
      have hmembers : mark.members = mark.ordered.members :=
        eq_of_intercalate_members_eq mark.members_ordered_perm.symm hnames h.distinct htext.symm
      rw [HasOrderedMembers, hmembers]
      exact mark.hasOrderedMembers_ordered
    · exact hasOrderedMembers_of_length_le (by omega)
  · intro hordered
    rw [hordered.ordered_eq]

end Annotation

/-! ### Classes and units -/

namespace ClassDecl

variable {decl : ClassDecl} {localTypes : List String} {indent : String}

/-- The annotations come first, and nothing behind them depends on them. -/
theorem sourceLines_eq_append (decl : ClassDecl) (localTypes : List String) (indent : String) :
    decl.sourceLines localTypes indent
      = decl.annotations.map Annotation.toSource ++ { decl with annotations := [] }.sourceLines localTypes indent := by
  simp only [sourceLines, List.append_assoc, List.map_nil, List.nil_append]
  rfl

theorem sourceLines_ordered (decl : ClassDecl) (localTypes : List String) (indent : String) :
    decl.ordered.sourceLines localTypes indent
      = decl.annotations.map (fun mark => mark.ordered.toSource)
        ++ { decl with annotations := [] }.sourceLines localTypes indent := by
  rw [sourceLines_eq_append, ordered, List.map_map]
  rfl

theorem map_length_sourceLines_ordered (decl : ClassDecl) (localTypes : List String) (indent : String) :
    (decl.ordered.sourceLines localTypes indent).map String.length
      = (decl.sourceLines localTypes indent).map String.length := by
  rw [sourceLines_ordered, sourceLines_eq_append decl, List.map_append, List.map_append, List.map_map, List.map_map]
  exact congrArg (· ++ _) (List.map_congr_left fun mark _ => mark.length_toSource_ordered)

theorem sourceLines_ordered_eq_iff : decl.ordered.sourceLines localTypes indent = decl.sourceLines localTypes indent ↔
    ∀ mark ∈ decl.annotations, mark.ordered.toSource = mark.toSource := by
  rw [sourceLines_ordered, sourceLines_eq_append decl, List.append_cancel_right_eq, List.map_inj_left]

end ClassDecl

namespace CompilationUnit

variable {unit : CompilationUnit} {indent : String}

theorem classNames_ordered (unit : CompilationUnit) : unit.ordered.classNames = unit.classNames := by
  rw [classNames, ordered, List.map_map]
  rfl

theorem sourceLines_ordered (unit : CompilationUnit) (indent : String) :
    unit.ordered.sourceLines indent
      = (if unit.package.isTrue then ["package " ++ unit.package.plain, ""] else [])
        ++ [""].intercalate (unit.classes.map fun decl => decl.ordered.sourceLines unit.classNames indent) := by
  rw [sourceLines, classNames_ordered, ordered, List.map_map]
  rfl

theorem map_length_sourceLines_ordered (unit : CompilationUnit) (indent : String) :
    (unit.ordered.sourceLines indent).map String.length = (unit.sourceLines indent).map String.length := by
  have hclasses : (unit.classes.map fun decl => (decl.ordered.sourceLines unit.classNames indent).map String.length)
      = unit.classes.map fun decl => (decl.sourceLines unit.classNames indent).map String.length :=
    List.map_congr_left fun decl _ => decl.map_length_sourceLines_ordered unit.classNames indent
  rw [sourceLines_ordered, sourceLines, List.map_append, List.map_append, map_intercalate, map_intercalate,
    List.map_map, List.map_map]
  exact congrArg (_ ++ List.intercalate _ ·) hclasses

theorem sourceLines_ordered_eq_iff : unit.ordered.sourceLines indent = unit.sourceLines indent ↔
    ∀ decl ∈ unit.classes, ∀ mark ∈ decl.annotations, mark.ordered.toSource = mark.toSource := by
  rw [sourceLines_ordered, sourceLines]
  constructor
  · intro h
    have hclasses := eq_of_intercalate_eq ?_ (List.append_cancel_left h)
    · intro decl hdecl
      exact ClassDecl.sourceLines_ordered_eq_iff.mp (List.map_inj_left.mp hclasses decl hdecl)
    · rw [List.map_map, List.map_map]
      refine List.map_congr_left fun decl _ => ?_
      simpa using congrArg List.length (decl.map_length_sourceLines_ordered unit.classNames indent)
  · intro h
    rw [List.map_congr_left fun decl hdecl => ClassDecl.sourceLines_ordered_eq_iff.mpr (h decl hdecl)]

theorem toSource_ordered_eq_iff : unit.ordered.toSource indent = unit.toSource indent ↔
    ∀ decl ∈ unit.classes, ∀ mark ∈ decl.annotations, mark.ordered.toSource = mark.toSource := by
  rw [← sourceLines_ordered_eq_iff, toSource, toSource, String.append_left_inj]
  constructor
  · exact texts_eq_of_intercalate_eq (unit.map_length_sourceLines_ordered indent)
  · intro h
    rw [h]

/-- The members of every annotation stand in the order of their names. -/
def HasOrderedMembers (unit : CompilationUnit) : Prop :=
  ∀ decl ∈ unit.classes, ∀ mark ∈ decl.annotations, mark.HasOrderedMembers

instance : Decidable unit.HasOrderedMembers :=
  inferInstanceAs (Decidable (∀ decl ∈ unit.classes, ∀ mark ∈ decl.annotations, mark.HasOrderedMembers))

theorem isComplete_ordered (unit : CompilationUnit) : unit.ordered.isComplete = unit.isComplete := by
  rw [isComplete, isComplete, ordered, List.all_map]
  rfl

/-- What a JSON reader that gives back the written document makes of a dump. -/
theorem ofJson_toJson (hfields : unit.OwnsFields)
    (hjson : Document.ofJson? unit.toDocument.sorted.toJson = some unit.toDocument.sorted) :
    ofJson unit.toJson = .ok unit.ordered := by
  simp only [ofJson, toJson, hjson, ofDocument_sorted hfields]
  rfl

end CompilationUnit

open CompilationUnit in
/-- The unit that is read from the dump of a parsed unit has the same text exactly if every annotation of the source has its members in the order of their names. -/
theorem dumps_keep_the_text_iff (source : String) (name : Scalar) (indent : String) (unit : CompilationUnit)
    (hparse : parse source name = .ok unit)
    (hjson : Document.ofJson? unit.toDocument.sorted.toJson = some unit.toDocument.sorted) :
    ∃ loaded text later, ofJson unit.toJson = .ok loaded ∧ unit.toSource? indent = some text ∧
      loaded.toSource? indent = some later ∧ (later = text ↔ unit.HasOrderedMembers) := by
  have hwritten := isParsed_of_parse hparse
  refine ⟨unit.ordered, _, _, ofJson_toJson (IsGiven.source source name hparse).ownsFields hjson,
    hwritten.isWellFormed.toSource?_eq indent, if_pos ?_, ?_⟩
  · rw [isComplete_ordered]
    exact hwritten.isWellFormed.isComplete
  · rw [toSource_ordered_eq_iff]
    refine forall₂_congr fun decl hdecl => forall₂_congr fun mark hmark => ?_
    exact Annotation.toSource_ordered_eq_iff ((hwritten.classes decl hdecl).annotations mark hmark)

namespace CompilationUnit

def orderedMembers : List (String × Scalar) := [("loggingStrategy", .text "commons"), ("value", .text "logger")]

/-- A unit with one class, which is marked with the given members. -/
def markedUnit (members : List (String × Scalar)) : CompilationUnit :=
  { name := .text "Script", classes := [{ name := "A", annotations := [⟨"Commons", members⟩] }] }

/-- The document that is written for the marked unit, however its two members are ordered. -/
def markedDocument : Document :=
  let members : Document := .record [("loggingStrategy", .text "commons"), ("value", .text "logger")]
  let mark : Document := .record [("members", members), ("name", .text "Commons")]
  let decl : Document := .record [("annotations", .list [mark]), ("fields", .list []), ("methods", .list []),
    ("modifiers", .list []), ("name", .text "A")]
  .record [("classes", .list [decl]), ("name", .text "Script"), ("package", .text "")]

open Document in
theorem sorted_markedUnit {members : List (String × Scalar)}
    (h : members = orderedMembers ∨ members = orderedMembers.reverse) :
    (markedUnit members).toDocument.sorted = markedDocument := by
  rcases h with rfl | rfl <;>
  · simp [markedUnit, orderedMembers, toDocument, ClassDecl.toDocument, Annotation.toDocument, sorted_record,
      sortEntries, List.mergeSort, Key.plain, Scalar.plain, Modifiers.sorted_toDocument]
    rfl

theorem ofJson_toJson_markedDocument : Document.ofJson? markedDocument.toJson = some markedDocument := by
  decide +kernel

end CompilationUnit

open CompilationUnit in
theorem orderedMembers_keep_the_text :
    let source := "@Commons(loggingStrategy = \"commons\", value = \"logger\") class A \x7b \x7d"
    parse source (.text "Script") = .ok (markedUnit orderedMembers) ∧
      ∃ loaded text, ofJson (markedUnit orderedMembers).toJson = .ok loaded ∧
        (markedUnit orderedMembers).toSource? = some text ∧ loaded.toSource? = some text := by
  intro source
  have hparse : parse source (.text "Script") = .ok (markedUnit orderedMembers) := by decide +kernel
  have hsorted := sorted_markedUnit (.inl rfl)
  obtain ⟨loaded, text, later, hloaded, htext, hlater, hsame⟩ :=
    dumps_keep_the_text_iff source _ defaultIndent _ hparse (hsorted ▸ ofJson_toJson_markedDocument)
  have hordered : (markedUnit orderedMembers).HasOrderedMembers := by decide
  exact ⟨hparse, loaded, text, hloaded, htext, hsame.mpr hordered ▸ hlater⟩

open CompilationUnit in
theorem reversed_members_change_the_text :
    let source := "@Commons(value = \"logger\", loggingStrategy = \"commons\") class A \x7b \x7d"
    let unit := markedUnit orderedMembers.reverse
    parse source (.text "Script") = .ok unit ∧
      Document.ofJson? unit.toDocument.sorted.toJson = some unit.toDocument.sorted ∧
      ∃ loaded text later, ofJson unit.toJson = .ok loaded ∧ unit.toSource? = some text ∧
        loaded.toSource? = some later ∧ later ≠ text := by
  intro source unit
  have hjson : Document.ofJson? unit.toDocument.sorted.toJson = some unit.toDocument.sorted := by
    rw [sorted_markedUnit (.inr rfl), ofJson_toJson_markedDocument]
  have hloaded : ofJson unit.toJson = .ok unit.ordered :=
    ofJson_toJson (List.forall_mem_singleton.mpr (List.forall_mem_nil _)) hjson
  have hordered : unit.ordered = markedUnit orderedMembers := by
    simp [unit, markedUnit, orderedMembers, ordered, ClassDecl.ordered, Annotation.ordered, List.mergeSort]
  rw [hordered] at hloaded
  exact ⟨by decide +kernel, hjson, _, _, _, hloaded, rfl, rfl, by decide +kernel⟩

end GuardedLogging
