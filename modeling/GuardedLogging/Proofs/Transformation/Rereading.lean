import GuardedLogging.Proofs.CompilationUnit.Collisions
import GuardedLogging.Proofs.CompilationUnit.Signs
import GuardedLogging.Proofs.Transformation.TypeNames

/-!
# Which transformed units are read

The text of a transformed unit is read under three conditions. The loggers have names that a source can say, no number is written with a sign, and no statement that ends in a variable stands in front of one that starts with a parenthesis. Where it is read, each class that got a logger has the field for it in front of its other fields.
-/

namespace GuardedLogging

/-- The field is that of a logger: nothing outside the class sees it, the class has one of it, and it is never set again nor stored. -/
structure Field.IsLogger (name : String) (field : Field) : Prop where
  name : field.name = name
  modifiers : field.modifiers = .ofList [.privateAccess, .staticMember, .finalMember, .transientMember]
  type : field.type.map (·.name) = some "org.apache.commons.logging.Log"

namespace CompilationUnit

variable {unit parsed reread : CompilationUnit} {indent : String} {state : BindingState}
  {classPath : ClassPath} {skipSimple : Bool} {report : UnitReport}

/-- A unit that can be written is read back, as itself or not, if and only if none of its numbers has a sign and no two of its statements collide. -/
theorem IsWritten.exists_readBack_iff (hindent : IsIndent indent)
    (h : unit.IsWritten (TypeRef.IsSaid unit.classNames) (Expr.IsWritten unit.classNames)) :
    (∃ reread, unit.readBack indent = .ok reread) ↔ unit.HasNoSigns ∧ unit.CollidesNone := by
  constructor
  · rintro ⟨reread, hread⟩
    obtain ⟨list, htokenize, _, htokens⟩ := exists_tokenize_of_parse hread
    have hlexemes := h.lexemes_of_tokenize hindent htokenize
    have hcut : Scan.Cut (unit.toSource indent).toList unit.lexemes :=
      hlexemes ▸ Scan.cut_of_tokensFrom htokenize
    exact ⟨hasNoSigns_of_cut hcut,
      h.keepsApart_joined_iff.mp (keepsApart_joined_of_ofTokens h hlexemes htokens)⟩
  · rintro ⟨hsigns, hnone⟩
    obtain ⟨list, htokenize, hlexemes⟩ := h.exists_tokenize hindent hsigns
    have hapart := h.keepsApart_joined_iff.mpr hnone
    exact ⟨_, (readBack_eq_ofTokens htokenize).trans (ofTokens_eq_reread_joined h hapart hlexemes)⟩

theorem isWritten_of_readBack (hparsed : parsed.IsWritten TypeRef.IsParsed Expr.IsParsed)
    (hstate : ∀ binding ∈ state, binding.IsResolved)
    (hresult : (parsed.transform state classPath skipSimple).result = .ok report) (hindent : IsIndent indent)
    (hunit : (parsed.transform state classPath skipSimple).unit = unit)
    (hread : unit.readBack indent = .ok reread) :
    unit.IsWritten (TypeRef.IsSaid unit.classNames) (Expr.IsWritten unit.classNames) := by
  have hbecomes : parsed.Becomes unit := hunit ▸ .transformed state classPath skipSimple report hstate hresult
  exact (hbecomes.isWritten_or hparsed).resolve_right fun hbroken =>
    hbroken.readBack_ne_ok hindent reread hread

theorem isName_of_isWritten {types : TypeRef → Prop} {exprs : Expr → Prop}
    (hresult : (parsed.transform state classPath skipSimple).result = .ok report)
    (h : (parsed.transform state classPath skipSimple).unit.IsWritten types exprs) :
    ∀ entry ∈ report.classes, isName entry.fieldName = true := by
  intro entry hentry
  obtain ⟨decl, _, changed, hchanged, htransform⟩ := exists_transform_of_mem_report hresult hentry
  obtain ⟨_, _, _, _, _, rfl, rfl⟩ := ClassDecl.transform_eq_ok_some_iff.mp htransform
  exact ((h.classes _ hchanged).fields _ List.mem_cons_self).name

theorem name_reread_logger {binding : FacadeBinding} (hbinding : binding.IsResolved) {types : TypeRef → Prop}
    {exprs : Expr → Prop} (h : unit.IsWritten types exprs) {words : List String}
    (hwords : unit.simpleNames ⊆ words) :
    (binding.logger.reread ⟨unit.packageName, [], words⟩ unit.classNames).name
      = "org.apache.commons.logging.Log" := by
  have hname : binding.logger.name = "org.apache.commons.logging.Log" := by
    obtain ⟨classPath, rfl⟩ := hbinding
    rfl
  -- Its name has dots and is no name of the language, so nothing in the text can be mistaken for it.
  have hmistaken : binding.logger.IsUnmistaken unit.packageName words := by
    have hdot : '.' ∈ binding.logger.name.toList := by
      rw [hname]
      decide
    refine ⟨fun hlanguage => ?_, absurd hdot, absurd hdot⟩
    rw [hname] at hlanguage
    exact absurd hlanguage (by decide)
  rw [← hname, classNames_eq h]
  exact (TypeRef.qualify_toSource_eq_iff (isName_of_mem_simpleNames h) hwords).mpr (.inr hmistaken)

end CompilationUnit

open CompilationUnit in
/-- The text of a transformed unit is read if and only if the loggers have names that a source can say, no number is written with a sign and no two statements collide. What is read then has each transformed class, with the field of the logger that is reported in front. -/
theorem transformed_units_are_read_iff (source : String) (name : Scalar) (parsed : CompilationUnit)
    (state : BindingState) (classPath : ClassPath) (skipSimple : Bool) (report : UnitReport) (indent : String)
    (hparse : parse source name = .ok parsed) (hstate : ∀ binding ∈ state, binding.IsResolved)
    (hresult : (parsed.transform state classPath skipSimple).result = .ok report) (hindent : IsIndent indent) :
    let unit := (parsed.transform state classPath skipSimple).unit
    ((∃ reread, unit.readBack indent = .ok reread) ↔
      (∀ entry ∈ report.classes, isName entry.fieldName = true) ∧ unit.HasNoSigns ∧ unit.CollidesNone) ∧
    ∀ reread, unit.readBack indent = .ok reread → ∀ entry ∈ report.classes,
      ∃ decl ∈ reread.classes, decl.name = entry.className ∧
        ∃ field ∈ decl.fields.head?, field.IsLogger entry.fieldName := by
  intro unit
  have hparsed := isParsed_of_parse hparse
  have hwritten := fun reread => @isWritten_of_readBack unit parsed reread indent state classPath skipSimple
    report hparsed hstate hresult hindent rfl
  constructor
  · constructor
    · rintro ⟨reread, hread⟩
      have hsaid := hwritten reread hread
      exact ⟨isName_of_isWritten hresult hsaid, (hsaid.exists_readBack_iff hindent).mp ⟨reread, hread⟩⟩
    · rintro ⟨hnames, hrest⟩
      have hsaid := (isWritten_transform hstate (isWritten_of_isParsed hparsed) hresult hnames).isSaid
      exact (hsaid.exists_readBack_iff hindent).mpr hrest
  · intro reread hread entry hentry
    have hsaid := hwritten reread hread
    obtain ⟨decl, _, changed, hchanged, htransform⟩ := exists_transform_of_mem_report hresult hentry
    obtain ⟨_, _, _, _, _, rfl, rfl⟩ := ClassDecl.transform_eq_ok_some_iff.mp htransform
    -- What is read is the unit with its statements joined and its names looked up, class by class.
    rw [hsaid.eq_reread hindent hread]
    refine ⟨_, List.mem_map_of_mem (List.mem_map_of_mem hchanged), rfl, _, rfl, rfl, rfl, ?_⟩
    have hbinding := state.isResolved_settle hstate (classPath.withUnit parsed)
    have hwords := hsaid.simpleNames_subset hindent hread
    rw [classNames_joined]
    exact congrArg some (name_reread_logger hbinding hsaid hwords)

open CompilationUnit in
theorem sampleUnit_is_read_with_its_logger :
    let unit := (sampleUnit.transform none .empty false).unit
    let entry := ClassDecl.packagedService.report ⟨LoggerRequest.defaultFieldName, false⟩ Strategy.commonsName
    parse sampleUnit.toSource sampleUnit.name = .ok sampleUnit ∧ IsIndent defaultIndent ∧
      (sampleUnit.transform none .empty false).result = .ok ⟨sampleUnit.name, [entry]⟩ ∧
        ∃ reread, unit.readBack defaultIndent = .ok reread ∧
          ∃ decl ∈ reread.classes, decl.name = "demo.Service" ∧
            ∃ field ∈ decl.fields.head?, field.IsLogger LoggerRequest.defaultFieldName := by
  intro unit entry
  have hindent : IsIndent defaultIndent := by decide +kernel
  have hresult : (sampleUnit.transform none .empty false).result = .ok ⟨sampleUnit.name, [entry]⟩ :=
    result_transform_of_ofClasses (ClassesOutcome.ofClasses_of_commons rfl rfl _)
  obtain ⟨hiff, hlogger⟩ := transformed_units_are_read_iff _ _ _ none .empty false _ defaultIndent
    parse_sampleUnit nofun hresult hindent
  have hname : isName LoggerRequest.defaultFieldName = true := by decide
  have hsigns : unit.HasNoSigns := ⟨by decide +kernel, by decide +kernel⟩
  have hnone : unit.CollidesNone := by decide +kernel
  obtain ⟨reread, hread⟩ := hiff.mpr ⟨List.forall_mem_singleton.mpr hname, hsigns, hnone⟩
  exact ⟨parse_sampleUnit, hindent, hresult, reread, hread, hlogger reread hread entry List.mem_cons_self⟩

namespace CompilationUnit

/-- A class that asks for a logger named with a keyword. -/
def keywordUnit : CompilationUnit :=
  let mark : Annotation := { name := "Commons", members := [("value", .text "class")] }
  { name := .text defaultName, classes := [{ name := "A", annotations := [mark] }] }

theorem parse_keywordUnit : parse "@Commons(\"class\") class A \x7b \x7d" = .ok keywordUnit := by
  decide +kernel

theorem transform_keywordUnit :
    ∃ entry : ClassReport, entry.fieldName = "class" ∧
      (keywordUnit.transform none .empty false).result = .ok ⟨keywordUnit.name, [entry]⟩ := by
  let mark : Annotation := { name := "Commons", members := [("value", .text "class")] }
  let decl : ClassDecl := { name := "A", annotations := [mark] }
  let binding := BindingState.settle none (ClassPath.withUnit .empty keywordUnit)
  have haccept : decl.accept mark = .ok (⟨"class", LoggerRequest.defaultStrategy⟩, Strategy.commonsName) :=
    ClassDecl.accept_eq_ok_iff.mpr ⟨LoggerRequest.ofMark_named rfl (by decide), rfl, rfl⟩
  have htransform : decl.transform binding false = .ok (some (decl.withLogger binding ⟨"class", false⟩,
      decl.report ⟨"class", false⟩ Strategy.commonsName)) :=
    ClassDecl.transform_eq_ok_some_iff.mpr ⟨_, _, _, rfl, haccept, rfl, rfl⟩
  have hrun : ClassesOutcome.ofClasses binding false keywordUnit.classes
      = ⟨[decl.withLogger binding ⟨"class", false⟩],
        [decl.report ⟨"class", false⟩ Strategy.commonsName], none⟩ :=
    ClassesOutcome.ofClasses_singleton htransform
  exact ⟨_, rfl, result_transform_of_ofClasses hrun⟩

end CompilationUnit

open CompilationUnit in
/-- A keyword is accepted for the name of a logger, and the text of the transformed unit is not read. -/
theorem logger_named_with_keyword_is_not_read :
    parse "@Commons(\"class\") class A \x7b \x7d" = .ok keywordUnit ∧
      (∃ report, (keywordUnit.transform none .empty false).result = .ok report) ∧
        ∀ reread, (keywordUnit.transform none .empty false).unit.readBack ≠ .ok reread := by
  have hindent : IsIndent defaultIndent := by decide +kernel
  obtain ⟨entry, hname, hresult⟩ := transform_keywordUnit
  refine ⟨parse_keywordUnit, ⟨_, hresult⟩, fun reread hread => ?_⟩
  have hstate : ∀ binding ∈ (none : BindingState), binding.IsResolved := nofun
  have hwritten := isWritten_of_readBack (isParsed_of_parse parse_keywordUnit) hstate hresult hindent rfl hread
  have hkeyword := isName_of_isWritten hresult hwritten entry List.mem_cons_self
  rw [hname] at hkeyword
  exact absurd hkeyword (by decide)

end GuardedLogging
