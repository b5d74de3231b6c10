import GuardedLogging.Proofs.ClassPath
import GuardedLogging.Proofs.Transformation.Run
import GuardedLogging.Proofs.Transformation.Written

/-!
# What a class path decides

A run needs a class path only for its binding, and needs the binding only for the fields that it adds. So two runs over the same unit fail in the same way or report the same, and leave units that are alike but for the types that the new fields refer to; and these types differ only in whether they were found.
-/

namespace GuardedLogging

/-- What two runs under different bindings make of one class: the same class both times, or one class with a logger from either binding in front of as many fields as there were. -/
inductive ClassDecl.BecomesAlike (left right : FacadeBinding) (before : ClassDecl) : ClassDecl × ClassDecl → Prop
  | unchanged : BecomesAlike left right before (before, before)
  | logger (name : String) (after : ClassDecl) (hname : after.name = before.name)
      (hfields : after.fields.length = before.fields.length) :
      BecomesAlike left right before
        (after.addField (left.loggerField before name), after.addField (right.loggerField before name))

/-- A binding refers to the facade's types by name, and marks each as found if it is on the class path or, but for white space around the name, among the classes of the unit. -/
structure FacadeBinding.MarksWhatIsFound (binding : FacadeBinding) (classPath : ClassPath) (unit : CompilationUnit) :
    Prop where
  logger : binding.logger.name = Facade.loggerTypeName
  factory : binding.factory.name = Facade.factoryTypeName
  loggerFound : binding.logger.resolved = true ↔
    classPath.contains Facade.loggerTypeName = true ∨
      ∃ decl ∈ unit.classes, strip decl.name = Facade.loggerTypeName
  factoryFound : binding.factory.resolved = true ↔
    classPath.contains Facade.factoryTypeName = true ∨
      ∃ decl ∈ unit.classes, strip decl.name = Facade.factoryTypeName

theorem FacadeBinding.marksWhatIsFound_resolve (names : List String) (unit : CompilationUnit) :
    (resolve ((ClassPath.ofList names).withUnit unit)).MarksWhatIsFound (.ofList names) unit where
  logger := rfl
  factory := rfl
  loggerFound := ClassPath.contains_withUnit_iff.trans (or_congr_right (and_iff_right (by decide)))
  factoryFound := ClassPath.contains_withUnit_iff.trans (or_congr_right (and_iff_right (by decide)))

section TwoBindings

variable (left right : FacadeBinding) (skipSimple : Bool)

theorem ClassDecl.transform_two_bindings (decl : ClassDecl) :
    (∃ error, decl.transform left skipSimple = .error error ∧ decl.transform right skipSimple = .error error) ∨
      (decl.transform left skipSimple = .ok none ∧ decl.transform right skipSimple = .ok none) ∨
        ∃ outcome report, decl.BecomesAlike left right outcome ∧
          decl.transform left skipSimple = .ok (some (outcome.1, report)) ∧
            decl.transform right skipSimple = .ok (some (outcome.2, report)) := by
  cases hrequest : decl.request? with
  | none => exact .inr (.inl ⟨transform_eq_ok_none_iff.mpr hrequest, transform_eq_ok_none_iff.mpr hrequest⟩)
  | some mark =>
    cases haccept : decl.accept mark with
    | error cause =>
      have hrefused : decl.IsRefused ⟨decl.name, cause⟩ := ⟨mark, hrequest, accept_eq_error_iff.mp haccept, rfl⟩
      exact .inl ⟨_, transform_eq_error_iff.mpr hrefused, transform_eq_error_iff.mpr hrefused⟩
    | ok accepted =>
      obtain ⟨request, strategy⟩ := accepted
      let guarding : Guarding := ⟨request.fieldName, skipSimple⟩
      have htransform (binding : FacadeBinding) : decl.transform binding skipSimple =
          .ok (some (decl.withLogger binding guarding, decl.report guarding strategy)) :=
        transform_eq_ok_some_iff.mpr ⟨mark, request, strategy, hrequest, haccept, rfl, rfl⟩
      let after : ClassDecl :=
        { decl with
          fields := decl.fields.map guarding.guardField
          methods := decl.methods.map guarding.guardMethod
          annotations := decl.annotations.eraseP Annotation.isRequest }
      have halike : decl.BecomesAlike left right (decl.withLogger left guarding, decl.withLogger right guarding) :=
        .logger request.fieldName after rfl (List.length_map _)
      exact .inr (.inr ⟨_, _, halike, htransform left, htransform right⟩)

theorem ClassesOutcome.ofClasses_two_bindings (decls : List ClassDecl) :
    (ofClasses left skipSimple decls).error = (ofClasses right skipSimple decls).error ∧
      (ofClasses left skipSimple decls).reports = (ofClasses right skipSimple decls).reports ∧
        ∃ outcomes, List.Forall₂ (ClassDecl.BecomesAlike left right) decls outcomes ∧
          (ofClasses left skipSimple decls).classes = outcomes.map (·.1) ∧
            (ofClasses right skipSimple decls).classes = outcomes.map (·.2) := by
  induction decls with
  | nil => exact ⟨rfl, rfl, [], .nil, rfl, rfl⟩
  | cons decl rest ih =>
    obtain ⟨herror, hreports, outcomes, halike, hleft, hright⟩ := ih
    rcases decl.transform_two_bindings left right skipSimple with
      ⟨error, hl, hr⟩ | ⟨hl, hr⟩ | ⟨outcome, report, houtcome, hl, hr⟩
    · -- The class is refused, so it and the others are left as they are.
      simp only [ofClasses_cons_eq, hl, hr, true_and]
      refine ⟨(decl :: rest).map fun decl => (decl, decl), ?_, ?_, ?_⟩
      · exact List.forall₂_map_right_iff.mpr (List.forall₂_same.mpr fun _ _ => .unchanged)
      · rw [List.map_map]
        exact (List.map_id _).symm
      · rw [List.map_map]
        exact (List.map_id _).symm
    · simp only [ofClasses_cons_eq, hl, hr]
      exact ⟨herror, hreports, (decl, decl) :: outcomes, .cons .unchanged halike,
        congrArg (decl :: ·) hleft, congrArg (decl :: ·) hright⟩
    · simp only [ofClasses_cons_eq, hl, hr]
      exact ⟨herror, congrArg (report :: ·) hreports, outcome :: outcomes, .cons houtcome halike,
        congrArg (outcome.1 :: ·) hleft, congrArg (outcome.2 :: ·) hright⟩

end TwoBindings

/-- What a run reports, or why it fails, does not depend on the binding or on the class path. -/
theorem CompilationUnit.result_transform_eq (unit : CompilationUnit) (state other : BindingState)
    (classPath otherPath : ClassPath) (skipSimple : Bool) :
    (unit.transform state classPath skipSimple).result = (unit.transform other otherPath skipSimple).result := by
  obtain ⟨herror, hreports, _⟩ := ClassesOutcome.ofClasses_two_bindings
    (state.settle (classPath.withUnit unit)) (other.settle (otherPath.withUnit unit)) skipSimple unit.classes
  simp only [transform, herror, hreports]

/-- The class path decides only which types are marked as found: two runs over one unit, each with a binding of its own, fail alike or report alike and leave the same unit, but for the types of the new fields; and a binding marks what is on its class path or, but for white space around the name, among the classes of the unit. -/
theorem class_path_decides_found_types_only (unit : CompilationUnit) (skipSimple : Bool)
    (leftNames rightNames : List String) :
    let left := unit.transform none (.ofList leftNames) skipSimple
    let right := unit.transform none (.ofList rightNames) skipSimple
    left.result = right.result ∧
      (∃ outcomes, List.Forall₂ (ClassDecl.BecomesAlike left.binding right.binding) unit.classes outcomes ∧
        left.unit = { unit with classes := outcomes.map (·.1) } ∧
          right.unit = { unit with classes := outcomes.map (·.2) }) ∧
      left.binding.MarksWhatIsFound (.ofList leftNames) unit ∧
        right.binding.MarksWhatIsFound (.ofList rightNames) unit := by
  intro left right
  obtain ⟨_, _, outcomes, halike, hleft, hright⟩ := ClassesOutcome.ofClasses_two_bindings
    left.binding right.binding skipSimple unit.classes
  refine ⟨unit.result_transform_eq none none _ _ skipSimple, ⟨outcomes, halike, ?_, ?_⟩, ?_, ?_⟩
  · exact congrArg (fun classes => { unit with classes }) hleft
  · exact congrArg (fun classes => { unit with classes }) hright
  · exact FacadeBinding.marksWhatIsFound_resolve leftNames unit
  · exact FacadeBinding.marksWhatIsFound_resolve rightNames unit

/-- A class with the name of the facade's logger type behind a space. -/
def ClassDecl.paddedClass : ClassDecl :=
  { name := " " ++ Facade.loggerTypeName, annotations := [{ name := "Commons" }] }

def CompilationUnit.paddedUnit : CompilationUnit := { name := .text "Script", classes := [ClassDecl.paddedClass] }

open CompilationUnit in
/-- The logger's type is marked as found there, although the class path is empty and no class has the type's name. -/
theorem padded_class_name_counts_as_logger_type :
    let run := paddedUnit.transform none (.ofList []) false
    (∃ report, run.result = .ok report) ∧
      (∃ decl ∈ run.unit.classes, ∃ field ∈ decl.fields, field.type = some ⟨Facade.loggerTypeName, true⟩) ∧
        ¬ ((ClassPath.ofList []).contains Facade.loggerTypeName = true ∨
          Facade.loggerTypeName ∈ paddedUnit.classNames) := by
  intro run
  have hrun := ClassesOutcome.ofClasses_of_commons (rfl : ClassDecl.paddedClass.request? = _) rfl run.binding
  have hclasses : run.unit.classes = [ClassDecl.paddedClass.withLogger run.binding _] :=
    congrArg ClassesOutcome.classes hrun
  have hfound : run.binding.logger.resolved = true := by
    have hmarks := FacadeBinding.marksWhatIsFound_resolve [] paddedUnit
    exact hmarks.loggerFound.mpr (.inr ⟨_, List.mem_cons_self, by decide +kernel⟩)
  refine ⟨⟨_, result_transform_of_ofClasses hrun⟩, ?_, ?_⟩
  · refine ⟨_, hclasses ▸ List.mem_cons_self, _, List.mem_cons_self, ?_⟩
    exact congrArg (fun found => some (TypeRef.mk Facade.loggerTypeName found)) hfound
  · rintro (hpath | hname)
    · revert hpath
      decide +kernel
    · revert hname
      decide

end GuardedLogging
