import GuardedLogging.Evaluation
import GuardedLogging.Proofs.Audit.TypeReferences

/-!
# A facade that is missing

A run does not ask whether the facade is there. Type checking does, since a class with its logger refers to both types of the facade; and loading such a class needs the factory before anything else, since the logger stands in front of the other fields.
-/

namespace GuardedLogging

open Facade

/-- Where the types lack the factory, loading the class fails for that and does nothing but make the class known: the world is asked nothing, and whatever stands behind the first field does not matter. -/
def ClassDecl.NeedsFactoryFirst (decl : ClassDecl) : Prop :=
  ∀ {Object State Event : Type} (world : World Object State Event) (start : Situation Object State),
    start.types.find? factoryTypeName = none →
      decl.load world start = ⟨.error (.unresolvedType factoryTypeName), decl.register start, []⟩ ∧
        ∀ later : List Field, ({ decl with fields := decl.fields.take 1 ++ later } : ClassDecl).load world start
          = ⟨.error (.unresolvedType factoryTypeName), decl.register start, []⟩

namespace ClassDecl

variable {decl : ClassDecl} {binding : FacadeBinding}

section Load

variable {Object State Event : Type} (world : World Object State Event) {start : Situation Object State}

theorem start_loggerField (names : Names Object) (name : String)
    (hmissing : start.types.find? binding.factory.name = none) :
    (binding.loggerField decl name).start world names start
      = ⟨.error (.unresolvedType binding.factory.name), start, []⟩ := by
  show ((Expr.classRef binding.factory).evaluate world names >>= _) start = _
  simp only [Expr.evaluate, bind_assoc, Run.read_bind_apply, hmissing]
  rfl

theorem load_of_loggerField (decl : ClassDecl) {other : ClassDecl} {name : String} {later : List Field}
    (hfields : decl.fields = binding.loggerField other name :: later)
    (hfactory : binding.factory.name = factoryTypeName) (hname : decl.name ≠ factoryTypeName)
    (hmissing : start.types.find? factoryTypeName = none) :
    decl.load world start = ⟨.error (.unresolvedType factoryTypeName), decl.register start, []⟩ := by
  have hregistered : (decl.register start).types.find? binding.factory.name = none := by
    rw [hfactory, register, Situation.addClass, Scope.find?_define_of_ne _ _ hname.symm, hmissing]
  rw [load, Run.read_bind_apply, Run.change_bind_apply, hfields, initializeFields, bind_assoc, Run.read_bind_apply,
    bind_assoc, Run.bind_of_eq_error (start_loggerField world _ name hregistered), hfactory]

end Load

theorem needsFactoryFirst_withLogger {guarding : Guarding} (hfactory : binding.factory.name = factoryTypeName)
    (hname : decl.name ≠ factoryTypeName) : (decl.withLogger binding guarding).NeedsFactoryFirst := by
  intro Object State Event world start hmissing
  refine ⟨?_, fun later => ?_⟩
  · exact load_of_loggerField world (decl.withLogger binding guarding) rfl hfactory hname hmissing
  · exact load_of_loggerField world { decl.withLogger binding guarding with fields := _ :: later } rfl hfactory hname
      hmissing

end ClassDecl

namespace CompilationUnit

variable {unit : CompilationUnit} {state : BindingState} {runPath : ClassPath} {skipSimple : Bool} {report : UnitReport}

/-- A transformed unit refers to what it referred to before, and to the types of the loggers of the classes that asked for one. -/
theorem refersTo_transform_iff (hresult : (unit.transform state runPath skipSimple).result = .ok report) {type : TypeRef} :
    let binding := state.settle (runPath.withUnit unit)
    (unit.transform state runPath skipSimple).unit.RefersTo type ↔
      (∃ decl ∈ unit.classes, decl.request? ≠ none ∧ type ∈ [binding.logger, binding.factory, decl.type]) ∨
        unit.RefersTo type := by
  intro binding
  obtain ⟨results, hresults, hunit, _⟩ := exists_results_of_transform hresult
  rw [hunit]
  exact ClassesOutcome.refersTo_results_iff hresults

theorem exists_request_of_reports (hresult : (unit.transform state runPath skipSimple).result = .ok report)
    (hasked : report.classes ≠ []) : ∃ decl ∈ unit.classes, decl.request? ≠ none := by
  obtain ⟨entry, hentry⟩ := List.exists_mem_of_ne_nil _ hasked
  obtain ⟨decl, hdecl, changed, _, htransform⟩ := exists_transform_of_mem_report hresult hentry
  obtain ⟨mark, _, _, hrequest, _⟩ := ClassDecl.transform_eq_ok_some_iff.mp htransform
  exact ⟨decl, hdecl, by simp [hrequest]⟩

theorem classNames_transform : (unit.transform state runPath skipSimple).unit.classNames = unit.classNames :=
  ClassesOutcome.map_name_ofClasses unit.classes

theorem checkTypes_transform_iff (hplain : ∀ decl ∈ unit.classes, decl.HasPlainName)
    (hstate : ∀ binding ∈ state, binding.IsResolved)
    (hresult : (unit.transform state runPath skipSimple).result = .ok report) (hasked : report.classes ≠ [])
    (names : List String) :
    (unit.transform state runPath skipSimple).unit.checkTypes (.ofList names) = .ok () ↔
      unit.checkTypes (.ofList names) = .ok () ∧ ∀ name ∈ [loggerTypeName, factoryTypeName],
        (ClassPath.ofList names).contains name = true ∨ name ∈ unit.classNames := by
  let visible := (ClassPath.ofList names).withUnit unit
  let binding := state.settle (runPath.withUnit unit)
  obtain ⟨path, hbinding⟩ : binding.IsResolved := BindingState.isResolved_settle hstate _
  have hlogger : binding.logger.name = loggerTypeName := congrArg (·.logger.name) hbinding
  have hfactory : binding.factory.name = factoryTypeName := congrArg (·.factory.name) hbinding
  have hvisible : (ClassPath.ofList names).withUnit (unit.transform state runPath skipSimple).unit = visible :=
    congrArg (ClassPath.ofList names).extended classNames_transform
  have hcontains (name : String) : visible.contains name = true ↔
      (ClassPath.ofList names).contains name = true ∨ name ∈ unit.classNames :=
    ClassPath.contains_withUnit_iff_of_hasPlainName hplain
  obtain ⟨asking, hasking, hrequest⟩ := exists_request_of_reports hresult hasked
  simp only [checkTypes_eq_ok_iff, hvisible, refersTo_transform_iff hresult, ← hcontains]
  constructor
  · intro h
    refine ⟨fun type hrefers => h type (.inr hrefers), List.forall_mem_cons.mpr ⟨?_, List.forall_mem_singleton.mpr ?_⟩⟩
    · exact hlogger ▸ h binding.logger (.inl ⟨asking, hasking, hrequest, by simp [binding]⟩)
    · exact hfactory ▸ h binding.factory (.inl ⟨asking, hasking, hrequest, by simp [binding]⟩)
  · rintro ⟨hbefore, hfacade⟩ type (⟨decl, hdecl, _, htype⟩ | hrefers)
    -- A logger refers to the two types of the facade, and to its own class, which the unit itself makes visible.
    · rcases List.mem_cons.mp htype with rfl | htype
      · exact hlogger.symm ▸ hfacade loggerTypeName (by simp)
      rcases List.mem_cons.mp htype with rfl | htype
      · exact hfactory.symm ▸ hfacade factoryTypeName (by simp)
      · rw [List.mem_singleton.mp htype]
        exact (hcontains decl.name).mpr (.inr (List.mem_map_of_mem hdecl))
    · exact hbefore type hrefers

theorem needsFactoryFirst_transform (hstate : ∀ binding ∈ state, binding.IsResolved)
    (hresult : (unit.transform state runPath skipSimple).result = .ok report) :
    List.Forall₂ (fun before after : ClassDecl =>
        before.request? ≠ none → before.name ≠ factoryTypeName → after.NeedsFactoryFirst)
      unit.classes (unit.transform state runPath skipSimple).unit.classes := by
  obtain ⟨path, hbinding⟩ := BindingState.isResolved_settle hstate (runPath.withUnit unit)
  obtain ⟨results, hresults, hunit, _⟩ := exists_results_of_transform hresult
  rw [hunit, List.forall₂_map_right_iff]
  refine hresults.imp fun decl result hresult hrequest hname => ?_
  rcases ClassDecl.transformsTo_iff.mp hresult with ⟨hunasked, _⟩ | ⟨changed, entry, htransform, rfl⟩
  · exact absurd (ClassDecl.transform_eq_ok_none_iff.mp hunasked) hrequest
  · obtain ⟨_, _, _, _, _, rfl, _⟩ := ClassDecl.transform_eq_ok_some_iff.mp htransform
    exact ClassDecl.needsFactoryFirst_withLogger (congrArg (·.factory.name) hbinding) hname

end CompilationUnit

open CompilationUnit in
/-- A run that succeeds does so whether or not the facade is there. Type checking then asks for the facade besides what it asked for before, both times in accord with the audit, and a class with a logger cannot be loaded without the factory. -/
theorem missing_facade_is_caught_later (unit : CompilationUnit) (state : BindingState) (runPath : ClassPath)
    (skipSimple : Bool) (report : UnitReport) (hplain : ∀ decl ∈ unit.classes, decl.HasPlainName)
    (hstate : ∀ binding ∈ state, binding.IsResolved)
    (hresult : (unit.transform state runPath skipSimple).result = .ok report) (hasked : report.classes ≠ []) :
    let changed := (unit.transform state runPath skipSimple).unit
    (∀ other otherPath, (unit.transform other otherPath skipSimple).result = .ok report) ∧
      (∀ names : List String,
        (changed.checkTypes (.ofList names) = .ok () ↔
          unit.checkTypes (.ofList names) = .ok () ∧ ∀ name ∈ [loggerTypeName, factoryTypeName],
            (ClassPath.ofList names).contains name = true ∨ name ∈ unit.classNames) ∧
        unit.ChecksAsAudited (.ofList names) ∧ changed.ChecksAsAudited (.ofList names)) ∧
      List.Forall₂ (fun before after : ClassDecl =>
          before.request? ≠ none → before.name ≠ factoryTypeName → after.NeedsFactoryFirst)
        unit.classes changed.classes := by
  intro changed
  refine ⟨fun other otherPath => ?_, fun names => ⟨?_, ?_, ?_⟩, ?_⟩
  · rw [← hresult]
    exact unit.result_transform_eq other state otherPath runPath skipSimple
  · exact checkTypes_transform_iff hplain hstate hresult hasked names
  · exact unit.checksAsAudited _
  · exact changed.checksAsAudited _
  · exact needsFactoryFirst_transform hstate hresult

open CompilationUnit in
/-- The sample service is transformed without the facade, fails type checking and loading then, and passes type checking where the facade is known. -/
theorem missing_facade_of_sampleUnit_is_caught_later :
    let changed := (sampleUnit.transform none .empty false).unit
    (∃ report, (sampleUnit.transform none .empty false).result = .ok report) ∧
      sampleUnit.checkTypes (.ofList []) = .ok () ∧ changed.checkTypes (.ofList []) ≠ .ok () ∧
        changed.checkTypes (.ofList [loggerTypeName, factoryTypeName]) = .ok () ∧
          ∃ after ∈ changed.classes, after.NeedsFactoryFirst := by
  intro changed
  have hresult : (sampleUnit.transform none .empty false).result = .ok _ :=
    result_transform_of_ofClasses (ClassesOutcome.ofClasses_of_commons rfl rfl _)
  have hplain : ∀ decl ∈ sampleUnit.classes, decl.HasPlainName :=
    List.forall_mem_singleton.mpr ⟨by decide +kernel, by decide +kernel⟩
  obtain ⟨_, hchecks, hloads⟩ := missing_facade_is_caught_later sampleUnit none .empty false _ hplain nofun hresult
    (List.cons_ne_nil _ _)
  have hbefore (names : List String) (hnames : sampleUnit.unresolvedReferences (.ofList names) = []) :
      sampleUnit.checkTypes (.ofList names) = .ok () := by
    rw [checkTypes, hnames]
  refine ⟨⟨_, hresult⟩, hbefore [] (by decide +kernel), fun hpasses => ?_,
    (hchecks _).1.mpr ⟨hbefore _ (by decide +kernel), by decide +kernel⟩, ?_⟩
  · have hlogger := ((hchecks []).1.mp hpasses).2 loggerTypeName (by simp)
    revert hlogger
    decide +kernel
  · obtain ⟨after, others, hneeds, _, hclasses⟩ := List.forall₂_cons_left_iff.mp hloads
    exact ⟨after, hclasses ▸ List.mem_cons_self, hneeds (by decide +kernel) (by decide +kernel)⟩

end GuardedLogging
