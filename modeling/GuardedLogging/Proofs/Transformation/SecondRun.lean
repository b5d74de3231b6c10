import GuardedLogging.Proofs.Transformation.Run
import GuardedLogging.Proofs.Transformation.Written

/-!
# Running a transformation again

A run drops one annotation of each class it transforms, the first that asked for a logger. So a second run finds nothing to do exactly if no class asked twice.
-/

namespace GuardedLogging

namespace ClassDecl

variable {decl : ClassDecl} {binding : FacadeBinding} {skipSimple : Bool}

theorem request?_eq_none_iff : decl.request? = none ↔ decl.annotations.countP Annotation.isRequest = 0 := by
  rw [request?, List.find?_eq_none, List.countP_eq_zero]

theorem countP_withLogger (binding : FacadeBinding) (guarding : Guarding) {mark : Annotation} (h : decl.request? = some mark) :
    decl.annotations.countP Annotation.isRequest
      = (decl.withLogger binding guarding).annotations.countP Annotation.isRequest + 1 := by
  obtain ⟨front, request, back, hbefore, hrequest, _, hafter⟩ :=
    (decl.sameUpToLogger_withLogger binding guarding h).annotations
  rw [hbefore, hafter, List.countP_append, List.countP_append, List.countP_cons_of_pos hrequest,
    Nat.add_assoc]

/-- A class asks for nothing after a run if it asked once at most before it. -/
theorem TransformsTo.request?_eq_none_iff {result : ClassDecl × Option ClassReport}
    (h : decl.TransformsTo binding skipSimple result) :
    result.1.request? = none ↔ decl.annotations.countP Annotation.isRequest ≤ 1 := by
  rcases transformsTo_iff.mp h with ⟨hnone, rfl⟩ | ⟨changed, report, hchanged, rfl⟩
  · have hzero := ClassDecl.request?_eq_none_iff.mp (transform_eq_ok_none_iff.mp hnone)
    rw [transform_eq_ok_none_iff.mp hnone, hzero]
    simp
  · obtain ⟨mark, request, strategy, hrequest, _, rfl, _⟩ := transform_eq_ok_some_iff.mp hchanged
    have hcount := countP_withLogger binding ⟨request.fieldName, skipSimple⟩ hrequest
    show (decl.withLogger binding _).request? = none ↔ _
    rw [ClassDecl.request?_eq_none_iff]
    omega

end ClassDecl

namespace ClassesOutcome

variable {binding : FacadeBinding} {skipSimple : Bool}

theorem ofClasses_of_unasked {decls : List ClassDecl} (h : ∀ decl ∈ decls, decl.request? = none) :
    ofClasses binding skipSimple decls = ⟨decls, [], none⟩ := by
  induction decls with
  | nil => rfl
  | cons decl rest ih =>
    obtain ⟨hdecl, hrest⟩ := List.forall_mem_cons.mp h
    rw [ofClasses_cons_eq, ClassDecl.transform_eq_ok_none_iff.mpr hdecl, ih hrest]

end ClassesOutcome

namespace CompilationUnit

variable {unit : CompilationUnit} {state : BindingState} {classPath : ClassPath} {skipSimple : Bool}

theorem request?_eq_none_of_results {binding : FacadeBinding} {decls : List ClassDecl}
    {results : List (ClassDecl × Option ClassReport)}
    (hresults : List.Forall₂ (ClassDecl.TransformsTo binding skipSimple) decls results)
    (hnone : results.filterMap (·.2) = []) : ∀ decl ∈ decls, decl.request? = none := by
  induction hresults with
  | nil => exact List.forall_mem_nil _
  | cons hresult _ ih =>
    cases hresult with
    | unasked hrequest => exact List.forall_mem_cons.mpr ⟨hrequest, ih hnone⟩
    | asked mark changed report _ _ => cases hnone

/-- Which classes ask for nothing after a run, told by the classes before it. -/
theorem unasked_results_iff {binding : FacadeBinding} {decls : List ClassDecl}
    {results : List (ClassDecl × Option ClassReport)}
    (hresults : List.Forall₂ (ClassDecl.TransformsTo binding skipSimple) decls results) :
    (∀ result ∈ results, result.1.request? = none) ↔
      ∀ decl ∈ decls, decl.annotations.countP Annotation.isRequest ≤ 1 := by
  induction hresults with
  | nil => simp
  | cons hresult _ ih =>
    rw [List.forall_mem_cons, List.forall_mem_cons, ih, hresult.request?_eq_none_iff]

theorem transform_idle_iff :
    ((unit.transform state classPath skipSimple).result = .ok ⟨unit.name, []⟩ ∧
        (unit.transform state classPath skipSimple).unit = unit) ↔
      ∀ decl ∈ unit.classes, decl.request? = none := by
  constructor
  · rintro ⟨hresult, _⟩
    obtain ⟨results, hresults, _, hreports⟩ := exists_results_of_transform hresult
    exact request?_eq_none_of_results hresults hreports.symm
  · intro h
    unfold transform
    simp only [ClassesOutcome.ofClasses_of_unasked h, and_self]

end CompilationUnit

/-- After a run that succeeded, a second one under any settings reports nothing and changes nothing exactly if no class has two annotations that ask for a logger. -/
theorem second_run_is_idle_iff (unit : CompilationUnit) (state later : BindingState)
    (classPath laterPath : ClassPath) (skipSimple laterSkip : Bool) (report : UnitReport)
    (hfirst : (unit.transform state classPath skipSimple).result = .ok report) :
    let changed := (unit.transform state classPath skipSimple).unit
    let second := changed.transform later laterPath laterSkip
    (second.result = .ok ⟨unit.name, []⟩ ∧ second.unit = changed) ↔
      ∀ decl ∈ unit.classes, decl.annotations.countP Annotation.isRequest ≤ 1 := by
  intro changed second
  obtain ⟨hnone, _⟩ := CompilationUnit.transform_eq_ok_iff.mp hfirst
  obtain ⟨results, hresults, hclasses, _⟩ := ClassesOutcome.ofClasses_of_ok hnone
  have hchanged : changed.classes = results.map (·.1) := hclasses
  refine CompilationUnit.transform_idle_iff.trans ?_
  rw [hchanged, List.forall_mem_map]
  exact CompilationUnit.unasked_results_iff hresults

open CompilationUnit in
theorem second_run_of_sampleUnit_is_idle :
    let first := sampleUnit.transform none .empty false
    let second := first.unit.transform none .empty true
    (∃ report, first.result = .ok report) ∧
      second.result = .ok ⟨sampleUnit.name, []⟩ ∧ second.unit = first.unit := by
  intro first second
  obtain ⟨report, hresult, _⟩ := transform_sampleUnit
  refine ⟨⟨report, hresult⟩, ?_⟩
  exact (second_run_is_idle_iff sampleUnit none none .empty .empty false true report hresult).mpr
    (by decide)

/-- A class that asks for two loggers. -/
def ClassDecl.doubledClass : ClassDecl :=
  let named : Annotation := { name := "Commons", members := [(LoggerRequest.fieldNameKey, .text "logger")] }
  { name := "A", annotations := [{ name := "Commons" }, named] }

namespace CompilationUnit

def doubledUnit : CompilationUnit := { name := .text "Script", classes := [ClassDecl.doubledClass] }

theorem parse_doubledUnit : parse doubledUnit.toSource doubledUnit.name = .ok doubledUnit := by
  have hwritten : doubledUnit.IsWritten TypeRef.IsParsed Expr.IsParsed :=
    { text := rfl
      package := .inl rfl
      classes := by
        refine List.forall_mem_singleton.mpr
          { fields := List.forall_mem_nil _
            distinct := by decide
            methods := List.forall_mem_nil _
            simpleName := by decide
            name := by decide
            annotations := List.forall_mem_cons.mpr ⟨?_, List.forall_mem_singleton.mpr ?_⟩ }
        · exact ⟨by decide, nofun, List.nodup_nil⟩
        · exact ⟨by decide, List.forall_mem_singleton.mpr ⟨by decide, rfl⟩, by decide⟩
      distinct := by decide }
  exact parse_toSource hwritten ⟨by decide, by decide⟩ (by decide +kernel) ⟨by decide, by decide⟩
    ⟨by decide, by decide, by decide, by decide⟩

end CompilationUnit

open CompilationUnit in
/-- The second run adds the logger that the first one left out. -/
theorem second_run_of_doubledUnit_is_not_idle :
    let first := doubledUnit.transform none .empty false
    let second := first.unit.transform none .empty false
    parse doubledUnit.toSource doubledUnit.name = .ok doubledUnit ∧
      (∃ report, first.result = .ok report) ∧
        ∃ report, second.result = .ok report ∧ report.classes.map (·.fieldName) = ["logger"] := by
  intro first second
  let binding := BindingState.settle none (ClassPath.withUnit .empty doubledUnit)
  let guarding : Guarding := ⟨LoggerRequest.defaultFieldName, false⟩
  let changed := ClassDecl.doubledClass.withLogger binding guarding
  let firstReport := ClassDecl.doubledClass.report guarding Strategy.commonsName
  let secondReport := changed.report ⟨"logger", false⟩ Strategy.commonsName
  have hfirst : ClassDecl.doubledClass.transform binding false = .ok (some (changed, firstReport)) :=
    ClassDecl.transform_of_commons rfl rfl binding false
  have hrun : ClassesOutcome.ofClasses binding false doubledUnit.classes
      = ⟨[changed], [firstReport], none⟩ := ClassesOutcome.ofClasses_singleton hfirst
  have hchanged : first.unit.classes = [changed] := congrArg ClassesOutcome.classes hrun
  have haccept (mark : Annotation) (hmark : mark.members = [(LoggerRequest.fieldNameKey, .text "logger")]) :
      changed.accept mark = .ok (⟨"logger", LoggerRequest.defaultStrategy⟩, Strategy.commonsName) :=
    ClassDecl.accept_eq_ok_iff.mpr ⟨LoggerRequest.ofMark_named hmark (by decide), rfl, rfl⟩
  have hsecond (later : FacadeBinding) : changed.transform later false
      = .ok (some (changed.withLogger later ⟨"logger", false⟩, secondReport)) :=
    ClassDecl.transform_eq_ok_some_iff.mpr ⟨_, _, _, rfl, haccept _ rfl, rfl, rfl⟩
  refine ⟨parse_doubledUnit, ⟨_, result_transform_of_ofClasses hrun⟩, ⟨first.unit.name, [secondReport]⟩, ?_, rfl⟩
  refine CompilationUnit.transform_eq_ok_iff.mpr ?_
  simp only [hchanged, ClassesOutcome.ofClasses_singleton (hsecond _), and_self]

end GuardedLogging
