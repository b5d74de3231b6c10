import GuardedLogging.Proofs.Transformation.Refusal
import Mathlib.Data.List.Forall2

/-!
# Which classes a transformation reaches

The classes of a unit are transformed in order, each as it would be by itself under the binding that was settled at the beginning. The first class that is refused ends the run: it stays as it is, and so do those behind it. If none is refused, the report has an entry for each class that asked for a logger.
-/

namespace GuardedLogging

variable {binding : FacadeBinding} {skipSimple : Bool}

namespace ClassDecl

variable {decl : ClassDecl}

/-- A class asks for a logger that it cannot have, for the reason that the error gives. -/
def IsRefused (decl : ClassDecl) (error : TransformError) : Prop :=
  ∃ mark, decl.request? = some mark ∧ decl.Refuses mark error.cause ∧ error.className = decl.name

theorem transform_eq_error_iff {error : TransformError} :
    decl.transform binding skipSimple = .error error ↔ decl.IsRefused error := by
  constructor
  · intro h
    cases hrequest : decl.request? with
    | none =>
      rw [transform_of_unasked hrequest] at h
      cases h
    | some mark =>
      rw [transform_of_request hrequest] at h
      cases haccept : decl.accept mark with
      | error cause =>
        rw [haccept] at h
        cases h
        exact ⟨mark, hrequest, accept_eq_error_iff.mp haccept, rfl⟩
      | ok accepted =>
        rw [haccept] at h
        cases h
  · rintro ⟨mark, hrequest, hrefuses, hname⟩
    rw [transform_of_request hrequest, accept_eq_error_iff.mpr hrefuses, ← hname]

theorem transform_eq_ok_none_iff :
    decl.transform binding skipSimple = .ok none ↔ decl.request? = none := by
  constructor
  · intro h
    cases hrequest : decl.request? with
    | none => rfl
    | some mark =>
      rw [transform_of_request hrequest] at h
      split at h <;> cases h
  · intro h
    exact transform_of_unasked h binding skipSimple

/-- What a class comes to by itself, and what is reported of it: nothing if it asks for no logger. -/
inductive TransformsTo (binding : FacadeBinding) (skipSimple : Bool) (decl : ClassDecl) :
    ClassDecl × Option ClassReport → Prop
  | unasked (hrequest : decl.request? = none) : TransformsTo binding skipSimple decl (decl, none)
  | asked (mark : Annotation) (changed : ClassDecl) (report : ClassReport)
      (hrequest : decl.request? = some mark)
      (halone : ∀ classPath, decl.transformAlone (some binding) classPath skipSimple =
        (some binding, ⟨changed, .ok (some report)⟩)) :
      TransformsTo binding skipSimple decl (changed, some report)

theorem transformAlone_some (classPath : ClassPath) :
    decl.transformAlone (some binding) classPath skipSimple =
      (some binding, decl.transformInPlace binding skipSimple) := by
  unfold transformAlone
  cases hrequest : decl.request? with
  | none => rw [transformInPlace_of_unasked hrequest]
  | some mark => rfl

theorem transformsTo_iff {result : ClassDecl × Option ClassReport} :
    decl.TransformsTo binding skipSimple result ↔
      (decl.transform binding skipSimple = .ok none ∧ result = (decl, none)) ∨
        ∃ changed report, decl.transform binding skipSimple = .ok (some (changed, report)) ∧
          result = (changed, some report) := by
  constructor
  · intro h
    cases h with
    | unasked hrequest => exact .inl ⟨transform_eq_ok_none_iff.mpr hrequest, rfl⟩
    | asked mark changed report hrequest halone =>
      have halone := halone .empty
      rw [transformAlone_some, Prod.mk.injEq] at halone
      refine .inr ⟨changed, report, ?_, rfl⟩
      rw [transform, halone.2]
      rfl
  · rintro (⟨h, rfl⟩ | ⟨changed, report, h, rfl⟩)
    · exact .unasked (transform_eq_ok_none_iff.mp h)
    · obtain ⟨mark, _, _, hrequest, _⟩ := transform_eq_ok_some_iff.mp h
      exact .asked mark changed report hrequest fun classPath => by
        rw [transformAlone_some, transformInPlace_eq, h]

/-- A class in place is refused and left as it was, or comes to its result. -/
theorem transformInPlace_cases (binding : FacadeBinding) (skipSimple : Bool) (decl : ClassDecl) :
    (∃ error, decl.IsRefused error ∧ decl.transformInPlace binding skipSimple = ⟨decl, .error error⟩) ∨
      ∃ result, decl.TransformsTo binding skipSimple result ∧
        decl.transformInPlace binding skipSimple = ⟨result.1, .ok result.2⟩ := by
  rw [transformInPlace_eq]
  cases htransform : decl.transform binding skipSimple with
  | error error => exact .inl ⟨error, transform_eq_error_iff.mp htransform, rfl⟩
  | ok outcome =>
    cases outcome with
    | none => exact .inr ⟨_, transformsTo_iff.mpr (.inl ⟨htransform, rfl⟩), rfl⟩
    | some pair => exact .inr ⟨_, transformsTo_iff.mpr (.inr ⟨pair.1, pair.2, htransform, rfl⟩), rfl⟩

theorem TransformsTo.not_isRefused {result : ClassDecl × Option ClassReport}
    (h : decl.TransformsTo binding skipSimple result) (error : TransformError) :
    ¬ decl.IsRefused error := by
  intro hrefused
  have herror : decl.transform binding skipSimple = .error error := transform_eq_error_iff.mpr hrefused
  rcases transformsTo_iff.mp h with ⟨hok, _⟩ | ⟨_, _, hok, _⟩
  · cases herror.symm.trans hok
  · cases herror.symm.trans hok

end ClassDecl

namespace ClassesOutcome

/-- One step of the run: the class is refused and ends it, or it comes to its result and the run goes on. -/
theorem ofClasses_cons (decl : ClassDecl) (rest : List ClassDecl) :
    (∃ error, decl.IsRefused error ∧
      ofClasses binding skipSimple (decl :: rest) = ⟨decl :: rest, [], some error⟩) ∨
    ∃ result, decl.TransformsTo binding skipSimple result ∧
      ofClasses binding skipSimple (decl :: rest) =
        { classes := result.1 :: (ofClasses binding skipSimple rest).classes
          reports := result.2.toList ++ (ofClasses binding skipSimple rest).reports
          error := (ofClasses binding skipSimple rest).error } := by
  rw [ofClasses]
  rcases decl.transformInPlace_cases binding skipSimple with ⟨error, hrefused, hrun⟩ | ⟨result, hresult, hrun⟩
  · rw [hrun]
    exact .inl ⟨error, hrefused, rfl⟩
  · rw [hrun]
    exact .inr ⟨result, hresult, rfl⟩

/-- A run without an error takes every class to its result. -/
theorem ofClasses_of_ok {decls : List ClassDecl} (h : (ofClasses binding skipSimple decls).error = none) :
    ∃ results, List.Forall₂ (ClassDecl.TransformsTo binding skipSimple) decls results ∧
      (ofClasses binding skipSimple decls).classes = results.map (·.1) ∧
        (ofClasses binding skipSimple decls).reports = results.filterMap (·.2) := by
  induction decls with
  | nil => exact ⟨[], .nil, rfl, rfl⟩
  | cons decl rest ih =>
    rcases ofClasses_cons decl rest with ⟨error, _, hrun⟩ | ⟨result, hresult, hrun⟩
    · rw [hrun] at h
      cases h
    · rw [hrun] at h ⊢
      obtain ⟨results, hresults, hclasses, hreports⟩ := ih h
      refine ⟨result :: results, .cons hresult hresults, ?_, ?_⟩
      · simp only [hclasses, List.map_cons]
      · obtain ⟨changed, _ | report⟩ := result
        · simp [hreports]
        · simp [hreports]

/-- A run that ends with an error takes every class before the refused one to its result, and leaves the others. -/
theorem ofClasses_of_error {decls : List ClassDecl} {error : TransformError}
    (h : (ofClasses binding skipSimple decls).error = some error) :
    ∃ earlier failing later results, decls = earlier ++ failing :: later ∧ failing.IsRefused error ∧
      List.Forall₂ (ClassDecl.TransformsTo binding skipSimple) earlier results ∧
        (ofClasses binding skipSimple decls).classes = results.map (·.1) ++ failing :: later := by
  induction decls with
  | nil => cases h
  | cons decl rest ih =>
    rcases ofClasses_cons decl rest with ⟨other, hrefused, hrun⟩ | ⟨result, hresult, hrun⟩
    · rw [hrun] at h ⊢
      cases h
      exact ⟨[], decl, rest, [], rfl, hrefused, .nil, rfl⟩
    · rw [hrun] at h ⊢
      obtain ⟨earlier, failing, later, results, rfl, hrefused, hresults, hclasses⟩ := ih h
      exact ⟨decl :: earlier, failing, later, result :: results, rfl, hrefused,
        .cons hresult hresults, congrArg (result.1 :: ·) hclasses⟩

theorem map_name_results {decls : List ClassDecl} {results : List (ClassDecl × Option ClassReport)}
    (hresults : List.Forall₂ (ClassDecl.TransformsTo binding skipSimple) decls results) :
    (results.map (·.1)).map (·.name) = decls.map (·.name) := by
  induction hresults with
  | nil => rfl
  | cons hresult _ ih =>
    rw [List.map_cons, List.map_cons, List.map_cons, ih]
    rcases ClassDecl.transformsTo_iff.mp hresult with ⟨_, rfl⟩ | ⟨changed, report, hchanged, rfl⟩
    · rfl
    · obtain ⟨_, _, _, _, _, rfl, _⟩ := ClassDecl.transform_eq_ok_some_iff.mp hchanged
      rfl

/-- What each class keeps where it comes to its result, the classes keep in a run, whether the run ends with an error or not. -/
theorem forall_ofClasses {p : ClassDecl → Prop}
    (hstep : ∀ decl result, decl.TransformsTo binding skipSimple result → p decl → p result.1)
    {decls : List ClassDecl} (h : ∀ decl ∈ decls, p decl) :
    ∀ decl ∈ (ofClasses binding skipSimple decls).classes, p decl := by
  induction decls with
  | nil => exact h
  | cons decl rest ih =>
    obtain ⟨hdecl, hrest⟩ := List.forall_mem_cons.mp h
    rcases ofClasses_cons decl rest with ⟨error, _, hrun⟩ | ⟨result, hresult, hrun⟩
    · rw [hrun]
      exact h
    · rw [hrun]
      exact List.forall_mem_cons.mpr ⟨hstep decl result hresult hdecl, ih hrest⟩

theorem map_name_ofClasses (decls : List ClassDecl) :
    (ofClasses binding skipSimple decls).classes.map (·.name) = decls.map (·.name) := by
  cases herror : (ofClasses binding skipSimple decls).error with
  | none =>
    obtain ⟨results, hresults, hclasses, _⟩ := ofClasses_of_ok herror
    rw [hclasses, map_name_results hresults]
  | some error =>
    obtain ⟨earlier, failing, later, results, rfl, _, hresults, hclasses⟩ := ofClasses_of_error herror
    rw [hclasses, List.map_append, map_name_results hresults, List.map_append]

end ClassesOutcome

namespace CompilationUnit

variable {unit : CompilationUnit} {state : BindingState} {classPath : ClassPath}

theorem transform_eq_ok_iff {report : UnitReport} :
    (unit.transform state classPath skipSimple).result = .ok report ↔
      (ClassesOutcome.ofClasses (state.settle (classPath.withUnit unit)) skipSimple unit.classes).error
        = none ∧
      report = ⟨unit.name, (ClassesOutcome.ofClasses (state.settle (classPath.withUnit unit)) skipSimple
        unit.classes).reports⟩ := by
  unfold transform
  simp only
  split
  · rename_i error herror
    simp [herror]
  · rename_i hnone
    simp [hnone, eq_comm]

theorem transform_eq_error_iff {error : TransformError} :
    (unit.transform state classPath skipSimple).result = .error error ↔
      (ClassesOutcome.ofClasses (state.settle (classPath.withUnit unit)) skipSimple unit.classes).error
        = some error := by
  unfold transform
  simp only
  split
  · rename_i other herror
    simp [herror]
  · rename_i hnone
    simp [hnone]

theorem exists_results_of_transform {report : UnitReport}
    (hresult : (unit.transform state classPath skipSimple).result = .ok report) :
    ∃ results,
      List.Forall₂ (ClassDecl.TransformsTo (state.settle (classPath.withUnit unit)) skipSimple) unit.classes results ∧
        (unit.transform state classPath skipSimple).unit = { unit with classes := results.map (·.1) } ∧
          report.classes = results.filterMap (·.2) := by
  obtain ⟨hnone, rfl⟩ := transform_eq_ok_iff.mp hresult
  obtain ⟨results, hresults, hclasses, hreports⟩ := ClassesOutcome.ofClasses_of_ok hnone
  exact ⟨results, hresults, congrArg (fun classes => { unit with classes }) hclasses, hreports⟩

/-- Each report is about a class that was transformed. -/
theorem exists_of_mem_reports {binding : FacadeBinding} {decls : List ClassDecl}
    {results : List (ClassDecl × Option ClassReport)} {report : ClassReport}
    (hresults : List.Forall₂ (ClassDecl.TransformsTo binding skipSimple) decls results)
    (hreport : report ∈ results.filterMap (·.2)) :
    ∃ decl ∈ decls, ∃ changed ∈ results.map (·.1),
      decl.transform binding skipSimple = .ok (some (changed, report)) := by
  induction hresults with
  | nil => cases hreport
  | @cons decl result _ _ hresult _ ih =>
    rcases ClassDecl.transformsTo_iff.mp hresult with ⟨_, rfl⟩ | ⟨changed, first, hchanged, rfl⟩
    · obtain ⟨found, hfound, after, hafter, htransform⟩ := ih hreport
      exact ⟨found, List.mem_cons_of_mem _ hfound, after, List.mem_cons_of_mem _ hafter, htransform⟩
    · rcases List.mem_cons.mp hreport with rfl | hrest
      · exact ⟨decl, List.mem_cons_self, changed, List.mem_cons_self, hchanged⟩
      · obtain ⟨found, hfound, after, hafter, htransform⟩ := ih hrest
        exact ⟨found, List.mem_cons_of_mem _ hfound, after, List.mem_cons_of_mem _ hafter, htransform⟩

/-- A report of a run that succeeded is about a class of the unit, which stands in the outcome as it comes out by itself. -/
theorem exists_transform_of_mem_report {report : UnitReport}
    (hresult : (unit.transform state classPath skipSimple).result = .ok report) {entry : ClassReport}
    (hentry : entry ∈ report.classes) :
    ∃ decl ∈ unit.classes, ∃ changed ∈ (unit.transform state classPath skipSimple).unit.classes,
      decl.transform (state.settle (classPath.withUnit unit)) skipSimple = .ok (some (changed, entry)) := by
  obtain ⟨results, hresults, hunit, hreports⟩ := exists_results_of_transform hresult
  obtain ⟨decl, hdecl, changed, hchanged, htransform⟩ := exists_of_mem_reports hresults (hreports ▸ hentry)
  exact ⟨decl, hdecl, changed, hunit ▸ hchanged, htransform⟩

end CompilationUnit

/-- A run that fails names the first class that is refused and leaves it and the later ones as they were, with every earlier class as it comes out by itself. A run that does not fail reports each class that asked for a logger, in their order, and leaves the others. -/
theorem transformation_stops_at_first_refused_class (state : BindingState) (classPath : ClassPath)
    (skipSimple : Bool) (unit : CompilationUnit) :
    let binding := state.settle (classPath.withUnit unit)
    let outcome := unit.transform state classPath skipSimple
    (∀ error, outcome.result = .error error →
      ∃ earlier failing later results, unit.classes = earlier ++ failing :: later ∧
        failing.IsRefused error ∧ (∀ decl ∈ earlier, ∀ other, ¬ decl.IsRefused other) ∧
          List.Forall₂ (ClassDecl.TransformsTo binding skipSimple) earlier results ∧
            outcome.unit = { unit with classes := results.map (·.1) ++ failing :: later }) ∧
    ∀ report, outcome.result = .ok report →
      report.unitName = unit.name ∧ ∃ results,
        List.Forall₂ (ClassDecl.TransformsTo binding skipSimple) unit.classes results ∧
          outcome.unit = { unit with classes := results.map (·.1) } ∧
            report.classes = results.filterMap (·.2) := by
  intro binding outcome
  constructor
  · intro error hresult
    obtain ⟨earlier, failing, later, results, hsplit, hrefused, hresults, hclasses⟩ :=
      ClassesOutcome.ofClasses_of_error (CompilationUnit.transform_eq_error_iff.mp hresult)
    have hearlier : ∀ decl ∈ earlier, ∀ other, ¬ decl.IsRefused other :=
      ((List.forall₂_and_left _ _).mp (hresults.imp fun _ _ h => ⟨h.not_isRefused, h⟩)).1
    refine ⟨earlier, failing, later, results, hsplit, hrefused, hearlier, hresults, ?_⟩
    show { unit with classes := _ } = _
    rw [hclasses]
  · intro report hresult
    obtain ⟨hnone, rfl⟩ := CompilationUnit.transform_eq_ok_iff.mp hresult
    obtain ⟨results, hresults, hclasses, hreports⟩ := ClassesOutcome.ofClasses_of_ok hnone
    refine ⟨rfl, results, hresults, ?_, hreports⟩
    show { unit with classes := _ } = _
    rw [hclasses]

/-- The sample service with a field of its own under the usual name of a logger. -/
def ClassDecl.crowdedService : ClassDecl :=
  { sampleService with fields := [{ name := LoggerRequest.defaultFieldName, owner := "Service" }] }

theorem ClassDecl.isRefused_crowdedService :
    crowdedService.IsRefused ⟨"Service", .duplicateField LoggerRequest.defaultFieldName⟩ := by
  refine ⟨{ name := "Commons" }, rfl, ?_, rfl⟩
  exact .duplicateField _ ofMark_commons (by decide) ⟨_, List.mem_cons_self, rfl⟩

/-- The sample service is transformed, the service with a field of its own is not; a class that asks for nothing does not matter. -/
theorem sampleServices_stop_at_crowdedService :
    let idle : ClassDecl := { name := "Idle" }
    let unitOf (classes : List ClassDecl) : CompilationUnit := { name := .text "Services", classes }
    let binding : FacadeBinding := .resolve .empty
    let crowded := (unitOf [.sampleService, .crowdedService, idle]).transform (some binding) .empty false
    let regular := (unitOf [idle, .sampleService]).transform (some binding) .empty false
    (∃ error, crowded.result = .error error ∧
      ∃ earlier failing later results, [.sampleService, .crowdedService, idle] = earlier ++ failing :: later ∧
        failing.IsRefused error ∧ (∀ decl ∈ earlier, ∀ other, ¬ decl.IsRefused other) ∧
          List.Forall₂ (ClassDecl.TransformsTo binding false) earlier results ∧
            crowded.unit = unitOf (results.map (·.1) ++ failing :: later)) ∧
    ∃ report, regular.result = .ok report ∧
      report.unitName = .text "Services" ∧ ∃ results,
        List.Forall₂ (ClassDecl.TransformsTo binding false) [idle, .sampleService] results ∧
          regular.unit = unitOf (results.map (·.1)) ∧ report.classes = results.filterMap (·.2) := by
  intro idle unitOf binding crowded regular
  let guarding : Guarding := ⟨LoggerRequest.defaultFieldName, false⟩
  let error : TransformError := ⟨"Service", .duplicateField LoggerRequest.defaultFieldName⟩
  let report := ClassDecl.sampleService.report guarding Strategy.commonsName
  have hservice : ClassDecl.sampleService.transform binding false
      = .ok (some (ClassDecl.sampleService.withLogger binding guarding, report)) :=
    ClassDecl.transform_sampleService binding false
  have hrefused : ClassDecl.crowdedService.transform binding false = .error error :=
    ClassDecl.transform_eq_error_iff.mpr ClassDecl.isRefused_crowdedService
  have hidle : idle.transform binding false = .ok none := rfl
  constructor
  · have herror : crowded.result = .error error := by
      refine CompilationUnit.transform_eq_error_iff.mpr ?_
      simp only [unitOf, BindingState.settle, Option.getD_some, ClassesOutcome.ofClasses_cons_eq, hservice, hrefused]
    exact ⟨error, herror, (transformation_stops_at_first_refused_class _ _ _ _).1 error herror⟩
  · have hok : regular.result = .ok ⟨.text "Services", [report]⟩ := by
      refine CompilationUnit.transform_eq_ok_iff.mpr ?_
      simp only [unitOf, BindingState.settle, Option.getD_some, ClassesOutcome.ofClasses_cons_eq, hservice, hidle]
      exact ⟨rfl, rfl⟩
    exact ⟨_, hok, (transformation_stops_at_first_refused_class _ _ _ _).2 _ hok⟩

end GuardedLogging
