import GuardedLogging.Proofs.General.Results
import GuardedLogging.Sample
import GuardedLogging.Transformation

/-!
# Which classes get a logger

A class is transformed if it has a request and the request is accepted, and then the result is the class with its logger. The steps that change the class come behind those that can fail, so a class whose request is not accepted is left as it is. Everything else that is known of a transformed class follows from these facts.
-/

namespace GuardedLogging

/-- The decisions taken in a class: in its fields, then in its methods. -/
def Guarding.decisionsInClass (guarding : Guarding) (decl : ClassDecl) : List Decision :=
  guarding.decisionsInFields decl.fields ++ guarding.decisionsInMethods decl.methods

namespace ClassDecl

/-- The class with a logger of the given name, its calls on the logger guarded and the first request dropped. -/
def withLogger (decl : ClassDecl) (binding : FacadeBinding) (guarding : Guarding) : ClassDecl :=
  { decl with
    fields := binding.loggerField decl guarding.logger :: decl.fields.map guarding.guardField
    methods := decl.methods.map guarding.guardMethod
    annotations := decl.annotations.eraseP Annotation.isRequest }

/-- The request and the name of its strategy, if the class can have the logger. -/
def accept (decl : ClassDecl) (mark : Annotation) :
    Except TransformError.Cause (LoggerRequest × String) := do
  let request ← LoggerRequest.ofMark mark
  let strategy ← Strategy.choose (.named request.strategy)
  if (decl.field? request.fieldName).isSome then throw (.duplicateField request.fieldName)
  else return (request, strategy)

/-- What is reported of a class whose calls on the logger are guarded. -/
def report (decl : ClassDecl) (guarding : Guarding) (strategy : String) : ClassReport :=
  { className := decl.name
    fieldName := guarding.logger
    strategy
    decisions := guarding.decisionsInClass decl
    shadowedMethods := (decl.methods.filter guarding.isShadowedIn).map (·.name) }

/-- What a transformation of the class gives: the class as it then is and the report, nothing if the class asks for no logger. -/
def transform (binding : FacadeBinding) (skipSimple : Bool) (decl : ClassDecl) :
    Except TransformError (Option (ClassDecl × ClassReport)) :=
  let outcome := decl.transformInPlace binding skipSimple
  outcome.result.map fun report? => report?.map fun report => (outcome.decl, report)

end ClassDecl

namespace ClassSteps

variable {α β : Type} {decl : ClassDecl}

theorem runFrom_bind_of_ok {steps : ClassSteps α} {next : α → ClassSteps β} {value : α} {after : ClassDecl}
    (h : steps.runFrom decl = (.ok value, after)) : (steps >>= next).runFrom decl = (next value).runFrom after := by
  unfold runFrom at h ⊢
  rw [ExceptT.run_bind, StateT.run_bind, h]
  rfl

theorem runFrom_bind_of_error {steps : ClassSteps α} {next : α → ClassSteps β} {cause : TransformError.Cause}
    {after : ClassDecl} (h : steps.runFrom decl = (.error cause, after)) :
    (steps >>= next).runFrom decl = (.error cause, after) := by
  unfold runFrom at h ⊢
  rw [ExceptT.run_bind, StateT.run_bind, h]
  rfl

/-! ### The steps that can fail change nothing -/

theorem runFrom_check (check : Except TransformError.Cause α) :
    (liftM check : ClassSteps α).runFrom decl = (check, decl) := rfl

theorem runFrom_requireNew (name : String) :
    (requireNew name).runFrom decl =
      (if (decl.field? name).isSome then .error (.duplicateField name) else .ok (), decl) := by
  unfold requireNew
  rw [runFrom_bind_of_ok (rfl : runFrom get decl = (.ok decl, decl))]
  split <;> rfl

/-! ### The steps that change the class do not fail -/

theorem runFrom_addLogger (binding : FacadeBinding) (name : String) :
    (addLogger binding name).runFrom decl =
      (.ok (), { decl with fields := binding.loggerField decl name :: decl.fields }) := rfl

theorem runFrom_guardInitials (guarding : Guarding) {first : Field} {others : List Field}
    (h : decl.fields = first :: others) :
    (guardInitials guarding).runFrom decl =
      (.ok (guarding.decisionsInFields others),
        { decl with fields := first :: others.map guarding.guardField }) := by
  have hrun : (guardInitials guarding).runFrom decl =
      (.ok (guarding.decisionsInFields (decl.fields.drop 1)),
        { decl with fields := decl.fields.take 1 ++ (decl.fields.drop 1).map guarding.guardField }) := rfl
  rw [hrun, h]
  rfl

theorem runFrom_guardBodies (guarding : Guarding) :
    (guardBodies guarding).runFrom decl =
      (.ok (guarding.decisionsInMethods decl.methods, (decl.methods.filter guarding.isShadowedIn).map (·.name)),
        { decl with methods := decl.methods.map guarding.guardMethod }) := rfl

theorem runFrom_dropRequest :
    dropRequest.runFrom decl =
      (.ok (), { decl with annotations := decl.annotations.eraseP Annotation.isRequest }) := rfl

/-- A class whose request is not accepted is as it was, although it is changed in place: the steps stop before the first change. Otherwise it comes out with its logger. -/
theorem runFrom_transform (binding : FacadeBinding) (skipSimple : Bool) (mark : Annotation) :
    (transform binding skipSimple mark).runFrom decl =
      match decl.accept mark with
      | .error cause => (.error cause, decl)
      | .ok (request, strategy) =>
        (.ok (decl.report ⟨request.fieldName, skipSimple⟩ strategy),
          decl.withLogger binding ⟨request.fieldName, skipSimple⟩) := by
  unfold transform ClassDecl.accept
  cases hmark : LoggerRequest.ofMark mark with
  | error cause => exact runFrom_bind_of_error (runFrom_check _)
  | ok request =>
    rw [runFrom_bind_of_ok (runFrom_check _)]
    cases hstrategy : Strategy.choose (.named request.strategy) with
    | error cause =>
      rw [runFrom_bind_of_error (runFrom_check _)]
      simp only [bind, Except.bind, hstrategy]
    | ok strategy =>
      rw [runFrom_bind_of_ok (runFrom_check _)]
      have hnew : (requireNew request.fieldName).runFrom decl = _ := runFrom_requireNew _
      cases hfield : (decl.field? request.fieldName).isSome with
      | true =>
        rw [hfield] at hnew
        simp only [bind, Except.bind, hstrategy, hfield]
        exact runFrom_bind_of_error hnew
      | false =>
        rw [hfield] at hnew
        simp only [bind, Except.bind, hstrategy, hfield]
        let guarding : Guarding := ⟨request.fieldName, skipSimple⟩
        exact (runFrom_bind_of_ok hnew).trans <| (runFrom_bind_of_ok (runFrom_addLogger _ _)).trans <|
          (runFrom_bind_of_ok (runFrom_guardInitials guarding rfl)).trans <|
            (runFrom_bind_of_ok (runFrom_guardBodies guarding)).trans <|
              runFrom_bind_of_ok runFrom_dropRequest

end ClassSteps

namespace ClassDecl

variable {decl : ClassDecl}

theorem accept_eq_ok_iff {mark : Annotation} {request : LoggerRequest} {strategy : String} :
    decl.accept mark = .ok (request, strategy) ↔
      LoggerRequest.ofMark mark = .ok request ∧
        Strategy.choose (.named request.strategy) = .ok strategy ∧
          decl.field? request.fieldName = none := by
  unfold accept
  rw [bind_eq_ok_iff]
  constructor
  · intro ⟨found, hmark, hrest⟩
    obtain ⟨name, hstrategy, hnew⟩ := bind_eq_ok_iff.mp hrest
    split at hnew
    · cases hnew
    · rename_i hfield
      cases hnew
      exact ⟨hmark, hstrategy, Option.not_isSome_iff_eq_none.mp hfield⟩
  · intro ⟨hmark, hstrategy, hfield⟩
    refine ⟨request, hmark, bind_eq_ok_iff.mpr ⟨strategy, hstrategy, ?_⟩⟩
    rw [hfield]
    rfl

theorem transformInPlace_of_unasked (hrequest : decl.request? = none) (binding : FacadeBinding)
    (skipSimple : Bool) : decl.transformInPlace binding skipSimple = ⟨decl, .ok none⟩ := by
  rw [transformInPlace, hrequest]

theorem transformInPlace_of_request {mark : Annotation} (hrequest : decl.request? = some mark)
    (binding : FacadeBinding) (skipSimple : Bool) :
    decl.transformInPlace binding skipSimple =
      match decl.accept mark with
      | .error cause => ⟨decl, .error ⟨decl.name, cause⟩⟩
      | .ok (request, strategy) =>
        ⟨decl.withLogger binding ⟨request.fieldName, skipSimple⟩,
          .ok (some (decl.report ⟨request.fieldName, skipSimple⟩ strategy))⟩ := by
  have hrun : (ClassSteps.transform binding skipSimple mark).runFrom decl = _ := ClassSteps.runFrom_transform ..
  rw [transformInPlace, hrequest]
  simp only [hrun]
  cases decl.accept mark with
  | error cause => rfl
  | ok accepted => rfl

theorem transform_of_unasked (hrequest : decl.request? = none) (binding : FacadeBinding)
    (skipSimple : Bool) : decl.transform binding skipSimple = .ok none := by
  simp only [transform, transformInPlace_of_unasked hrequest]
  rfl

theorem transform_of_request {mark : Annotation} (hrequest : decl.request? = some mark)
    (binding : FacadeBinding) (skipSimple : Bool) :
    decl.transform binding skipSimple =
      match decl.accept mark with
      | .error cause => .error ⟨decl.name, cause⟩
      | .ok (request, strategy) =>
        .ok (some (decl.withLogger binding ⟨request.fieldName, skipSimple⟩,
          decl.report ⟨request.fieldName, skipSimple⟩ strategy)) := by
  simp only [transform, transformInPlace_of_request hrequest]
  cases decl.accept mark with
  | error cause => rfl
  | ok accepted => rfl

/-- A class that is refused, or asks for no logger, is left as it was; otherwise the class in place is the one that is given. -/
theorem transformInPlace_eq (binding : FacadeBinding) (skipSimple : Bool) :
    decl.transformInPlace binding skipSimple =
      match decl.transform binding skipSimple with
      | .error error => ⟨decl, .error error⟩
      | .ok none => ⟨decl, .ok none⟩
      | .ok (some (changed, report)) => ⟨changed, .ok (some report)⟩ := by
  cases hrequest : decl.request? with
  | none => rw [transform_of_unasked hrequest, transformInPlace_of_unasked hrequest]
  | some mark =>
    rw [transform_of_request hrequest, transformInPlace_of_request hrequest]
    cases decl.accept mark with
    | error cause => rfl
    | ok accepted => rfl

theorem transform_eq_ok_some_iff {binding : FacadeBinding} {skipSimple : Bool}
    {changed : ClassDecl} {report : ClassReport} :
    decl.transform binding skipSimple = .ok (some (changed, report)) ↔
      ∃ mark request strategy, decl.request? = some mark ∧
        decl.accept mark = .ok (request, strategy) ∧
          changed = decl.withLogger binding ⟨request.fieldName, skipSimple⟩ ∧
            report = decl.report ⟨request.fieldName, skipSimple⟩ strategy := by
  constructor
  · intro h
    cases hrequest : decl.request? with
    | none =>
      rw [transform_of_unasked hrequest] at h
      cases h
    | some mark =>
      rw [transform_of_request hrequest] at h
      cases haccept : decl.accept mark with
      | error cause =>
        rw [haccept] at h
        cases h
      | ok accepted =>
        rw [haccept] at h
        cases h
        exact ⟨mark, accepted.1, accepted.2, rfl, haccept, rfl, rfl⟩
  · rintro ⟨mark, request, strategy, hrequest, haccept, rfl, rfl⟩
    rw [transform_of_request hrequest, haccept]

/-- An annotation without members asks for a logger under the usual name. -/
theorem ofMark_commons : LoggerRequest.ofMark { name := "Commons" }
    = .ok ⟨LoggerRequest.defaultFieldName, LoggerRequest.defaultStrategy⟩ := by
  have hmembers : LoggerRequest.unknownMembers { name := "Commons" } = [] := List.mergeSort_nil
  rw [LoggerRequest.ofMark, hmembers]
  rfl

theorem transform_of_commons (hrequest : decl.request? = some { name := "Commons" })
    (hnew : decl.field? LoggerRequest.defaultFieldName = none) (binding : FacadeBinding)
    (skipSimple : Bool) :
    decl.transform binding skipSimple =
      .ok (some (decl.withLogger binding ⟨LoggerRequest.defaultFieldName, skipSimple⟩,
        decl.report ⟨LoggerRequest.defaultFieldName, skipSimple⟩ Strategy.commonsName)) := by
  have haccept : decl.accept { name := "Commons" } = .ok (_, Strategy.commonsName) :=
    accept_eq_ok_iff.mpr ⟨ofMark_commons, rfl, hnew⟩
  exact transform_eq_ok_some_iff.mpr ⟨_, _, _, hrequest, haccept, rfl, rfl⟩

theorem transform_sampleService (binding : FacadeBinding) (skipSimple : Bool) :
    sampleService.transform binding skipSimple =
      .ok (some (sampleService.withLogger binding ⟨LoggerRequest.defaultFieldName, skipSimple⟩,
        sampleService.report ⟨LoggerRequest.defaultFieldName, skipSimple⟩ Strategy.commonsName)) :=
  transform_of_commons rfl rfl binding skipSimple

end ClassDecl

namespace ClassesOutcome

variable {decl : ClassDecl} {binding : FacadeBinding} {skipSimple : Bool}

/-- The first class is taken to its result and the run goes on, unless the class is refused. -/
theorem ofClasses_cons_eq (decl : ClassDecl) (rest : List ClassDecl) :
    ofClasses binding skipSimple (decl :: rest) =
      match decl.transform binding skipSimple with
      | .error error => ⟨decl :: rest, [], some error⟩
      | .ok none =>
        { ofClasses binding skipSimple rest with classes := decl :: (ofClasses binding skipSimple rest).classes }
      | .ok (some (changed, report)) =>
        { ofClasses binding skipSimple rest with
          classes := changed :: (ofClasses binding skipSimple rest).classes
          reports := report :: (ofClasses binding skipSimple rest).reports } := by
  rw [ofClasses, decl.transformInPlace_eq]
  cases decl.transform binding skipSimple with
  | error error => rfl
  | ok result =>
    cases result with
    | none => rfl
    | some pair => rfl

theorem ofClasses_singleton {changed : ClassDecl} {report : ClassReport}
    (h : decl.transform binding skipSimple = .ok (some (changed, report))) :
    ofClasses binding skipSimple [decl] = ⟨[changed], [report], none⟩ := by
  rw [ofClasses_cons_eq, h]
  rfl

theorem ofClasses_of_commons (hrequest : decl.request? = some { name := "Commons" })
    (hnew : decl.field? LoggerRequest.defaultFieldName = none) (binding : FacadeBinding) :
    ofClasses binding false [decl] =
      ⟨[decl.withLogger binding ⟨LoggerRequest.defaultFieldName, false⟩],
        [decl.report ⟨LoggerRequest.defaultFieldName, false⟩ Strategy.commonsName], none⟩ :=
  ofClasses_singleton (ClassDecl.transform_of_commons hrequest hnew binding false)

end ClassesOutcome

end GuardedLogging
