import GuardedLogging.Proofs.Guard.Tally
import GuardedLogging.Proofs.Transformation.SecondRun

/-!
# What the audit says of a transformed class

The audit counts the calls of a class on its own. After a transformation without skipping it finds the calls that were wrapped and those that were guarded already, and no others, with one exception: it also counts the calls of methods in which the logger's name means a parameter, which guarding leaves alone. It takes a class that asked twice for one that was not transformed.
-/

namespace GuardedLogging

namespace Audit

open Tally

theorem tallyAll_append (logger : String) (left right : List Expr) :
    tallyAll logger (left ++ right) = tallyAll logger left + tallyAll logger right := by
  induction left with
  | nil => ext <;> simp [tallyAll]
  | cons expr rest ih =>
    rw [List.cons_append, tallyAll, ih, tallyAll]
    ext <;> simp [Nat.add_assoc]

theorem foldl_tally (logger : String) (entries : List (String × Expr)) (start : Tally) :
    entries.foldl (fun sum entry => sum + tally logger entry.2) start
      = start + tallyAll logger (entries.map (·.2)) := by
  induction entries generalizing start with
  | nil => ext <;> simp [tallyAll]
  | cons entry rest ih =>
    rw [List.foldl_cons, ih, List.map_cons, tallyAll]
    ext <;> simp [Nat.add_assoc]

end Audit

/-- The expressions of a method, in their order. -/
def Method.exprs (method : Method) : List Expr := method.body.map (·.expr)

namespace ClassDecl

open Audit

variable {decl : ClassDecl} {logger : String}

/-- The logging calls in the methods in which the logger's name means a parameter. -/
def shadowedTally (decl : ClassDecl) (logger : String) : Tally :=
  tallyAll logger ((decl.methods.filter (·.parameterNames.contains logger)).flatMap Method.exprs)

/-- The calls of a class are those of its initial values and those of its methods; an absent value has none. -/
theorem tallyAll_expressions (decl : ClassDecl) (logger : String) :
    tallyAll logger (decl.expressions.map (·.2))
      = tallyAll logger (decl.fields.map (·.initial))
        + tallyAll logger (decl.methods.flatMap Method.exprs) := by
  have hinitials : tallyAll logger ((decl.fields.filter (!·.initial.isAbsent)).map (·.initial))
      = tallyAll logger (decl.fields.map (·.initial)) := by
    induction decl.fields with
    | nil => rfl
    | cons field rest ih =>
      by_cases habsent : field.initial.isAbsent = true
      · rw [List.filter_cons_of_neg (by simp [habsent]), ih, List.map_cons, tallyAll,
          Expr.eq_absent_of_isAbsent habsent]
        ext <;> simp [tally]
      · rw [List.filter_cons_of_pos (by simp [habsent]), List.map_cons, tallyAll, ih, List.map_cons,
          tallyAll]
  have hbodies : (decl.methods.flatMap fun method =>
      method.body.map fun statement => (decl.name ++ "." ++ method.name ++ "()", statement.expr)).map (·.2)
        = decl.methods.flatMap Method.exprs := by
    rw [List.map_flatMap]
    exact List.flatMap_congr fun method _ => List.map_map ..
  rw [expressions, List.map_append, hbodies, tallyAll_append, List.map_map]
  exact congrArg (· + _) hinitials

end ClassDecl

namespace Guarding

open Audit Audit.Tally Decision

variable {guarding : Guarding}

theorem decisionsAll_eq_flatMap (exprs : List Expr) :
    guarding.decisionsAll exprs = exprs.flatMap guarding.decisions := by
  induction exprs with
  | nil => rfl
  | cons expr rest ih => rw [decisionsAll, ih, List.flatMap_cons]

theorem tallyAll_map_guard (hskip : guarding.skipSimple = false) (exprs : List Expr) :
    tallyAll guarding.logger (exprs.map guarding.guard)
      = allGuarded (guards (exprs.flatMap guarding.decisions)) := by
  rw [← guardAll_eq_map, ← decisionsAll_eq_flatMap]
  exact tallyAll_guardAll fun expr _ => tally_guard_eq_allGuarded hskip expr

/-- Guarding leaves the calls of the methods that it does not enter, and guards those of the others. -/
theorem tallyAll_map_guardMethod (hskip : guarding.skipSimple = false) (methods : List Method) :
    tallyAll guarding.logger ((methods.map guarding.guardMethod).flatMap Method.exprs)
      = allGuarded (guards ((methods.filter (!guarding.isShadowedIn ·)).flatMap fun method =>
          method.exprs.flatMap guarding.decisions))
        + tallyAll guarding.logger ((methods.filter guarding.isShadowedIn).flatMap Method.exprs) := by
  induction methods with
  | nil => rfl
  | cons method rest ih =>
    rw [List.map_cons, List.flatMap_cons, tallyAll_append, ih]
    by_cases hshadowed : guarding.isShadowedIn method = true
    · rw [guardMethod, if_pos hshadowed, List.filter_cons_of_pos hshadowed,
        List.filter_cons_of_neg (by simp [hshadowed]), List.flatMap_cons, tallyAll_append]
      ext <;> simp [Nat.add_left_comm]
    · have hexprs : (guarding.guardMethod method).exprs = method.exprs.map guarding.guard := by
        rw [guardMethod, if_neg hshadowed, Method.exprs, Method.exprs, List.map_map, List.map_map]
        rfl
      rw [hexprs, tallyAll_map_guard hskip, List.filter_cons_of_neg hshadowed,
        List.filter_cons_of_pos (by simp [hshadowed]), List.flatMap_cons, guards_append,
        ← allGuarded_add]
      ext <;> simp [Nat.add_assoc]

end Guarding

namespace ClassDecl

open Audit Audit.Tally

variable {decl : ClassDecl} {binding : FacadeBinding}

/-- The calls of a class with its logger: those that were guarded, and those of the methods that guarding did not enter. -/
theorem tallyAll_expressions_withLogger (logger : String) :
    tallyAll logger ((decl.withLogger binding ⟨logger, false⟩).expressions.map (·.2))
      = allGuarded (Decision.guards (Guarding.decisionsInClass ⟨logger, false⟩ decl))
        + decl.shadowedTally logger := by
  let guarding : Guarding := ⟨logger, false⟩
  have hfields : tallyAll logger ((decl.withLogger binding guarding).fields.map (·.initial))
      = allGuarded (Decision.guards ((decl.fields.map (·.initial)).flatMap guarding.decisions)) := by
    have hinitials : (decl.withLogger binding guarding).fields.map (·.initial)
        = (binding.loggerField decl logger).initial :: (decl.fields.map (·.initial)).map guarding.guard := by
      show _ :: (decl.fields.map guarding.guardField).map (·.initial) = _
      rw [List.map_map, List.map_map]
      rfl
    have hlogger : tally logger (binding.loggerField decl logger).initial = {} := rfl
    rw [hinitials, tallyAll, hlogger, @Guarding.tallyAll_map_guard guarding rfl]
    ext <;> simp
  have hmethods : tallyAll logger ((decl.withLogger binding guarding).methods.flatMap Method.exprs) = _ :=
    @Guarding.tallyAll_map_guardMethod guarding rfl decl.methods
  have hdecisions : guarding.decisionsInClass decl
      = (decl.fields.map (·.initial)).flatMap guarding.decisions
        ++ (decl.methods.filter (!guarding.isShadowedIn ·)).flatMap fun method =>
          method.exprs.flatMap guarding.decisions := by
    simp only [Guarding.decisionsInClass, Guarding.decisionsInFields, Guarding.decisionsInMethods, Method.exprs, List.flatMap_map]
  rw [tallyAll_expressions, hfields, hmethods, hdecisions, Decision.guards_append, ← allGuarded_add,
    shadowedTally]
  ext
  · exact (Nat.add_assoc ..).symm
  · exact (Nat.add_assoc ..).symm

theorem loggerName_withLogger (hbinding : binding.IsResolved) {guarding : Guarding}
    (hrequest : (decl.withLogger binding guarding).request? = none) :
    (decl.withLogger binding guarding).loggerName = (some guarding.logger, false) := by
  obtain ⟨classPath, rfl⟩ := hbinding
  have hnone : (decl.withLogger (.resolve classPath) guarding).annotations.find? Annotation.isRequest
      = none := hrequest
  rw [loggerName, hnone]
  rfl

theorem annotated_audit (decl : ClassDecl) : decl.audit.annotated = decl.request?.isSome := by
  unfold audit loggerName request?
  cases decl.annotations.find? Annotation.isRequest with
  | none => rfl
  | some mark =>
    simp only
    split <;> rfl

theorem audit_withLogger (hbinding : binding.IsResolved) {logger : String}
    (hrequest : (decl.withLogger binding ⟨logger, false⟩).request? = none) :
    (decl.withLogger binding ⟨logger, false⟩).audit =
      { name := decl.name
        loggerField := some logger
        annotated := false
        tally := allGuarded (Decision.guards (Guarding.decisionsInClass ⟨logger, false⟩ decl))
          + decl.shadowedTally logger } := by
  rw [audit, loggerName_withLogger hbinding hrequest]
  simp only [foldl_tally, tallyAll_expressions_withLogger]
  congr 1
  ext <;> simp

end ClassDecl

/-- An audit of a class agrees with the report of its transformation, and finds every logging call guarded. -/
structure ClassAudit.Confirms (audit : ClassAudit) (report : ClassReport) : Prop where
  annotated : audit.annotated = false
  loggerField : audit.loggerField = some report.fieldName
  unguarded : audit.tally.unguarded = 0
  guarded : audit.tally.guarded = report.wrapped + report.alreadyGuarded

theorem ClassAudit.Confirms.warningFor?_eq_none {audit : ClassAudit} {report : ClassReport}
    (h : audit.Confirms report) : UnitAudit.warningFor? audit = none := by
  unfold UnitAudit.warningFor?
  rw [if_neg (by simp [h.annotated]), if_pos h.unguarded]

namespace ClassDecl

open Audit Audit.Tally

variable {decl changed : ClassDecl} {binding : FacadeBinding} {report : ClassReport}

/-- The audit confirms the report of a class if the class asked once, and no method logs in which the logger's name means a parameter. -/
theorem confirms_iff (hbinding : binding.IsResolved)
    (h : decl.transform binding false = .ok (some (changed, report))) :
    changed.audit.Confirms report ↔
      decl.annotations.countP Annotation.isRequest ≤ 1 ∧ decl.shadowedTally report.fieldName = {} := by
  have hrequest : changed.request? = none ↔ decl.annotations.countP Annotation.isRequest ≤ 1 :=
    (transformsTo_iff.mpr (.inr ⟨changed, report, h, rfl⟩)).request?_eq_none_iff
  obtain ⟨_, request, strategy, _, _, rfl, rfl⟩ := transform_eq_ok_some_iff.mp h
  rw [← hrequest]
  constructor
  · intro hconfirms
    have hnone : (decl.withLogger binding ⟨request.fieldName, false⟩).request? = none := by
      have hannotated := hconfirms.annotated
      rwa [annotated_audit, Option.isSome_eq_false_iff, Option.isNone_iff_eq_none] at hannotated
    have hunguarded := hconfirms.unguarded
    have hguarded := hconfirms.guarded
    rw [audit_withLogger hbinding hnone] at hunguarded hguarded
    refine ⟨hnone, Tally.ext ?_ ?_⟩
    · exact Nat.add_eq_left.mp hguarded
    · exact (Nat.zero_add _).symm.trans hunguarded
  · rintro ⟨hnone, hshadowed⟩
    have hsilent : decl.shadowedTally request.fieldName = {} := hshadowed
    rw [audit_withLogger hbinding hnone, hsilent]
    exact ⟨rfl, rfl, rfl, rfl⟩

end ClassDecl

namespace UnitAudit

/-- What a warning about types that do not resolve says. -/
def unresolvedWarning (audit : UnitAudit) : String :=
  "Unresolved types: " ++ ", ".intercalate audit.unresolvedTypes

theorem mem_warnings_addWarning {audit : UnitAudit} {given warning : String} :
    warning ∈ (audit.addWarning given).warnings ↔ warning ∈ audit.warnings ∨ warning = given := by
  unfold addWarning
  split
  · rename_i hold
    constructor
    · exact .inl
    · rintro (h | rfl)
      · exact h
      · exact List.contains_iff_mem.mp hold
  · rw [List.mem_append, List.mem_singleton]

theorem mem_warnings_foldl {given : List String} {audit : UnitAudit} {warning : String} :
    warning ∈ (given.foldl addWarning audit).warnings ↔ warning ∈ audit.warnings ∨ warning ∈ given := by
  induction given generalizing audit with
  | nil => simp
  | cons first rest ih => rw [List.foldl_cons, ih, mem_warnings_addWarning, List.mem_cons, or_assoc]

theorem exists_foldl_addWarning_eq (given : List String) (audit : UnitAudit) :
    ∃ warnings, given.foldl addWarning audit = { audit with warnings } := by
  induction given generalizing audit with
  | nil => exact ⟨audit.warnings, rfl⟩
  | cons first rest ih =>
    obtain ⟨warnings, h⟩ := ih (audit.addWarning first)
    refine ⟨warnings, h.trans ?_⟩
    unfold addWarning
    split <;> rfl

theorem classes_foldl_addWarning (given : List String) (audit : UnitAudit) :
    (given.foldl addWarning audit).classes = audit.classes := by
  obtain ⟨warnings, h⟩ := exists_foldl_addWarning_eq given audit
  rw [h]

theorem unresolvedTypes_foldl_addWarning (given : List String) (audit : UnitAudit) :
    (given.foldl addWarning audit).unresolvedTypes = audit.unresolvedTypes := by
  obtain ⟨warnings, h⟩ := exists_foldl_addWarning_eq given audit
  rw [h]

end UnitAudit

namespace CompilationUnit

theorem classes_audit (unit : CompilationUnit) (classPath : ClassPath) :
    (unit.audit classPath).classes = unit.classes.map ClassDecl.audit := by
  rw [audit, UnitAudit.classes_foldl_addWarning]

theorem exists_of_mem_warnings_audit {unit : CompilationUnit} {classPath : ClassPath} {warning : String}
    (h : warning ∈ (unit.audit classPath).warnings) :
    (∃ decl ∈ (unit.audit classPath).classes, UnitAudit.warningFor? decl = some warning) ∨
      warning = (unit.audit classPath).unresolvedWarning := by
  unfold UnitAudit.unresolvedWarning
  rw [classes_audit]
  rw [audit] at h ⊢
  rw [UnitAudit.unresolvedTypes_foldl_addWarning]
  refine (UnitAudit.mem_warnings_foldl.mp h).elim (fun hnone => absurd hnone List.not_mem_nil) fun hgiven => ?_
  refine (List.mem_append.mp hgiven).imp (fun hclass => List.mem_filterMap.mp hclass) fun htypes => ?_
  split at htypes
  · cases htypes
  · exact List.mem_singleton.mp htypes

theorem class?_audit {unit : CompilationUnit} (hdistinct : unit.classNames.Nodup) {decl : ClassDecl}
    (hdecl : decl ∈ unit.classes) (classPath : ClassPath) :
    (unit.audit classPath).class? decl.name = some decl.audit := by
  obtain ⟨other, hother⟩ : ∃ other, unit.classes.find? (·.audit.name == decl.name) = some other :=
    Option.isSome_iff_exists.mp (List.find?_isSome.mpr ⟨decl, hdecl, beq_self_eq_true _⟩)
  have hname : other.name = decl.name :=
    beq_iff_eq.mp (List.find?_some (p := fun other : ClassDecl => other.audit.name == decl.name) hother)
  have hsame : other = decl :=
    List.inj_on_of_nodup_map hdistinct (List.mem_of_find?_eq_some hother) hdecl hname
  rw [UnitAudit.class?, classes_audit, List.find?_map]
  exact congrArg (Option.map ClassDecl.audit) (hother.trans (congrArg some hsame))

end CompilationUnit

/-- An audit of a unit agrees with the report of the transformation of a class, and warns only of other classes and of types that do not resolve. -/
structure UnitAudit.Confirms (audit : UnitAudit) (report : ClassReport) : Prop where
  found : ∃ decl, audit.class? report.className = some decl ∧ decl.Confirms report
  warnings : ∀ warning ∈ audit.warnings,
    (∃ decl ∈ audit.classes, decl.name ≠ report.className ∧ warningFor? decl = some warning) ∨
      warning = audit.unresolvedWarning

namespace CompilationUnit

variable {unit : CompilationUnit} {decl : ClassDecl} {report : ClassReport}

theorem confirms_audit_iff (hdistinct : unit.classNames.Nodup) (hdecl : decl ∈ unit.classes)
    (hname : report.className = decl.name) (classPath : ClassPath) :
    (unit.audit classPath).Confirms report ↔ decl.audit.Confirms report := by
  have hfound : (unit.audit classPath).class? report.className = some decl.audit := by
    rw [hname, class?_audit hdistinct hdecl]
  constructor
  · rintro ⟨⟨other, hother, hconfirms⟩, _⟩
    cases hfound.symm.trans hother
    exact hconfirms
  · intro hconfirms
    refine ⟨⟨decl.audit, hfound, hconfirms⟩, fun warning hwarning => ?_⟩
    refine (exists_of_mem_warnings_audit hwarning).imp_left ?_
    rintro ⟨other, hother, hwarns⟩
    refine ⟨other, hother, fun hsame => ?_, hwarns⟩
    -- The class itself gives no cause for a warning, and no other class has its name.
    rw [classes_audit] at hother
    obtain ⟨otherDecl, hmem, rfl⟩ := List.mem_map.mp hother
    have heq : otherDecl = decl := List.inj_on_of_nodup_map hdistinct hmem hdecl (hsame.trans hname)
    rw [heq, hconfirms.warningFor?_eq_none] at hwarns
    cases hwarns

end CompilationUnit

open CompilationUnit in
/-- The audit of a transformed unit agrees with the report on a class, and warns of nothing there, exactly if the class asked for one logger and no method logs in which the logger's name means a parameter. -/
theorem audit_confirms_transformation_iff (source : String) (name : Scalar) (parsed : CompilationUnit)
    (state : BindingState) (classPath auditPath : ClassPath) (report : UnitReport)
    (hparse : parse source name = .ok parsed) (hstate : ∀ binding ∈ state, binding.IsResolved)
    (hresult : (parsed.transform state classPath false).result = .ok report) :
    let audit := (parsed.transform state classPath false).unit.audit auditPath
    ∀ entry ∈ report.classes, ∃ decl ∈ parsed.classes, decl.name = entry.className ∧
      (audit.Confirms entry ↔
        decl.annotations.countP Annotation.isRequest ≤ 1 ∧ decl.shadowedTally entry.fieldName = {}) := by
  intro audit entry hentry
  obtain ⟨hnone, rfl⟩ := transform_eq_ok_iff.mp hresult
  obtain ⟨results, hresults, hclasses, hreports⟩ := ClassesOutcome.ofClasses_of_ok hnone
  have hchanged : (parsed.transform state classPath false).unit.classes = results.map (·.1) := hclasses
  have hdistinct : (parsed.transform state classPath false).unit.classNames.Nodup := by
    rw [classNames, hchanged, ClassesOutcome.map_name_results hresults]
    exact (isParsed_of_parse hparse).distinct
  have hmem : entry ∈ results.filterMap (·.2) := hreports ▸ hentry
  obtain ⟨decl, hdecl, changed, hafter, htransform⟩ := exists_of_mem_reports hresults hmem
  have hnames : entry.className = decl.name ∧ entry.className = changed.name := by
    obtain ⟨_, _, _, _, _, rfl, rfl⟩ := ClassDecl.transform_eq_ok_some_iff.mp htransform
    exact ⟨rfl, rfl⟩
  refine ⟨decl, hdecl, hnames.1.symm, ?_⟩
  have hfound : changed ∈ (parsed.transform state classPath false).unit.classes := hchanged ▸ hafter
  exact (confirms_audit_iff hdistinct hfound hnames.2 auditPath).trans
    (ClassDecl.confirms_iff (BindingState.isResolved_settle hstate _) htransform)

/-- The sample service without the method in which the logger's name means a parameter. -/
def ClassDecl.quietService : ClassDecl :=
  { packagedService with methods := packagedService.methods.take 1 }

namespace CompilationUnit

def quietUnit : CompilationUnit := { sampleUnit with classes := [ClassDecl.quietService] }

theorem parse_quietUnit : parse quietUnit.toSource quietUnit.name = .ok quietUnit := by
  have hservice := isWritten_sampleUnit.classes ClassDecl.packagedService List.mem_cons_self
  have hquiet : ClassDecl.quietService.IsWritten quietUnit.packageName TypeRef.IsParsed Expr.IsParsed :=
    { hservice with methods := fun method hmethod => hservice.methods method (List.mem_of_mem_take hmethod) }
  have hwritten : quietUnit.IsWritten TypeRef.IsParsed Expr.IsParsed :=
    { isWritten_sampleUnit with
      classes := List.forall_mem_singleton.mpr hquiet
      distinct := by decide }
  exact parse_toSource hwritten ⟨by decide, by decide⟩ (by decide +kernel) ⟨by decide, by decide⟩
    ⟨by decide, by decide, by decide, by decide⟩

end CompilationUnit

open CompilationUnit in
theorem audit_confirms_transformation_of_quietUnit :
    let audit := (quietUnit.transform none .empty false).unit.audit .empty
    parse quietUnit.toSource quietUnit.name = .ok quietUnit ∧
      ∃ report entry, (quietUnit.transform none .empty false).result = .ok report ∧
        report.classes = [entry] ∧ audit.Confirms entry := by
  intro audit
  let entry := ClassDecl.quietService.report ⟨LoggerRequest.defaultFieldName, false⟩ Strategy.commonsName
  have hresult : (quietUnit.transform none .empty false).result = .ok ⟨quietUnit.name, [entry]⟩ :=
    result_transform_of_ofClasses (ClassesOutcome.ofClasses_of_commons rfl rfl _)
  obtain ⟨decl, hdecl, _, hconfirms⟩ := audit_confirms_transformation_iff quietUnit.toSource quietUnit.name
    quietUnit none .empty .empty _ parse_quietUnit nofun hresult entry List.mem_cons_self
  cases List.mem_singleton.mp hdecl
  exact ⟨parse_quietUnit, _, entry, hresult, rfl, hconfirms.mpr ⟨by decide, by decide +kernel⟩⟩

open CompilationUnit in
/-- The sample service logs to a parameter with the logger's name, and the audit calls that unguarded. -/
theorem audit_of_sampleUnit_finds_unguarded_call :
    let audit := (sampleUnit.transform none .empty false).unit.audit .empty
    parse sampleUnit.toSource sampleUnit.name = .ok sampleUnit ∧
      ∃ report entry, (sampleUnit.transform none .empty false).result = .ok report ∧
        report.classes = [entry] ∧ (∃ found, audit.class? entry.className = some found ∧
          found.tally.unguarded = 1) ∧ ¬ audit.Confirms entry := by
  intro audit
  let binding := BindingState.settle none (ClassPath.withUnit .empty sampleUnit)
  let guarding : Guarding := ⟨LoggerRequest.defaultFieldName, false⟩
  let changed := ClassDecl.packagedService.withLogger binding guarding
  let entry := ClassDecl.packagedService.report guarding Strategy.commonsName
  have hrun : ClassesOutcome.ofClasses binding false sampleUnit.classes = ⟨[changed], [entry], none⟩ :=
    ClassesOutcome.ofClasses_of_commons rfl rfl binding
  have hclasses : (sampleUnit.transform none .empty false).unit.classes = [changed] :=
    congrArg ClassesOutcome.classes hrun
  have hdistinct : (sampleUnit.transform none .empty false).unit.classNames.Nodup := by
    rw [classNames, hclasses]
    exact List.nodup_singleton _
  have hfound : audit.class? changed.name = some changed.audit :=
    class?_audit hdistinct (hclasses ▸ List.mem_cons_self) .empty
  have hunguarded : changed.audit.tally.unguarded = 1 := by
    have hbinding : binding.IsResolved := ⟨ClassPath.withUnit .empty sampleUnit, rfl⟩
    have hrequest : changed.request? = none := by decide +kernel
    have haudit : changed.audit = _ := ClassDecl.audit_withLogger hbinding hrequest
    rw [haudit]
    decide +kernel
  refine ⟨parse_sampleUnit, _, _, result_transform_of_ofClasses hrun, rfl, ⟨_, hfound, hunguarded⟩, ?_⟩
  rintro ⟨⟨found, hother, hconfirms⟩, _⟩
  cases hfound.symm.trans hother
  cases hunguarded.symm.trans hconfirms.unguarded

end GuardedLogging
