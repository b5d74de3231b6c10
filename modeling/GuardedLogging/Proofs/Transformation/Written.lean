import GuardedLogging.Proofs.CompilationUnit.RoundTrip
import GuardedLogging.Proofs.Transformation.Frame

/-!
# Transformed units can be written

A source can say what a transformation adds: a field with the logger's name, the two types of the facade, and guards. So a transformed unit is written and read back like one that was parsed.
-/

namespace GuardedLogging

open GuardedLogging.Expr

/-- A binding that came from a class path; every binding that was settled did. -/
def FacadeBinding.IsResolved (binding : FacadeBinding) : Prop := ∃ classPath, binding = .resolve classPath

variable {binding : FacadeBinding} {guarding : Guarding} {localTypes declared : List String}
  {package : String}

namespace FacadeBinding

theorem isDotted_logger (h : binding.IsResolved) : binding.logger.IsDotted := by
  obtain ⟨classPath, rfl⟩ := h
  show isDottedName Facade.loggerTypeName = true
  decide

theorem isDotted_factory (h : binding.IsResolved) : binding.factory.IsDotted := by
  obtain ⟨classPath, rfl⟩ := h
  show isDottedName Facade.factoryTypeName = true
  decide

end FacadeBinding

theorem BindingState.isResolved_settle {state : BindingState} (hstate : ∀ binding ∈ state, binding.IsResolved)
    (classPath : ClassPath) : (state.settle classPath).IsResolved := by
  cases state with
  | none => exact ⟨classPath, rfl⟩
  | some binding => exact hstate binding rfl

namespace Guarding

theorem isWritten_guardField {owner : String} {field : Field}
    (h : field.IsWritten TypeRef.IsDotted (Expr.IsWritten localTypes) owner) :
    (guarding.guardField field).IsWritten TypeRef.IsDotted (Expr.IsWritten localTypes) owner where
  name := h.name
  type := h.type
  initial := by
    rcases h.initial with habsent | hwritten
    · refine .inl ?_
      rw [guardField, habsent]
      rfl
    · exact .inr (isWritten_guard hwritten)
  owner := h.owner

theorem isWritten_guardMethod {method : Method}
    (h : method.IsWritten TypeRef.IsDotted (Expr.IsWritten localTypes)) :
    (guarding.guardMethod method).IsWritten TypeRef.IsDotted (Expr.IsWritten localTypes) := by
  unfold guardMethod
  split
  · exact h
  · exact ⟨h.name, h.returnType, h.parameters, h.distinct,
      List.forall_mem_map.mpr fun statement hstatement => isWritten_guard (h.body statement hstatement)⟩

end Guarding

namespace ClassDecl

variable {decl : ClassDecl}

theorem isWritten_loggerField (hdeclared : ∀ name ∈ declared, isName name = true)
    (hbinding : binding.IsResolved) (hlogger : isName guarding.logger = true)
    (hdecl : isDottedName decl.name = true) :
    (binding.loggerField decl guarding.logger).IsWritten TypeRef.IsDotted
      (Expr.IsWritten (declared.map (qualify package))) decl.name where
  name := hlogger
  type := by
    rintro known hknown
    cases Option.mem_some.mp hknown
    exact FacadeBinding.isDotted_logger hbinding
  initial := by
    have hmethod : isWord Facade.factoryMethod = true := by decide
    refine .inr (EveryNode.call_iff.mpr ⟨hmethod, ?_, ?_⟩)
    · exact EveryNode.classRef_iff.mpr
        (TypeRef.isDottedName_toSource hdeclared (FacadeBinding.isDotted_factory hbinding))
    · exact List.forall_mem_singleton.mpr
        (EveryNode.classRef_iff.mpr (TypeRef.isDottedName_toSource hdeclared hdecl))
  owner := rfl

theorem nodup_fields_withLogger (hnew : decl.field? guarding.logger = none)
    (h : (decl.fields.map (·.name)).Nodup) :
    ((decl.withLogger binding guarding).fields.map (·.name)).Nodup := by
  have hfields : ∀ field ∈ decl.fields, field.name ≠ guarding.logger := by
    simpa [field?] using hnew
  have hnames : (decl.fields.map guarding.guardField).map (·.name) = decl.fields.map (·.name) := by
    rw [List.map_map]
    rfl
  show (guarding.logger :: (decl.fields.map guarding.guardField).map (·.name)).Nodup
  rw [hnames, List.nodup_cons]
  refine ⟨fun hmem => ?_, h⟩
  obtain ⟨field, hfield, hname⟩ := List.mem_map.mp hmem
  exact hfields field hfield hname

theorem isWritten_withLogger (hdeclared : ∀ name ∈ declared, isName name = true)
    (hpackage : package = "" ∨ isDottedName package = true) (hbinding : binding.IsResolved)
    (hlogger : isName guarding.logger = true) (hnew : decl.field? guarding.logger = none)
    (h : decl.IsWritten package TypeRef.IsDotted (Expr.IsWritten (declared.map (qualify package)))) :
    (decl.withLogger binding guarding).IsWritten package TypeRef.IsDotted
      (Expr.IsWritten (declared.map (qualify package))) where
  fields := by
    have hname : isDottedName decl.name = true := by
      rw [h.name]
      exact isDottedName_qualify hpackage h.simpleName
    refine List.forall_mem_cons.mpr ⟨isWritten_loggerField hdeclared hbinding hlogger hname, ?_⟩
    exact List.forall_mem_map.mpr fun field hfield => Guarding.isWritten_guardField (h.fields field hfield)
  distinct := nodup_fields_withLogger hnew h.distinct
  methods := List.forall_mem_map.mpr fun method hmethod =>
    Guarding.isWritten_guardMethod (h.methods method hmethod)
  simpleName := h.simpleName
  name := h.name
  annotations := fun mark hmark => h.annotations mark (List.mem_of_mem_eraseP hmark)

end ClassDecl

namespace ClassesOutcome

theorem isWritten_ofClasses {skipSimple : Bool} {decls : List ClassDecl}
    (hdeclared : ∀ name ∈ declared, isName name = true)
    (hpackage : package = "" ∨ isDottedName package = true) (hbinding : binding.IsResolved)
    (h : ∀ decl ∈ decls, decl.IsWritten package TypeRef.IsDotted
      (Expr.IsWritten (declared.map (qualify package))))
    (hnames : ∀ report ∈ (ofClasses binding skipSimple decls).reports, isName report.fieldName = true) :
    (ofClasses binding skipSimple decls).classes.map (·.name) = decls.map (·.name) ∧
      ∀ decl ∈ (ofClasses binding skipSimple decls).classes, decl.IsWritten package TypeRef.IsDotted
        (Expr.IsWritten (declared.map (qualify package))) := by
  induction decls with
  | nil => exact ⟨rfl, List.forall_mem_nil _⟩
  | cons decl decls ih =>
    obtain ⟨hdecl, hdecls⟩ := List.forall_mem_cons.mp h
    rw [ofClasses_cons_eq] at hnames ⊢
    cases htransform : decl.transform binding skipSimple with
    | error error => exact ⟨rfl, h⟩
    | ok result =>
      simp only [htransform] at hnames ⊢
      cases result with
      | none =>
        obtain ⟨hsame, hall⟩ := ih hdecls hnames
        exact ⟨congrArg (decl.name :: ·) hsame, List.forall_mem_cons.mpr ⟨hdecl, hall⟩⟩
      | some pair =>
        obtain ⟨changed, report⟩ := pair
        obtain ⟨hname, hothers⟩ := List.forall_mem_cons.mp hnames
        obtain ⟨hsame, hall⟩ := ih hdecls hothers
        obtain ⟨mark, request, strategy, _, haccept, rfl, rfl⟩ :=
          ClassDecl.transform_eq_ok_some_iff.mp htransform
        obtain ⟨_, _, hnew⟩ := ClassDecl.accept_eq_ok_iff.mp haccept
        refine ⟨congrArg (decl.name :: ·) hsame, List.forall_mem_cons.mpr ⟨?_, hall⟩⟩
        exact ClassDecl.isWritten_withLogger hdeclared hpackage hbinding hname hnew hdecl

end ClassesOutcome

namespace CompilationUnit

variable {unit parsed : CompilationUnit}

theorem isWritten_of_isParsed (h : parsed.IsWritten TypeRef.IsParsed Expr.IsParsed) :
    parsed.IsWritten TypeRef.IsDotted (Expr.IsWritten parsed.classNames) :=
  h.imp (fun _ _ _ _ htype => htype.dotted) fun _ _ _ _ hexpr =>
    hexpr.mono fun _ => Expr.isWritten_of_isParsedNode parsed.classNames

/-- A unit that can be parsed is parsed from its own text, under the four conditions. -/
theorem parse_toSource (h : parsed.IsWritten TypeRef.IsParsed Expr.IsParsed)
    (hintegers : parsed.HasIntegersOnly) (hseparated : parsed.IsSeparated) (hclear : parsed.IsClear)
    (hclass : parsed.HasNoClass) : parse parsed.toSource parsed.name = .ok parsed := by
  have hindent : IsIndent defaultIndent := by decide +kernel
  have hread := readBack_of_isWritten hindent (isWritten_of_isParsed h) hintegers hseparated hclear hclass
  rwa [asRead_of_isParsed h] at hread

theorem isWritten_transform {state : BindingState} {classPath : ClassPath} {skipSimple : Bool}
    {report : UnitReport} (hstate : ∀ binding ∈ state, binding.IsResolved)
    (h : parsed.IsWritten TypeRef.IsDotted (Expr.IsWritten parsed.classNames))
    (hresult : (parsed.transform state classPath skipSimple).result = .ok report)
    (hnames : ∀ decl ∈ report.classes, isName decl.fieldName = true) :
    (parsed.transform state classPath skipSimple).unit.IsWritten TypeRef.IsDotted
      (Expr.IsWritten (parsed.transform state classPath skipSimple).unit.classNames) := by
  have hbinding := state.isResolved_settle hstate (classPath.withUnit parsed)
  have hreports : ∀ decl ∈ (ClassesOutcome.ofClasses (state.settle (classPath.withUnit parsed)) skipSimple
      parsed.classes).reports, isName decl.fieldName = true := by
    unfold transform at hresult
    simp only at hresult
    split at hresult
    · cases hresult
    · cases hresult
      exact hnames
  have hclasses := h.classes
  rw [classNames_eq h] at hclasses
  obtain ⟨hsame, hall⟩ := ClassesOutcome.isWritten_ofClasses (isName_of_mem_simpleNames h) h.package
    hbinding hclasses hreports
  have hclassNames : (parsed.transform state classPath skipSimple).unit.classNames = parsed.classNames :=
    hsame
  rw [hclassNames, classNames_eq h]
  refine ⟨h.text, h.package, hall, ?_⟩
  rw [hclassNames]
  exact h.distinct

/-- The unit was parsed, or it is the outcome of a transformation that gave the loggers names that a source can say. -/
inductive ComesFrom (parsed : CompilationUnit) : CompilationUnit → Prop
  | parsed : ComesFrom parsed parsed
  | transformed (state : BindingState) (classPath : ClassPath) (skipSimple : Bool) (report : UnitReport)
      (hstate : ∀ binding ∈ state, binding.IsResolved)
      (hresult : (parsed.transform state classPath skipSimple).result = .ok report)
      (hnames : ∀ decl ∈ report.classes, isName decl.fieldName = true) :
      ComesFrom parsed (parsed.transform state classPath skipSimple).unit

end CompilationUnit

open CompilationUnit in
/-- Written units are read back: the text of a unit that comes from a source declares the unit as it is read, and the unit itself if it was not transformed. -/
theorem written_units_are_read_back (source : String) (name : Scalar) (parsed unit : CompilationUnit)
    (indent : String) (hparse : parse source name = .ok parsed) (hunit : parsed.ComesFrom unit)
    (hindent : IsIndent indent) (hintegers : unit.HasIntegersOnly) (hseparated : unit.IsSeparated)
    (hclear : unit.IsClear) (hclass : unit.HasNoClass) :
    unit.readBack indent = .ok unit.asRead ∧ (unit = parsed → unit.asRead = unit) := by
  have hparsed := isParsed_of_parse hparse
  have hwritten : unit.IsWritten TypeRef.IsDotted (Expr.IsWritten unit.classNames) := by
    cases hunit with
    | parsed => exact isWritten_of_isParsed hparsed
    | transformed state classPath skipSimple report hstate hresult hnames =>
      exact isWritten_transform hstate (isWritten_of_isParsed hparsed) hresult hnames
  refine ⟨readBack_of_isWritten hindent hwritten hintegers hseparated hclear hclass, ?_⟩
  rintro rfl
  exact asRead_of_isParsed hparsed

/-- The sample service in a package, with a type for its field. -/
def ClassDecl.packagedService : ClassDecl :=
  let typed (field : Field) : Field :=
    { field with type := some ⟨"java.lang.Boolean", false⟩, owner := "demo.Service" }
  { sampleService with name := "demo.Service", fields := sampleService.fields.map typed }

namespace CompilationUnit

def sampleUnit : CompilationUnit :=
  { name := .text "Service", package := .text "demo", classes := [ClassDecl.packagedService] }

theorem isWritten_sampleUnit : sampleUnit.IsWritten TypeRef.IsParsed Expr.IsParsed where
  text := rfl
  package := .inr (by decide)
  classes := by
    have hboolean : TypeRef.IsParsed ⟨"java.lang.Boolean", false⟩ := ⟨by decide, rfl⟩
    have hparameter : ∀ name, isName name = true →
        ∀ parameter ∈ [({ name } : Parameter)], parameter.IsWritten TypeRef.IsParsed :=
      fun name hname => List.forall_mem_singleton.mpr ⟨hname, nofun⟩
    refine List.forall_mem_singleton.mpr
      { fields := List.forall_mem_singleton.mpr ⟨by decide, ?_, .inr (by decide), rfl⟩
        distinct := by decide
        methods := List.forall_mem_cons.mpr ⟨?_, List.forall_mem_singleton.mpr ?_⟩
        simpleName := by decide
        name := by decide
        annotations := List.forall_mem_cons.mpr ⟨?_, List.forall_mem_singleton.mpr ?_⟩ }
    · rintro known hknown
      cases Option.mem_some.mp hknown
      exact hboolean
    · exact ⟨by decide, nofun, hparameter "host" (by decide), by decide, by decide⟩
    · exact ⟨by decide, nofun, hparameter "log" (by decide), by decide, by decide⟩
    · exact ⟨by decide, nofun, List.nodup_nil⟩
    · exact ⟨by decide, nofun, List.nodup_nil⟩
  distinct := by decide

theorem parse_sampleUnit : parse sampleUnit.toSource sampleUnit.name = .ok sampleUnit :=
  parse_toSource isWritten_sampleUnit ⟨by decide, by decide⟩ (by decide +kernel) ⟨by decide, by decide⟩
    ⟨by decide, by decide, by decide, by decide⟩

theorem result_transform_of_ofClasses {state : BindingState} {classPath : ClassPath} {skipSimple : Bool}
    {classes : List ClassDecl} {reports : List ClassReport}
    (h : ClassesOutcome.ofClasses (state.settle (classPath.withUnit unit)) skipSimple unit.classes
      = ⟨classes, reports, none⟩) :
    (unit.transform state classPath skipSimple).result = .ok ⟨unit.name, reports⟩ := by
  unfold transform
  simp only [h]

theorem transform_sampleUnit :
    ∃ report, (sampleUnit.transform none .empty false).result = .ok report ∧
      ∀ decl ∈ report.classes, isName decl.fieldName = true := by
  refine ⟨_, result_transform_of_ofClasses (ClassesOutcome.ofClasses_of_commons rfl rfl _),
    List.forall_mem_singleton.mpr ?_⟩
  show isName LoggerRequest.defaultFieldName = true
  decide

end CompilationUnit

open CompilationUnit in
/-- The sample unit with its logger, indented by a tab. -/
theorem sampleUnit_is_read_back :
    let unit := (sampleUnit.transform none .empty false).unit
    parse sampleUnit.toSource sampleUnit.name = .ok sampleUnit ∧ sampleUnit.ComesFrom unit ∧
      IsIndent "\t" ∧ unit.HasIntegersOnly ∧ unit.IsSeparated ∧ unit.IsClear ∧ unit.HasNoClass ∧
      unit.readBack "\t" = .ok unit.asRead ∧ (unit = sampleUnit → unit.asRead = unit) := by
  intro unit
  obtain ⟨report, hresult, hnames⟩ := transform_sampleUnit
  have hunit : sampleUnit.ComesFrom unit :=
    .transformed none .empty false report nofun hresult hnames
  have hindent : IsIndent "\t" := by decide +kernel
  have hintegers : unit.HasIntegersOnly := ⟨by decide +kernel, by decide +kernel⟩
  have hseparated : unit.IsSeparated := by decide +kernel
  have hclear : unit.IsClear := ⟨by decide +kernel, by decide +kernel⟩
  have hclass : unit.HasNoClass :=
    ⟨by decide +kernel, by decide +kernel, by decide +kernel, by decide +kernel⟩
  exact ⟨parse_sampleUnit, hunit, hindent, hintegers, hseparated, hclear, hclass,
    written_units_are_read_back _ _ _ _ _ parse_sampleUnit hunit hindent hintegers hseparated hclear
      hclass⟩

end GuardedLogging
