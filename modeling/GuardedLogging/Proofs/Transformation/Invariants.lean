import GuardedLogging.Proofs.CompilationUnit.RoundTrip
import GuardedLogging.Proofs.Transformation.SecondRun

/-!
# What holds of a unit after any runs

A source declares its classes, their fields and the parameters of their methods under different names. A run adds one field to a class, under a name that is new there, and puts guards around calls; a run that fails has done this to some of the classes. So the names stay different, and expressions stay complete, however often a unit is transformed.
-/

namespace GuardedLogging

/-- Whether the node may be part of an expression of a source: nothing is missing, and lists of arguments and conditions stand in no place but their own, in a call and in front of a ternary. -/
def Expr.isProperNode : Expr → Bool
  | .absent | .args _ | .condition _ => false
  | .const _ | .var _ | .classRef _ | .call .. | .property .. | .not _ | .ternary .. => true

/-- Nothing is missing in the expression, and nothing in it is out of its place. -/
abbrev Expr.IsProper : Expr → Prop := EveryNode (fun node => node.isProperNode = true)

structure Field.IsWellFormed (owner : String) (field : Field) : Prop where
  owner : field.owner = owner
  initial : field.initial = .absent ∨ field.initial.IsProper

structure Method.IsWellFormed (method : Method) : Prop where
  distinct : method.parameterNames.Nodup
  body : ∀ statement ∈ method.body, statement.expr.IsProper

/-- What is known of a class of a unit in the package. -/
structure ClassDecl.IsWellFormed (package : String) (decl : ClassDecl) : Prop extends
    ClassDecl.IsNamedIn package decl where
  distinct : (decl.fields.map (·.name)).Nodup
  fields : ∀ field ∈ decl.fields, field.IsWellFormed decl.name
  methods : ∀ method ∈ decl.methods, method.IsWellFormed

/-- What is known of a unit. -/
structure CompilationUnit.IsWellFormed (unit : CompilationUnit) : Prop where
  text : unit.package = .text unit.packageName
  distinct : unit.classNames.Nodup
  classes : ∀ decl ∈ unit.classes, decl.IsWellFormed unit.packageName

/-- One unit leads to the other by runs, each under any settings, whether it succeeds or fails. -/
inductive CompilationUnit.Reaches (unit : CompilationUnit) : CompilationUnit → Prop
  | refl : Reaches unit unit
  | run {later : CompilationUnit} (state : BindingState) (classPath : ClassPath) (skipSimple : Bool)
      (h : Reaches unit later) : Reaches unit (later.transform state classPath skipSimple).unit

namespace Expr

theorem isProperNode_of_isParsedNode {node : Expr} (h : node.isParsedNode = true) : node.isProperNode = true := by
  cases node with
  | absent | args _ | condition _ => cases h
  | _ => rfl

theorem IsParsed.isProper {expr : Expr} (h : expr.IsParsed) : expr.IsProper :=
  h.mono fun _ => isProperNode_of_isParsedNode

theorem allowsGuards_isProper : AllowsGuards fun node => node.isProperNode = true where
  null := rfl
  check := fun _ _ => rfl
  ternary := fun _ _ _ => rfl
  args := fun _ _ => id
  call := fun _ _ _ _ _ => id
  property := fun _ _ _ => id
  condition := fun _ _ => id
  not := fun _ _ => id

end Expr

/-! ### A source declares a well-formed unit -/

section Parsed

variable {types : TypeRef → Prop}

theorem Field.IsWritten.isWellFormed {field : Field} {owner : String}
    (h : field.IsWritten types Expr.IsParsed owner) : field.IsWellFormed owner where
  owner := h.owner
  initial := h.initial.imp_right Expr.IsParsed.isProper

theorem Method.IsWritten.isWellFormed {method : Method} (h : method.IsWritten types Expr.IsParsed) :
    method.IsWellFormed where
  distinct := h.distinct
  body := fun statement hstatement => (h.body statement hstatement).isProper

theorem ClassDecl.IsWritten.isWellFormed {package : String} {decl : ClassDecl}
    (h : decl.IsWritten package types Expr.IsParsed) : decl.IsWellFormed package where
  simpleName := h.simpleName
  name := h.name
  distinct := h.distinct
  fields := fun field hfield => (h.fields field hfield).isWellFormed
  methods := fun method hmethod => (h.methods method hmethod).isWellFormed

theorem CompilationUnit.IsWritten.isWellFormed {unit : CompilationUnit}
    (h : unit.IsWritten types Expr.IsParsed) : unit.IsWellFormed where
  text := h.text
  distinct := h.distinct
  classes := fun decl hdecl => (h.classes decl hdecl).isWellFormed

end Parsed

/-! ### A run keeps a unit well-formed -/

namespace Guarding

variable {guarding : Guarding}

theorem isWellFormed_guardField {owner : String} {field : Field} (h : field.IsWellFormed owner) :
    (guarding.guardField field).IsWellFormed owner where
  owner := h.owner
  initial := by
    rcases h.initial with habsent | hproper
    · refine .inl ?_
      rw [guardField, habsent]
      rfl
    · exact .inr (everyNode_guard Expr.allowsGuards_isProper hproper)

theorem isWellFormed_guardMethod {method : Method} (h : method.IsWellFormed) :
    (guarding.guardMethod method).IsWellFormed := by
  unfold guardMethod
  split
  · exact h
  · exact ⟨h.distinct, List.forall_mem_map.mpr fun statement hstatement =>
      everyNode_guard Expr.allowsGuards_isProper (h.body statement hstatement)⟩

end Guarding

namespace ClassDecl

variable {decl : ClassDecl} {package : String} {binding : FacadeBinding} {guarding : Guarding}

theorem isWellFormed_loggerField (binding : FacadeBinding) (name : String) :
    (binding.loggerField decl name).IsWellFormed decl.name where
  owner := rfl
  initial := by
    refine .inr (Expr.EveryNode.call_iff.mpr ⟨rfl, ?_, ?_⟩)
    · exact Expr.EveryNode.classRef_iff.mpr rfl
    · exact List.forall_mem_singleton.mpr (Expr.EveryNode.classRef_iff.mpr rfl)

theorem IsWellFormed.withLogger (h : decl.IsWellFormed package) (hnew : decl.field? guarding.logger = none) :
    (decl.withLogger binding guarding).IsWellFormed package where
  simpleName := h.simpleName
  name := h.name
  distinct := nodup_fields_withLogger hnew h.distinct
  fields := List.forall_mem_cons.mpr ⟨isWellFormed_loggerField binding guarding.logger,
    List.forall_mem_map.mpr fun field hfield => Guarding.isWellFormed_guardField (h.fields field hfield)⟩
  methods := List.forall_mem_map.mpr fun method hmethod =>
    Guarding.isWellFormed_guardMethod (h.methods method hmethod)

theorem TransformsTo.isWellFormed {skipSimple : Bool} {result : ClassDecl × Option ClassReport}
    (hresult : decl.TransformsTo binding skipSimple result) (h : decl.IsWellFormed package) :
    result.1.IsWellFormed package := by
  rcases transformsTo_iff.mp hresult with ⟨_, rfl⟩ | ⟨changed, report, htransform, rfl⟩
  · exact h
  · obtain ⟨mark, request, strategy, _, haccept, rfl, _⟩ := transform_eq_ok_some_iff.mp htransform
    obtain ⟨_, _, hnew⟩ := accept_eq_ok_iff.mp haccept
    show (decl.withLogger binding ⟨request.fieldName, skipSimple⟩).IsWellFormed package
    exact h.withLogger hnew

end ClassDecl

namespace CompilationUnit

variable {unit later : CompilationUnit}

/-- One run, whatever comes of it. -/
theorem IsWellFormed.transform (h : unit.IsWellFormed) (state : BindingState) (classPath : ClassPath)
    (skipSimple : Bool) : (unit.transform state classPath skipSimple).unit.IsWellFormed where
  text := h.text
  distinct := by
    have hnames : (unit.transform state classPath skipSimple).unit.classNames = unit.classNames :=
      ClassesOutcome.map_name_ofClasses unit.classes
    rw [hnames]
    exact h.distinct
  classes := ClassesOutcome.forall_ofClasses (fun _ _ hresult => hresult.isWellFormed) h.classes

/-- Any number of runs. -/
theorem IsWellFormed.of_reaches (h : unit.IsWellFormed) (hlater : unit.Reaches later) :
    later.IsWellFormed := by
  induction hlater with
  | refl => exact h
  | run state classPath skipSimple _ ih => exact ih.transform state classPath skipSimple

end CompilationUnit

/-! ### A well-formed unit can be written -/

theorem Expr.IsProper.isComplete {expr : Expr} (h : expr.IsProper) : expr.isComplete = true := by
  refine Expr.isComplete_iff.mpr (h.mono fun node hnode => ?_)
  cases node with
  | absent => cases hnode
  | _ => rfl

theorem ClassDecl.IsWellFormed.isComplete {package : String} {decl : ClassDecl} (h : decl.IsWellFormed package) :
    decl.isComplete = true := by
  refine Bool.and_eq_true_iff.mpr ⟨List.all_eq_true.mpr fun field hfield => ?_, List.all_eq_true.mpr fun method hmethod => ?_⟩
  · rcases (h.fields field hfield).initial with habsent | hproper
    · rw [habsent]
      rfl
    · rw [hproper.isComplete, Bool.or_true]
  · exact List.all_eq_true.mpr fun statement hstatement => ((h.methods method hmethod).body statement hstatement).isComplete

theorem CompilationUnit.IsWellFormed.isComplete {unit : CompilationUnit} (h : unit.IsWellFormed) : unit.isComplete = true :=
  List.all_eq_true.mpr fun decl hdecl => (h.classes decl hdecl).isComplete

theorem CompilationUnit.IsWellFormed.toSource?_eq {unit : CompilationUnit} (h : unit.IsWellFormed) (indent : String) :
    unit.toSource? indent = some (unit.toSource indent) :=
  if_pos h.isComplete

open CompilationUnit in
/-- What any number of runs makes of a unit that was parsed is well-formed, whether the runs succeed or fail. -/
theorem reachable_units_are_well_formed (source : String) (name : Scalar) (parsed unit : CompilationUnit)
    (hparse : parse source name = .ok parsed) (hunit : parsed.Reaches unit) : unit.IsWellFormed :=
  (isParsed_of_parse hparse).isWellFormed.of_reaches hunit

/-- A class that asks for the same logger twice. -/
def ClassDecl.repeatingClass : ClassDecl :=
  let start : Method :=
    { name := "start"
      parameters := [{ name := "host" }, { name := "port" }]
      body := [⟨false, .call (.var "log") "info" [.var "host"]⟩] }
  { name := "demo.Service"
    annotations := [{ name := "Commons" }, { name := "Commons" }]
    fields := [{ name := "ready", initial := .not (.var "log"), owner := "demo.Service" }]
    methods := [start] }

namespace CompilationUnit

def repeatingUnit : CompilationUnit :=
  { name := .text "Service", package := .text "demo", classes := [ClassDecl.repeatingClass] }

theorem parse_repeatingUnit : parse repeatingUnit.toSource repeatingUnit.name = .ok repeatingUnit := by
  have hwritten : repeatingUnit.IsWritten TypeRef.IsParsed Expr.IsParsed :=
    { text := rfl
      package := .inr (by decide)
      classes := by
        refine List.forall_mem_singleton.mpr
          { fields := List.forall_mem_singleton.mpr ⟨by decide, nofun, .inr (by decide), rfl⟩
            distinct := by decide
            methods := List.forall_mem_singleton.mpr ⟨by decide, nofun, ?_, by decide, by decide⟩
            simpleName := by decide
            name := by decide
            annotations := List.forall_mem_cons.mpr ⟨?_, List.forall_mem_singleton.mpr ?_⟩ }
        · exact List.forall_mem_cons.mpr ⟨⟨by decide, nofun⟩, List.forall_mem_singleton.mpr ⟨by decide, nofun⟩⟩
        · exact ⟨by decide, nofun, List.nodup_nil⟩
        · exact ⟨by decide, nofun, List.nodup_nil⟩
      distinct := by decide }
  exact parse_toSource hwritten ⟨by decide, by decide⟩ (by decide +kernel) ⟨by decide, by decide⟩
    ⟨by decide, by decide, by decide, by decide⟩

end CompilationUnit

open CompilationUnit in
/-- The first run over the repeating class succeeds, and the second one finds the logger there. -/
theorem repeatingUnit_is_well_formed_after_refusal :
    let first := repeatingUnit.transform none .empty false
    let second := first.unit.transform none .empty false
    parse repeatingUnit.toSource repeatingUnit.name = .ok repeatingUnit ∧
      (∃ report, first.result = .ok report) ∧ (∃ error, second.result = .error error) ∧
        repeatingUnit.Reaches second.unit ∧ second.unit.IsWellFormed := by
  intro first second
  let binding := BindingState.settle none (ClassPath.withUnit .empty repeatingUnit)
  let guarding : Guarding := ⟨LoggerRequest.defaultFieldName, false⟩
  let changed := ClassDecl.repeatingClass.withLogger binding guarding
  have hrun : ClassesOutcome.ofClasses binding false [ClassDecl.repeatingClass]
      = ⟨[changed], [ClassDecl.repeatingClass.report guarding Strategy.commonsName], none⟩ :=
    ClassesOutcome.ofClasses_of_commons rfl rfl binding
  have hchanged : first.unit.classes = [changed] := congrArg ClassesOutcome.classes hrun
  let refusal : TransformError := ⟨changed.name, .duplicateField LoggerRequest.defaultFieldName⟩
  have hrefused : changed.IsRefused refusal :=
    ⟨{ name := "Commons" }, rfl,
      .duplicateField _ ClassDecl.ofMark_commons (by decide) ⟨_, List.mem_cons_self, rfl⟩, rfl⟩
  have hsecond (later : FacadeBinding) : changed.transform later false = .error refusal :=
    ClassDecl.transform_eq_error_iff.mpr hrefused
  have hreaches : repeatingUnit.Reaches second.unit := .run none .empty false (.run none .empty false .refl)
  refine ⟨parse_repeatingUnit, ⟨_, result_transform_of_ofClasses hrun⟩, ⟨refusal, ?_⟩, hreaches,
    reachable_units_are_well_formed _ _ _ _ parse_repeatingUnit hreaches⟩
  refine transform_eq_error_iff.mpr ?_
  simp only [hchanged, ClassesOutcome.ofClasses_cons_eq, hsecond]

end GuardedLogging
