import GuardedLogging.Proofs.Audit.Confirmation
import GuardedLogging.Proofs.CompilationUnit.Classes
import GuardedLogging.Proofs.Guard.Shape
import GuardedLogging.Proofs.Transformation.ClassPaths

/-!
# Type references before and after a transformation

A guard refers to no type, so a class refers to the types that it referred to before, and besides to the two types of the facade and to itself, all through the field of its logger. Type checking and the audit look at the same references.
-/

namespace GuardedLogging

/-! ### The types that a class refers to -/

/-- The types that a field refers to, in its declaration or its initial value. -/
def Field.types (field : Field) : List TypeRef :=
  field.type.toList ++ field.initial.typeRefs

/-- The types that a method refers to, in its declaration or its body. -/
def Method.types (method : Method) : List TypeRef :=
  method.returnType.toList ++ method.parameters.flatMap (·.type.toList)
    ++ method.body.flatMap (·.expr.typeRefs)

/-- Whether the class refers to the type, in whatever place. -/
def ClassDecl.RefersTo (decl : ClassDecl) (type : TypeRef) : Prop :=
  (∃ field ∈ decl.fields, type ∈ field.types) ∨ ∃ method ∈ decl.methods, type ∈ method.types

namespace ClassDecl

variable {decl : ClassDecl} {type : TypeRef}

theorem exists_mem_typeReferences_of_expr {place : String} {expr : Expr} (hexpr : (place, expr) ∈ decl.expressions)
    (htype : type ∈ expr.typeRefs) : ∃ place, (place, type) ∈ decl.typeReferences := by
  refine ⟨"class reference in " ++ place, List.mem_append_right _ (List.mem_flatMap.mpr ⟨_, hexpr, ?_⟩)⟩
  exact List.mem_map_of_mem htype

theorem refersTo_of_mem_expressions {entry : String × Expr} (hentry : entry ∈ decl.expressions)
    (htype : type ∈ entry.2.typeRefs) : decl.RefersTo type := by
  rcases List.mem_append.mp hentry with hinitial | hbody
  · obtain ⟨field, hfield, rfl⟩ := List.mem_map.mp hinitial
    exact .inl ⟨field, List.mem_of_mem_filter hfield, List.mem_append_right _ htype⟩
  · obtain ⟨method, hmethod, hplace⟩ := List.mem_flatMap.mp hbody
    obtain ⟨statement, hstatement, rfl⟩ := List.mem_map.mp hplace
    exact .inr ⟨method, hmethod, List.mem_append_right _ (List.mem_flatMap.mpr ⟨statement, hstatement, htype⟩)⟩

theorem refersTo_iff : decl.RefersTo type ↔ ∃ place, (place, type) ∈ decl.typeReferences := by
  constructor
  · rintro (⟨field, hfield, htype⟩ | ⟨method, hmethod, htype⟩)
    · rcases List.mem_append.mp htype with hdeclared | hinitial
      · exact exists_mem_typeReferences_of_field hfield (Option.mem_toList.mp hdeclared)
      · have hpresent : ¬ field.initial.isAbsent = true := fun habsent => by
          rw [Expr.eq_absent_of_isAbsent habsent] at hinitial
          cases hinitial
        obtain ⟨place, hexpr⟩ := exists_mem_expressions_of_field hfield hpresent
        exact exists_mem_typeReferences_of_expr hexpr hinitial
    · rcases List.mem_append.mp htype with hdeclared | hbody
      · rcases List.mem_append.mp hdeclared with hreturned | hparameter
        · exact exists_mem_typeReferences_of_method hmethod (Option.mem_toList.mp hreturned)
        · obtain ⟨parameter, hparameter, hknown⟩ := List.mem_flatMap.mp hparameter
          exact exists_mem_typeReferences_of_parameter hmethod hparameter (Option.mem_toList.mp hknown)
      · obtain ⟨statement, hstatement, hknown⟩ := List.mem_flatMap.mp hbody
        obtain ⟨place, hexpr⟩ := exists_mem_expressions_of_statement hmethod hstatement
        exact exists_mem_typeReferences_of_expr hexpr hknown
  · rintro ⟨place, hplace⟩
    rcases List.mem_append.mp hplace with hdeclared | hexpr
    · rcases List.mem_append.mp hdeclared with hofField | hofMethod
      · obtain ⟨field, hfield, hentry⟩ := List.mem_filterMap.mp hofField
        obtain ⟨known, hknown, heq⟩ := Option.map_eq_some_iff.mp hentry
        cases heq
        exact .inl ⟨field, hfield, List.mem_append_left _ (Option.mem_toList.mpr hknown)⟩
      · obtain ⟨method, hmethod, hsignature⟩ := List.mem_flatMap.mp hofMethod
        refine .inr ⟨method, hmethod, List.mem_append_left _ ?_⟩
        rcases List.mem_append.mp hsignature with hreturned | hofParameter
        · obtain ⟨known, hknown, heq⟩ := List.mem_map.mp hreturned
          cases heq
          exact List.mem_append_left _ hknown
        · obtain ⟨parameter, hparameter, hentry⟩ := List.mem_filterMap.mp hofParameter
          obtain ⟨known, hknown, heq⟩ := Option.map_eq_some_iff.mp hentry
          cases heq
          exact List.mem_append_right _ (List.mem_flatMap.mpr ⟨parameter, hparameter, Option.mem_toList.mpr hknown⟩)
    · obtain ⟨entry, hentry, hknown⟩ := List.mem_flatMap.mp hexpr
      obtain ⟨known, hknown, heq⟩ := List.mem_map.mp hknown
      cases heq
      exact refersTo_of_mem_expressions hentry hknown

end ClassDecl

/-! ### Guarding keeps the references -/

namespace Guarding

variable (guarding : Guarding)

theorem typeRefs_wrap (receiver : Expr) (method : String) (arguments : List Expr) :
    (guarding.wrap receiver method arguments).typeRefs = (Expr.call receiver method arguments).typeRefs := by
  rcases guarding.wrap_eq_or receiver method arguments with h | ⟨level, hfate, h⟩
  · rw [h]
  · -- A call that gets a guard is one on the logger, which is a name.
    rw [h, (fate_eq_wrapped_iff.mp hfate).1]
    simp [Expr.guarded, Expr.typeRefs, Expr.typeRefsAll]

theorem typeRefsAll_guardAll {exprs : List Expr} (h : ∀ expr ∈ exprs, (guarding.guard expr).typeRefs = expr.typeRefs) :
    Expr.typeRefsAll (guarding.guardAll exprs) = Expr.typeRefsAll exprs := by
  induction exprs with
  | nil => rfl
  | cons expr rest ih =>
    obtain ⟨hexpr, hrest⟩ := List.forall_mem_cons.mp h
    rw [guardAll, Expr.typeRefsAll, Expr.typeRefsAll, hexpr, ih hrest]

theorem typeRefs_guardParts {expr : Expr} (h : (guarding.guard expr).typeRefs = expr.typeRefs) :
    (guarding.guardParts expr).typeRefs = expr.typeRefs := by
  cases expr with
  | call receiver method arguments =>
    rw [guard, typeRefs_wrap] at h
    exact h
  | _ => rfl

theorem typeRefs_guard (expr : Expr) : (guarding.guard expr).typeRefs = expr.typeRefs := by
  induction expr with
  | absent => rfl
  | const value => rfl
  | var name => rfl
  | classRef type => rfl
  | args arguments ih => exact guarding.typeRefsAll_guardAll ih
  | call receiver method arguments hreceiver harguments =>
    rw [guard, typeRefs_wrap, Expr.typeRefs, hreceiver, guarding.typeRefsAll_guardAll harguments, Expr.typeRefs]
  | property receiver name ih => exact ih
  | condition inner ih => exact ih
  | not operand ih => exact ih
  | ternary test whenTrue whenFalse htest htrue hfalse =>
    rw [guard]
    split
    · rw [Expr.typeRefs, guarding.typeRefs_guardParts htrue, hfalse, Expr.typeRefs]
    · rw [Expr.typeRefs, htest, htrue, hfalse, Expr.typeRefs]

theorem types_guardField (field : Field) : (guarding.guardField field).types = field.types := by
  rw [guardField, Field.types, typeRefs_guard, Field.types]

theorem types_guardMethod (method : Method) : (guarding.guardMethod method).types = method.types := by
  unfold guardMethod
  split
  · rfl
  · simp only [Method.types, List.flatMap_map, guardStatement, typeRefs_guard]

end Guarding

/-! ### The references of a transformed class -/

namespace ClassDecl

variable {decl : ClassDecl} {type : TypeRef} {binding : FacadeBinding}

theorem refersTo_withLogger_iff {guarding : Guarding} :
    (decl.withLogger binding guarding).RefersTo type ↔
      type ∈ [binding.logger, binding.factory, decl.type] ∨ decl.RefersTo type := by
  have hlogger : (binding.loggerField decl guarding.logger).types = [binding.logger, binding.factory, decl.type] := rfl
  have hfields : (∃ field ∈ (decl.withLogger binding guarding).fields, type ∈ field.types) ↔
      type ∈ [binding.logger, binding.factory, decl.type] ∨ ∃ field ∈ decl.fields, type ∈ field.types := by
    simp only [withLogger, List.exists_mem_cons_iff, hlogger, List.mem_map, exists_exists_and_eq_and,
      Guarding.types_guardField]
  have hmethods : (∃ method ∈ (decl.withLogger binding guarding).methods, type ∈ method.types) ↔
      ∃ method ∈ decl.methods, type ∈ method.types := by
    simp only [withLogger, List.mem_map, exists_exists_and_eq_and, Guarding.types_guardMethod]
  rw [RefersTo, hfields, hmethods, or_assoc, RefersTo]

theorem TransformsTo.refersTo_iff {skipSimple : Bool} {result : ClassDecl × Option ClassReport}
    (h : decl.TransformsTo binding skipSimple result) :
    result.1.RefersTo type ↔
      (decl.request? ≠ none ∧ type ∈ [binding.logger, binding.factory, decl.type]) ∨ decl.RefersTo type := by
  rcases transformsTo_iff.mp h with ⟨hnone, rfl⟩ | ⟨changed, report, htransform, rfl⟩
  · simp [transform_eq_ok_none_iff.mp hnone]
  · obtain ⟨mark, request, strategy, hrequest, _, rfl, _⟩ := transform_eq_ok_some_iff.mp htransform
    simp only [refersTo_withLogger_iff, hrequest, ne_eq, reduceCtorEq, not_false_eq_true, true_and]

end ClassDecl

/-- The references of transformed classes: each class that asked for a logger adds those of its logger. -/
theorem ClassesOutcome.refersTo_results_iff {binding : FacadeBinding} {skipSimple : Bool} {type : TypeRef}
    {decls : List ClassDecl} {results : List (ClassDecl × Option ClassReport)}
    (hresults : List.Forall₂ (ClassDecl.TransformsTo binding skipSimple) decls results) :
    (∃ decl ∈ results.map (·.1), decl.RefersTo type) ↔
      (∃ decl ∈ decls, decl.request? ≠ none ∧ type ∈ [binding.logger, binding.factory, decl.type]) ∨
        ∃ decl ∈ decls, decl.RefersTo type := by
  induction hresults with
  | nil => simp
  | cons hresult _ ih =>
    rw [List.map_cons, List.exists_mem_cons_iff, List.exists_mem_cons_iff, List.exists_mem_cons_iff, ih,
      hresult.refersTo_iff]
    exact or_or_or_comm ..

namespace CompilationUnit

variable {unit : CompilationUnit} {classPath : ClassPath} {type : TypeRef}

/-- Whether a class of the unit refers to the type. -/
def RefersTo (unit : CompilationUnit) (type : TypeRef) : Prop :=
  ∃ decl ∈ unit.classes, decl.RefersTo type

/-! ### Type checking and the audit -/

theorem mem_unresolvedReferences_iff :
    (∃ place, (place, type) ∈ unit.unresolvedReferences classPath) ↔
      unit.RefersTo type ∧ (classPath.withUnit unit).contains type.name = false := by
  unfold unresolvedReferences RefersTo
  simp only [List.mem_filter, List.mem_flatMap, ClassDecl.refersTo_iff, Bool.not_eq_true']
  constructor
  · rintro ⟨place, ⟨decl, hdecl, hplace⟩, hmissing⟩
    exact ⟨⟨decl, hdecl, place, hplace⟩, hmissing⟩
  · rintro ⟨⟨decl, hdecl, place, hplace⟩, hmissing⟩
    exact ⟨place, ⟨decl, hdecl, hplace⟩, hmissing⟩

theorem checkTypes_eq_ok_iff :
    unit.checkTypes classPath = .ok () ↔
      ∀ type, unit.RefersTo type → (classPath.withUnit unit).contains type.name = true := by
  have hnone : unit.checkTypes classPath = .ok () ↔ unit.unresolvedReferences classPath = [] := by
    unfold checkTypes
    cases unit.unresolvedReferences classPath with
    | nil => simp
    | cons first rest => simp
  rw [hnone, List.eq_nil_iff_forall_not_mem]
  constructor
  · intro h type hrefers
    by_contra hmissing
    obtain ⟨place, hplace⟩ := mem_unresolvedReferences_iff.mpr ⟨hrefers, Bool.eq_false_iff.mpr hmissing⟩
    exact h (place, type) hplace
  · rintro h ⟨place, type⟩ hplace
    obtain ⟨hrefers, hmissing⟩ := mem_unresolvedReferences_iff.mp ⟨place, hplace⟩
    rw [h type hrefers] at hmissing
    cases hmissing

theorem mem_unresolvedTypes_audit_iff {name : String} :
    name ∈ (unit.audit classPath).unresolvedTypes ↔ ∃ entry ∈ unit.unresolvedReferences classPath, entry.2.name = name := by
  rw [audit, UnitAudit.unresolvedTypes_foldl_addWarning, List.mem_mergeSort, List.mem_eraseDups, List.mem_map]

/-- Type checking fails exactly if the audit lists a type as unresolved, and then because of such a type. -/
structure ChecksAsAudited (unit : CompilationUnit) (classPath : ClassPath) : Prop where
  fails : (∃ error, unit.checkTypes classPath = .error error) ↔ (unit.audit classPath).unresolvedTypes ≠ []
  named : ∀ error, unit.checkTypes classPath = .error error →
    error.typeName ∈ (unit.audit classPath).unresolvedTypes

theorem checksAsAudited (unit : CompilationUnit) (classPath : ClassPath) : unit.ChecksAsAudited classPath := by
  have hnamed : ∀ error, unit.checkTypes classPath = .error error →
      error.typeName ∈ (unit.audit classPath).unresolvedTypes := by
    intro error herror
    unfold checkTypes at herror
    split at herror
    · cases herror
    · rename_i context type rest hreferences
      cases herror
      exact mem_unresolvedTypes_audit_iff.mpr ⟨(context, type), hreferences ▸ List.mem_cons_self, rfl⟩
  refine ⟨⟨?_, fun hlisted => ?_⟩, hnamed⟩
  · rintro ⟨error, herror⟩
    exact List.ne_nil_of_mem (hnamed error herror)
  · obtain ⟨name, hname⟩ := List.exists_mem_of_ne_nil _ hlisted
    obtain ⟨entry, hentry, _⟩ := mem_unresolvedTypes_audit_iff.mp hname
    unfold checkTypes
    cases hreferences : unit.unresolvedReferences classPath with
    | nil =>
      rw [hreferences] at hentry
      cases hentry
    | cons first rest => exact ⟨_, rfl⟩

end CompilationUnit

end GuardedLogging
