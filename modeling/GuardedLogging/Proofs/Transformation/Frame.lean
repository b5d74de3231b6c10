import GuardedLogging.Proofs.Guard.Unguard
import GuardedLogging.Proofs.Transformation.Acceptance
import Mathlib.Data.List.Forall2

/-!
# What a class keeps when it gets a logger

The outline of a class is all of it but the expressions: names, modifiers, types, parameters, and which statements return. A transformed class has the outline it had, its expressions have the same unguarded forms, and methods in which the logger's name means a parameter are untouched. One field is new and stands first; one annotation is gone, the first that asked for a logger.
-/

namespace GuardedLogging

open GuardedLogging.Expr

/-- The same field up to the guards in its initial value. -/
structure Field.SameUpToGuards (logger : String) (before after : Field) : Prop where
  name : after.name = before.name
  modifiers : after.modifiers = before.modifiers
  type : after.type = before.type
  owner : after.owner = before.owner
  initial : unguard logger after.initial = unguard logger before.initial
  isAbsent : after.initial.isAbsent = before.initial.isAbsent

/-- The same method up to the guards in its statements, and the very same if the logger's name means a parameter in it. -/
structure Method.SameUpToGuards (logger : String) (before after : Method) : Prop where
  name : after.name = before.name
  modifiers : after.modifiers = before.modifiers
  returnType : after.returnType = before.returnType
  parameters : after.parameters = before.parameters
  returns : after.body.map (·.returns) = before.body.map (·.returns)
  exprs : after.body.map (unguard logger ·.expr) = before.body.map (unguard logger ·.expr)
  shadowed : logger ∈ before.parameterNames → after.body = before.body

/-- The same class up to guards, one new field in front, and the first request, which is gone. -/
structure ClassDecl.SameUpToLogger (logger : String) (before after : ClassDecl) : Prop where
  name : after.name = before.name
  modifiers : after.modifiers = before.modifiers
  methods : List.Forall₂ (Method.SameUpToGuards logger) before.methods after.methods
  fields : ∃ field fields, after.fields = field :: fields ∧ field.name = logger ∧
    List.Forall₂ (Field.SameUpToGuards logger) before.fields fields
  annotations : ∃ front request back, before.annotations = front ++ request :: back ∧
    request.isRequest = true ∧ (∀ mark ∈ front, mark.isRequest = false) ∧
      after.annotations = front ++ back

namespace Guarding

variable (guarding : Guarding)

theorem isAbsent_guard (expr : Expr) : (guarding.guard expr).isAbsent = expr.isAbsent := by
  cases expr with
  | call receiver method arguments =>
    rcases guarding.wrap_eq_or (guarding.guard receiver) method
      (guarding.guardAll arguments) with h | ⟨_, _, h⟩
    · rw [guard, h]
      rfl
    · rw [guard, h]
      rfl
  | ternary test whenTrue whenFalse =>
    obtain ⟨_, _, _, h⟩ := guarding.guard_ternary_eq test whenTrue whenFalse
    rw [h]
    rfl
  | _ => rfl

theorem sameUpToGuards_guardField (field : Field) :
    field.SameUpToGuards guarding.logger (guarding.guardField field) where
  name := rfl
  modifiers := rfl
  type := rfl
  owner := rfl
  initial := guarding.unguard_guard field.initial
  isAbsent := guarding.isAbsent_guard field.initial

theorem isShadowedIn_iff {method : Method} :
    guarding.isShadowedIn method = true ↔ guarding.logger ∈ method.parameterNames := by
  rw [isShadowedIn, List.contains_iff_mem]

theorem sameUpToGuards_guardMethod (method : Method) :
    method.SameUpToGuards guarding.logger (guarding.guardMethod method) := by
  by_cases h : guarding.isShadowedIn method = true
  · rw [guardMethod, if_pos h]
    exact ⟨rfl, rfl, rfl, rfl, rfl, rfl, fun _ => rfl⟩
  · rw [guardMethod, if_neg h]
    refine ⟨rfl, rfl, rfl, rfl, ?_, ?_, fun hmem => ?_⟩
    · simp only [List.map_map]
      exact List.map_congr_left fun statement _ => rfl
    · simp only [List.map_map]
      exact List.map_congr_left fun statement _ => guarding.unguard_guard statement.expr
    · exact absurd (guarding.isShadowedIn_iff.mpr hmem) h

end Guarding

namespace ClassDecl

theorem sameUpToLogger_withLogger (decl : ClassDecl) (binding : FacadeBinding)
    (guarding : Guarding) {request : Annotation} (h : decl.request? = some request) :
    decl.SameUpToLogger guarding.logger (decl.withLogger binding guarding) where
  name := rfl
  modifiers := rfl
  methods := by
    rw [withLogger, List.forall₂_map_right_iff]
    exact List.forall₂_same.mpr fun method _ => guarding.sameUpToGuards_guardMethod method
  fields := by
    refine ⟨binding.loggerField decl guarding.logger, decl.fields.map guarding.guardField, rfl, rfl, ?_⟩
    rw [List.forall₂_map_right_iff]
    exact List.forall₂_same.mpr fun field _ => guarding.sameUpToGuards_guardField field
  annotations := by
    obtain ⟨hrequest, front, back, hsplit, hfront⟩ := List.find?_eq_some_iff_append.mp h
    have hnone : ∀ mark ∈ front, mark.isRequest = false := by simpa using hfront
    refine ⟨front, request, back, hsplit, hrequest, hnone, ?_⟩
    rw [withLogger, hsplit, List.eraseP_append_right _ (by simpa using hnone),
      List.eraseP_cons_of_pos hrequest]

end ClassDecl

/-- Guarding inserts guards and nothing else: unguarding an expression takes out what guarding put in, and a transformed class is the same class up to its logger. -/
theorem guarding_inserts_only_guards :
    (∀ (guarding : Guarding) (expr : Expr),
      unguard guarding.logger (guarding.guard expr) = unguard guarding.logger expr) ∧
    ∀ (binding : FacadeBinding) (skipSimple : Bool) (decl changed : ClassDecl) (report : ClassReport),
      decl.transform binding skipSimple = .ok (some (changed, report)) →
        decl.SameUpToLogger report.fieldName changed := by
  refine ⟨Guarding.unguard_guard, fun binding skipSimple decl changed report h => ?_⟩
  obtain ⟨mark, request, strategy, hrequest, _, rfl, rfl⟩ := ClassDecl.transform_eq_ok_some_iff.mp h
  exact decl.sameUpToLogger_withLogger binding ⟨request.fieldName, skipSimple⟩ hrequest

theorem sampleService_sameUpToLogger :
    ∃ changed report,
      ClassDecl.sampleService.transform (.resolve .empty) false = .ok (some (changed, report)) ∧
        ClassDecl.sampleService.SameUpToLogger report.fieldName changed :=
  ⟨_, _, ClassDecl.transform_sampleService _ _,
    guarding_inserts_only_guards.2 _ _ _ _ _ (ClassDecl.transform_sampleService _ _)⟩

end GuardedLogging
