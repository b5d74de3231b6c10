import GuardedLogging.Proofs.Transformation.Acceptance
import Mathlib.Data.List.Basic

/-!
# Why a class cannot have a logger

The reasons are ordered: an annotation that means nothing, then a strategy that is not known, then a field that exists already. Each reason presupposes that the earlier ones do not apply, so a class is refused for one reason at most.
-/

namespace GuardedLogging

open TransformError

namespace LoggerRequest

variable {mark : Annotation} {cause : Cause}

/-- An annotation means no request: it has a member of another name, or one of its two members has no value of its kind. -/
inductive IsInvalid (mark : Annotation) : Cause → Prop
  | unknownMembers (h : unknownMembers mark ≠ []) : IsInvalid mark (.unknownMembers (unknownMembers mark))
  | fieldName (given : Scalar) (hknown : unknownMembers mark = [])
      (hgiven : mark.member? fieldNameKey = some given)
      (hname : ∀ name, given = .text name → isIdentifier name = false) :
      IsInvalid mark (.invalidFieldName given)
  | strategyName (given : Scalar) (fieldName : String) (hknown : unknownMembers mark = [])
      (hname : fieldNameOf mark = .ok fieldName) (hgiven : mark.member? strategyKey = some given)
      (hkind : given.isText = false) : IsInvalid mark (.invalidStrategyName given)

theorem unknownMembers_eq_nil_iff :
    unknownMembers mark = [] ↔
      ∀ entry ∈ mark.members, entry.1 = fieldNameKey ∨ entry.1 = strategyKey := by
  have hperm : (unknownMembers mark).Perm _ := List.mergeSort_perm _ _
  rw [← List.length_eq_zero_iff, hperm.length_eq, List.length_eq_zero_iff, List.filter_eq_nil_iff,
    List.forall_mem_map]
  refine forall₂_congr fun entry _ => ?_
  simp only [Bool.and_eq_true, bne_iff_ne, ne_eq, not_and, Decidable.not_not]
  exact Decidable.or_iff_not_imp_left.symm

theorem fieldNameOf_eq_error_iff :
    fieldNameOf mark = .error cause ↔
      ∃ given, mark.member? fieldNameKey = some given ∧
        (∀ name, given = .text name → isIdentifier name = false) ∧ cause = .invalidFieldName given := by
  unfold fieldNameOf
  constructor
  · intro h
    split at h
    · cases h
    · rename_i name hgiven
      split at h
      · cases h
      · rename_i hname
        cases h
        refine ⟨_, hgiven, fun other hother => ?_, rfl⟩
        cases hother
        exact Bool.eq_false_iff.mpr hname
    · rename_i given htext hgiven
      cases h
      exact ⟨given, hgiven, fun name hname => absurd hname (htext name), rfl⟩
  · rintro ⟨given, hgiven, hname, rfl⟩
    rw [hgiven]
    cases given with
    | text name => exact if_neg (Bool.eq_false_iff.mp (hname name rfl))
    | _ => rfl

theorem strategyOf_eq_error_iff :
    strategyOf mark = .error cause ↔
      ∃ given, mark.member? strategyKey = some given ∧ given.isText = false ∧
        cause = .invalidStrategyName given := by
  unfold strategyOf
  constructor
  · intro h
    split at h
    · cases h
    · cases h
    · rename_i given htext hgiven
      cases h
      refine ⟨given, hgiven, ?_, rfl⟩
      cases given with
      | text name => exact absurd rfl (htext name)
      | _ => rfl
  · rintro ⟨given, hgiven, hkind, rfl⟩
    rw [hgiven]
    cases given with
    | text name => cases hkind
    | _ => rfl

theorem ofMark_eq_error_iff : ofMark mark = .error cause ↔ IsInvalid mark cause := by
  unfold ofMark
  simp only [List.isEmpty_iff]
  constructor
  · intro h
    split at h
    · rename_i hknown
      cases hname : fieldNameOf mark with
      | error reason =>
        rw [hname] at h
        cases h
        obtain ⟨given, hgiven, hkind, rfl⟩ := fieldNameOf_eq_error_iff.mp hname
        exact .fieldName given hknown hgiven hkind
      | ok fieldName =>
        cases hstrategy : strategyOf mark with
        | error reason =>
          rw [hname, hstrategy] at h
          cases h
          obtain ⟨given, hgiven, hkind, rfl⟩ := strategyOf_eq_error_iff.mp hstrategy
          exact .strategyName given fieldName hknown hname hgiven hkind
        | ok strategy =>
          rw [hname, hstrategy] at h
          cases h
    · rename_i hunknown
      cases h
      exact .unknownMembers hunknown
  · intro h
    cases h with
    | unknownMembers hunknown =>
      rw [if_neg hunknown]
      rfl
    | fieldName given hknown hgiven hkind =>
      have hname := fieldNameOf_eq_error_iff.mpr ⟨given, hgiven, hkind, rfl⟩
      rw [if_pos hknown, hname]
      rfl
    | strategyName given fieldName hknown hname hgiven hkind =>
      have hstrategy := strategyOf_eq_error_iff.mpr ⟨given, hgiven, hkind, rfl⟩
      rw [if_pos hknown, hname, hstrategy]
      rfl

theorem ofMark_named {mark : Annotation} {logger : String}
    (hmark : mark.members = [(fieldNameKey, .text logger)]) (h : isIdentifier logger = true) :
    ofMark mark = .ok ⟨logger, defaultStrategy⟩ := by
  have hknown : unknownMembers mark = [] := by
    rw [unknownMembers_eq_nil_iff, hmark]
    exact List.forall_mem_singleton.mpr (.inl rfl)
  have hname : fieldNameOf mark = .ok logger := by
    rw [fieldNameOf, Annotation.member?, hmark]
    exact if_pos h
  have hstrategy : strategyOf mark = .ok defaultStrategy := by
    rw [strategyOf, Annotation.member?, hmark]
    rfl
  rw [ofMark, hknown, hname, hstrategy]
  rfl

end LoggerRequest

namespace Strategy

theorem choose_named_of_mem {name : String} (h : name ∈ registeredNames) :
    choose (.named name) = .ok commonsName :=
  if_pos (List.contains_iff_mem.mpr h)

/-- A name under which no strategy is known is refused, with the names that there are. -/
theorem choose_named_eq_error_iff {name : String} {cause : Cause} :
    choose (.named name) = .error cause ↔
      name ∉ registeredNames ∧ cause = .strategy (quoted name)
        ("unknown strategy, expected one of " ++ quotedList registeredNames) := by
  by_cases hname : name ∈ registeredNames
  · rw [choose_named_of_mem hname]
    constructor
    · intro h
      cases h
    · exact fun h => absurd hname h.1
  · rw [choose, if_neg (mt List.contains_iff_mem.mp hname)]
    constructor
    · intro h
      cases h
      exact ⟨hname, rfl⟩
    · rintro ⟨_, rfl⟩
      rfl

theorem mem_registeredNames_of_choose {name strategy : String}
    (h : choose (.named name) = .ok strategy) : name ∈ registeredNames := by
  by_contra hname
  cases h.symm.trans (choose_named_eq_error_iff.mpr ⟨hname, rfl⟩)

end Strategy

namespace ClassDecl

variable {decl : ClassDecl} {mark : Annotation} {cause : Cause}

/-- A class cannot have the logger that an annotation asks for. -/
inductive Refuses (decl : ClassDecl) (mark : Annotation) : Cause → Prop
  | invalid {cause : Cause} (h : LoggerRequest.IsInvalid mark cause) : Refuses decl mark cause
  | strategy (request : LoggerRequest) (hrequest : LoggerRequest.ofMark mark = .ok request)
      (hunknown : request.strategy ∉ Strategy.registeredNames) :
      Refuses decl mark (.strategy (quoted request.strategy)
        ("unknown strategy, expected one of " ++ quotedList Strategy.registeredNames))
  | duplicateField (request : LoggerRequest) (hrequest : LoggerRequest.ofMark mark = .ok request)
      (hknown : request.strategy ∈ Strategy.registeredNames)
      (hfield : ∃ field ∈ decl.fields, field.name = request.fieldName) :
      Refuses decl mark (.duplicateField request.fieldName)

theorem isSome_field?_iff {name : String} :
    (decl.field? name).isSome = true ↔ ∃ field ∈ decl.fields, field.name = name := by
  simp [field?, List.find?_isSome]

theorem accept_eq_error_iff : decl.accept mark = .error cause ↔ decl.Refuses mark cause := by
  unfold accept
  cases hrequest : LoggerRequest.ofMark mark with
  | error reason =>
    constructor
    · intro h
      cases h
      exact .invalid (LoggerRequest.ofMark_eq_error_iff.mp hrequest)
    · intro h
      cases h with
      | invalid hinvalid =>
        rw [LoggerRequest.ofMark_eq_error_iff.mpr hinvalid] at hrequest
        cases hrequest
        rfl
      | strategy _ hother _ => cases hrequest.symm.trans hother
      | duplicateField _ hother _ _ => cases hrequest.symm.trans hother
  | ok request =>
    have hvalid : ∀ reason, ¬ LoggerRequest.IsInvalid mark reason := fun reason hinvalid =>
      nomatch hrequest.symm.trans (LoggerRequest.ofMark_eq_error_iff.mpr hinvalid)
    simp only [bind, Except.bind]
    constructor
    · intro h
      cases hstrategy : Strategy.choose (.named request.strategy) with
      | error reason =>
        rw [hstrategy] at h
        cases h
        obtain ⟨hunknown, rfl⟩ := Strategy.choose_named_eq_error_iff.mp hstrategy
        exact .strategy request hrequest hunknown
      | ok strategy =>
        simp only [hstrategy] at h
        split at h
        · rename_i hfield
          cases h
          exact .duplicateField request hrequest (Strategy.mem_registeredNames_of_choose hstrategy)
            (isSome_field?_iff.mp hfield)
        · cases h
    · intro h
      cases h with
      | invalid hinvalid => exact absurd hinvalid (hvalid _)
      | strategy other hother hunknown =>
        cases hrequest.symm.trans hother
        simp only [Strategy.choose_named_eq_error_iff.mpr ⟨hunknown, rfl⟩]
      | duplicateField other hother hknown hfield =>
        cases hrequest.symm.trans hother
        simp only [Strategy.choose_named_of_mem hknown, if_pos (isSome_field?_iff.mpr hfield)]
        rfl

end ClassDecl

end GuardedLogging
