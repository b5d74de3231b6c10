import GuardedLogging.Proofs.Guard.Shape
import GuardedLogging.Transformation

/-!
# Guards and nothing else

A standard guard asks the logger whether a level is enabled, calls the same level's method if it is, and is null otherwise. Unguarding an expression puts the call in the place of each standard guard. Whether guards were inserted cannot be seen afterwards: an expression and the expression with guards have the same unguarded form, so no part of it has been lost, repeated or moved.

Of a class that gets a logger everything but its expressions stays as it was, up to the one field in front and the one annotation that is dropped.
-/

namespace GuardedLogging

namespace Expr

/-- Whether a ternary checks a level on the logger, without arguments, in front of a call of that level's method, and is null otherwise. -/
def isStandardGuard (logger : String) (test whenTrue whenFalse : Expr) : Bool :=
  match whenTrue with
  | .call receiver method _ =>
    receiver == .var logger && whenFalse == .const .null
      && Level.all.any fun level => method == level.method && test == .call (.var logger) level.check []
  | _ => false

mutual

/-- The expression with the call in the place of each standard guard. -/
def unguard (logger : String) : Expr → Expr
  | .ternary test whenTrue whenFalse =>
    if isStandardGuard logger test whenTrue whenFalse then unguard logger whenTrue
    else .ternary (unguard logger test) (unguard logger whenTrue) (unguard logger whenFalse)
  | .call receiver method arguments =>
    .call (unguard logger receiver) method (unguardAll logger arguments)
  | .condition inner => .condition (unguard logger inner)
  | .not operand => .not (unguard logger operand)
  | .property receiver name => .property (unguard logger receiver) name
  | .args arguments => .args (unguardAll logger arguments)
  | .absent => .absent
  | .const value => .const value
  | .var name => .var name
  | .classRef type => .classRef type

def unguardAll (logger : String) : List Expr → List Expr
  | [] => []
  | expr :: rest => unguard logger expr :: unguardAll logger rest

end

theorem unguardAll_eq_map (logger : String) (exprs : List Expr) :
    unguardAll logger exprs = exprs.map (unguard logger) := by
  induction exprs with
  | nil => rfl
  | cons expr rest ih => rw [unguardAll, ih, List.map_cons]

theorem isStandardGuard_iff {logger : String} {test whenTrue whenFalse : Expr} :
    isStandardGuard logger test whenTrue whenFalse = true ↔
      ∃ (level : Level) (arguments : List Expr),
        test = .call (.var logger) level.check [] ∧
          whenTrue = .call (.var logger) level.method arguments ∧ whenFalse = .const .null := by
  constructor
  · intro h
    cases whenTrue with
    | call receiver method arguments =>
      simp only [isStandardGuard, Bool.and_eq_true, beq_iff_eq, List.any_eq_true] at h
      obtain ⟨⟨rfl, rfl⟩, level, _, rfl, rfl⟩ := h
      exact ⟨level, arguments, rfl, rfl, rfl⟩
    | _ => simp [isStandardGuard] at h
  · rintro ⟨level, arguments, rfl, rfl, rfl⟩
    have hlevel : Level.all.any (fun other => level.method == other.method
        && Expr.call (.var logger) level.check [] == .call (.var logger) other.check []) = true :=
      List.any_eq_true.mpr ⟨level, Level.mem_all level, by simp⟩
    simp [isStandardGuard, hlevel]

end Expr

namespace Guarding

open GuardedLogging.Expr

variable {guarding : Guarding}

/-- A standard guard is a guard with nothing to do otherwise. -/
theorem isStandardGuard_eq (test whenTrue whenFalse : Expr) :
    isStandardGuard guarding.logger test whenTrue whenFalse
      = (guarding.isGuard test whenTrue && whenFalse == .const .null) := by
  rw [Bool.eq_iff_iff, Bool.and_eq_true, isStandardGuard_iff, isGuard_iff, beq_iff_eq]
  constructor
  · rintro ⟨level, arguments, htest, htrue, hfalse⟩
    exact ⟨⟨level, arguments, htest, htrue⟩, hfalse⟩
  · rintro ⟨⟨level, arguments, htest, htrue⟩, hfalse⟩
    exact ⟨level, arguments, htest, htrue, hfalse⟩

theorem unguard_wrap (receiver : Expr) (method : String) (arguments : List Expr) :
    unguard guarding.logger (guarding.wrap receiver method arguments)
      = .call (unguard guarding.logger receiver) method (unguardAll guarding.logger arguments) := by
  rcases guarding.wrap_eq_or receiver method arguments with h | ⟨level, hfate, h⟩
  · rw [h, unguard]
  · obtain ⟨rfl, rfl, _⟩ := fate_eq_wrapped_iff.mp hfate
    have hguard : isStandardGuard guarding.logger (.call (.var guarding.logger) level.check [])
        (.call (.var guarding.logger) level.method arguments) (.const .null) = true :=
      isStandardGuard_iff.mpr ⟨level, arguments, rfl, rfl, rfl⟩
    rw [h, Expr.guarded, unguard, if_pos hguard, unguard]

theorem unguardAll_guardAll {exprs : List Expr}
    (h : ∀ expr ∈ exprs, unguard guarding.logger (guarding.guard expr) = unguard guarding.logger expr) :
    unguardAll guarding.logger (guarding.guardAll exprs) = unguardAll guarding.logger exprs := by
  rw [unguardAll_eq_map, unguardAll_eq_map, guardAll_eq_map, List.map_map]
  exact List.map_congr_left h

/-- Unguarding an expression with guards gives what unguarding the expression gives. -/
theorem unguard_guard (guarding : Guarding) (expr : Expr) :
    unguard guarding.logger (guarding.guard expr) = unguard guarding.logger expr := by
  induction expr with
  | absent | const | var | classRef => rw [guard]
  | args arguments ih => rw [guard, unguard, unguard, unguardAll_guardAll ih]
  | property receiver name ih => rw [guard, unguard, unguard, ih]
  | condition inner ih => rw [guard, unguard, unguard, ih]
  | not operand ih => rw [guard, unguard, unguard, ih]
  | call receiver method arguments ihReceiver ihArguments =>
    rw [guard, unguard_wrap, unguard, ihReceiver, unguardAll_guardAll ihArguments]
  | ternary test whenTrue whenFalse ihTest ihTrue ihFalse =>
    have hnull : (guarding.guard whenFalse == .const .null) = (whenFalse == .const .null) := by
      rw [Bool.eq_iff_iff, beq_iff_eq, beq_iff_eq, guard_eq_const_iff]
    by_cases hguard : guarding.isGuard test whenTrue = true
    · -- The call keeps its place, so the ternary is a guard before and after.
      obtain ⟨level, arguments, rfl, rfl⟩ := isGuard_iff.mp hguard
      have hafter : guarding.isGuard (.call (.var guarding.logger) level.check [])
          (.call (.var guarding.logger) level.method (guarding.guardAll arguments)) = true :=
        isGuard_iff.mpr ⟨level, _, rfl, rfl⟩
      have hcall : unguardAll guarding.logger (guarding.guardAll arguments)
          = unguardAll guarding.logger arguments := by
        rw [guard, unguard_wrap, unguard] at ihTrue
        exact (Expr.call.inj ihTrue).2.2
      rw [guard, if_pos hguard, guardParts, guard]
      simp only [unguard, isStandardGuard_eq, hguard, hafter, hnull, hcall, ihFalse]
    · have hguard := Bool.eq_false_iff.mpr hguard
      rw [guard, if_neg (by simp [hguard])]
      simp only [unguard, isStandardGuard_eq, isGuard_guard_eq_false hguard, hguard,
        Bool.false_and, Bool.false_eq_true, if_false, ihTest, ihTrue, ihFalse]

end Guarding

end GuardedLogging
