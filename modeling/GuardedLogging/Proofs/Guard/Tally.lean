import GuardedLogging.Audit
import GuardedLogging.Proofs.Guard.Shape
import GuardedLogging.Transformation

/-!
# The audit of guarded expressions

The audit counts logging calls on its own terms: it takes a ternary for a guard without asking whether the check has arguments. On an expression that guarding has gone through, with no call skipped, the two agree: every logging call stands behind a guard, and there are as many of them as guarding has inserted and found.
-/

namespace GuardedLogging

namespace Audit

namespace Tally

@[simp] theorem guarded_add (left right : Tally) :
    (left + right).guarded = left.guarded + right.guarded := rfl

@[simp] theorem unguarded_add (left right : Tally) :
    (left + right).unguarded = left.unguarded + right.unguarded := rfl

@[ext] theorem ext {left right : Tally} (hguarded : left.guarded = right.guarded)
    (hunguarded : left.unguarded = right.unguarded) : left = right := by
  cases left
  cases right
  simp_all

/-- The tally of expressions all of whose logging calls are guarded. -/
def allGuarded (count : Nat) : Tally := ⟨count, 0⟩

theorem allGuarded_add (left right : Nat) :
    allGuarded left + allGuarded right = allGuarded (left + right) := rfl

end Tally

open Tally

/-! ### What the audit recognises -/

theorem isLoggingMethod_iff {method : String} :
    isLoggingMethod method = true ↔ ∃ level : Level, method = level.method := by
  rw [isLoggingMethod, Option.isSome_iff_exists]
  simp only [Level.ofMethod?_eq_some_iff]

theorem isLoggingMethod_check (level : Level) : isLoggingMethod level.check = false := by
  cases level <;> decide

theorem isLoggingCall_iff {logger : String} {receiver : Expr} {method : String} :
    isLoggingCall logger receiver method = true ↔
      receiver = .var logger ∧ ∃ level : Level, method = level.method := by
  cases receiver with
  | var name => rw [isLoggingCall, Bool.and_eq_true, beq_iff_eq, isLoggingMethod_iff, Expr.var.injEq]
  | _ => simp [isLoggingCall]

/-- The audit's guard: the check of a level, whatever its arguments, in front of a call of the level's method. -/
theorem isGuard_eq_true_iff {logger : String} {test whenTrue : Expr} :
    isGuard logger test whenTrue = true ↔
      ∃ (level : Level) (checkArguments arguments : List Expr),
        test = .call (.var logger) level.check checkArguments ∧
          whenTrue = .call (.var logger) level.method arguments := by
  unfold isGuard
  constructor
  · intro h
    split at h
    · rename_i checked check checkArguments receiver method arguments
      simp only [Bool.and_eq_true, beq_iff_eq] at h
      obtain ⟨⟨⟨hlogs, hcheck⟩, rfl⟩, rfl⟩ := h
      obtain ⟨level, rfl⟩ := isLoggingMethod_iff.mp hlogs
      rw [checkName?_method, Option.some.injEq] at hcheck
      exact ⟨level, checkArguments, arguments, by rw [hcheck], rfl⟩
    · cases h
  · rintro ⟨level, checkArguments, arguments, rfl, rfl⟩
    have hlogs : isLoggingMethod level.method = true := isLoggingMethod_iff.mpr ⟨level, rfl⟩
    simp [hlogs, checkName?_method]

/-- What guarding takes for a guard the audit does too. -/
theorem isGuard_of_isGuard {guarding : Guarding} {test whenTrue : Expr}
    (h : guarding.isGuard test whenTrue = true) : isGuard guarding.logger test whenTrue = true := by
  obtain ⟨level, arguments, rfl, rfl⟩ := Guarding.isGuard_iff.mp h
  exact isGuard_eq_true_iff.mpr ⟨level, [], arguments, rfl, rfl⟩

theorem tally_check (logger : String) (level : Level) :
    tally logger (.call (.var logger) level.check []) = allGuarded 0 := by
  have hcheck : isLoggingCall logger (.var logger) level.check = false := by
    rw [isLoggingCall, isLoggingMethod_check, Bool.and_false]
  simp only [tally, hcheck, tallyAll]
  rfl

/-- A guard counts once, beside what its call and its other branch hold. -/
theorem tally_guarded_call (logger : String) (level : Level) (arguments : List Expr)
    (whenFalse : Expr) :
    tally logger (.ternary (.call (.var logger) level.check [])
        (.call (.var logger) level.method arguments) whenFalse)
      = allGuarded 1 + tallyAll logger arguments + tally logger whenFalse := by
  have hguard : isGuard logger (.call (.var logger) level.check [])
      (.call (.var logger) level.method arguments) = true :=
    isGuard_eq_true_iff.mpr ⟨level, [], arguments, rfl, rfl⟩
  rw [tally, if_pos hguard, tally_check, tallyParts, tally]
  ext <;> simp [allGuarded]

theorem tally_call_of_not_logging {logger : String} {receiver : Expr} {method : String}
    (h : isLoggingCall logger receiver method = false) (arguments : List Expr) :
    tally logger (.call receiver method arguments)
      = tally logger receiver + tallyAll logger arguments := by
  rw [tally, h]
  ext <;> simp

end Audit

/-- The decisions that leave a call behind a guard. -/
def Decision.guards (decisions : List Decision) : Nat :=
  decisions.countP isWrapped + decisions.count .alreadyGuarded

theorem Decision.guards_append (left right : List Decision) :
    guards (left ++ right) = guards left + guards right := by
  simp only [guards, List.countP_append, List.count_append]
  omega

/-- Only a call that is wrapped is put behind a guard. -/
theorem Decision.guards_decisions_eq_zero {fate : CallFate}
    (h : ∀ level, fate ≠ .wrapped level) : guards fate.decisions = 0 := by
  rw [guards, CallFate.countP_isWrapped_eq_zero h, CallFate.count_alreadyGuarded]

namespace Guarding

open Audit Audit.Tally Decision

variable {guarding : Guarding}

theorem fate_loggingCall (hskip : guarding.skipSimple = false) (level : Level)
    (arguments : List Expr) :
    guarding.fate (.var guarding.logger) level.method arguments = .wrapped level :=
  fate_eq_wrapped_iff.mpr ⟨rfl, rfl, by rw [hskip, Bool.false_and]⟩

theorem guard_ne_loggingCall (hskip : guarding.skipSimple = false) (expr : Expr) (level : Level)
    (arguments : List Expr) :
    guarding.guard expr ≠ .call (.var guarding.logger) level.method arguments := by
  intro h
  obtain ⟨_, _, _, _, _, hfate⟩ := guard_eq_call h
  exact hfate level (fate_loggingCall hskip level arguments)

/-- What the audit sees of a call that is guarded, and of the call of a guard that was there. -/
theorem tally_guard_loggingCall (hskip : guarding.skipSimple = false) (level : Level)
    (arguments : List Expr) :
    tally guarding.logger (guarding.guard (.call (.var guarding.logger) level.method arguments))
      = allGuarded 1 + tallyAll guarding.logger (guarding.guardAll arguments) := by
  rw [guard, guard, wrap_of_fate_eq_wrapped (fate_loggingCall hskip level _), Expr.guarded,
    tally_guarded_call, tally]
  ext <;> simp

theorem guards_decisions_loggingCall (hskip : guarding.skipSimple = false) (level : Level)
    (arguments : List Expr) :
    guards (guarding.decisions (.call (.var guarding.logger) level.method arguments))
      = 1 + guards (guarding.decisionsAll arguments) := by
  rw [decisions, fate_loggingCall hskip, guards_append, decisions, List.nil_append, Nat.add_comm]
  rfl

theorem tallyAll_guardAll {exprs : List Expr}
    (h : ∀ expr ∈ exprs, tally guarding.logger (guarding.guard expr)
      = allGuarded (guards (guarding.decisions expr))) :
    tallyAll guarding.logger (guarding.guardAll exprs)
      = allGuarded (guards (guarding.decisionsAll exprs)) := by
  induction exprs with
  | nil => rfl
  | cons expr rest ih =>
    have hexpr := h expr List.mem_cons_self
    have hrest := ih fun other hother => h other (List.mem_cons_of_mem _ hother)
    rw [guardAll, tallyAll, decisionsAll, guards_append, hexpr, hrest, allGuarded_add]

/-- Every logging call of a guarded expression is guarded, and counts as one decision to guard it or to leave its guard. -/
theorem tally_guard_eq_allGuarded (hskip : guarding.skipSimple = false) (expr : Expr) :
    tally guarding.logger (guarding.guard expr)
      = allGuarded (guards (guarding.decisions expr)) := by
  induction expr with
  | absent | const | var | classRef => rfl
  | args arguments ih => rw [guard, tally, decisions, tallyAll_guardAll ih]
  | property receiver name ih => rw [guard, tally, decisions, ih]
  | condition inner ih => rw [guard, tally, decisions, ih]
  | not operand ih => rw [guard, tally, decisions, ih]
  | call receiver method arguments ihReceiver ihArguments =>
    have harguments := tallyAll_guardAll ihArguments
    by_cases hlogs : isLoggingCall guarding.logger receiver method = true
    · obtain ⟨rfl, level, rfl⟩ := isLoggingCall_iff.mp hlogs
      rw [tally_guard_loggingCall hskip, guards_decisions_loggingCall hskip, harguments,
        allGuarded_add]
    · have hfate : ∀ level, guarding.fate receiver method arguments ≠ .wrapped level := by
        intro level hfate
        obtain ⟨hreceiver, hmethod, _⟩ := fate_eq_wrapped_iff.mp hfate
        exact hlogs (isLoggingCall_iff.mpr ⟨hreceiver, level, hmethod⟩)
      have hafter : isLoggingCall guarding.logger (guarding.guard receiver) method = false := by
        refine Bool.eq_false_iff.mpr fun hafter => hlogs ?_
        obtain ⟨hreceiver, hmethod⟩ := isLoggingCall_iff.mp hafter
        exact isLoggingCall_iff.mpr ⟨guard_eq_var_iff.mp hreceiver, hmethod⟩
      rw [guard, wrap_of_fate_ne_wrapped (by rw [fate_guard]; exact hfate),
        tally_call_of_not_logging hafter, ihReceiver, harguments, allGuarded_add, decisions,
        guards_append, guards_append, guards_decisions_eq_zero hfate, Nat.add_zero]
  | ternary test whenTrue whenFalse ihTest ihTrue ihFalse =>
    by_cases hguard : guarding.isGuard test whenTrue = true
    · -- The audit counts the guard once, as if the call had just been wrapped.
      obtain ⟨level, arguments, rfl, rfl⟩ := isGuard_iff.mp hguard
      rw [guard, if_pos hguard, guardParts, guard, tally_guarded_call,
        ← tally_guard_loggingCall hskip, ihTrue, ihFalse, allGuarded_add,
        guards_decisions_loggingCall hskip, decisions, if_pos hguard, decisionsInParts, decisions,
        List.nil_append, List.cons_append, ← List.singleton_append, guards_append, guards_append,
        Nat.add_assoc]
      rfl
    · -- The first branch is no call on the logger any more, so the audit sees no guard either.
      have haudit : Audit.isGuard guarding.logger (guarding.guard test) (guarding.guard whenTrue)
          = false := by
        refine Bool.eq_false_iff.mpr fun haudit => ?_
        obtain ⟨level, _, arguments, _, htrue⟩ := isGuard_eq_true_iff.mp haudit
        exact guard_ne_loggingCall hskip whenTrue level arguments htrue
      rw [guard, if_neg hguard, decisions, if_neg hguard, tally, haudit, if_neg Bool.false_ne_true,
        ihTest, ihTrue, ihFalse, allGuarded_add, allGuarded_add, guards_append, guards_append]

end Guarding

/-- No logging call is left unguarded: in an expression guarded without skipping, the audit finds no unguarded call, and as many guarded ones as were wrapped and were guarded already. -/
theorem no_logging_call_left_unguarded (logger className strategy : String)
    (shadowedMethods : List String) (expr : Expr) :
    let guarding : Guarding := ⟨logger, false⟩
    let report : ClassReport :=
      ⟨className, logger, strategy, guarding.decisions expr, shadowedMethods⟩
    (Audit.tally logger (guarding.guard expr)).unguarded = 0 ∧
      (Audit.tally logger (guarding.guard expr)).guarded = report.wrapped + report.alreadyGuarded := by
  intro guarding report
  have htally : Audit.tally logger (guarding.guard expr)
      = .allGuarded (Decision.guards (guarding.decisions expr)) :=
    @Guarding.tally_guard_eq_allGuarded guarding rfl expr
  rw [htally]
  exact ⟨rfl, rfl⟩

end GuardedLogging
