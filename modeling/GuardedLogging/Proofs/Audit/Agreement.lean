import Mathlib.Control.Monad.Basic
import GuardedLogging.Expr.Equality
import GuardedLogging.Expr.Parse
import GuardedLogging.Proofs.Expr.Nodes
import GuardedLogging.Proofs.Guard.Tally
import GuardedLogging.Transformation

/-!
# Guarding and the audit see the same calls

Guarding goes through an expression from the leaves to the root and takes a decision on each call on the logger; the audit goes from the root to the leaves and counts. Neither knows of the other, but both account for the calls that are among the nodes of the expression: each logging call once, and each other call on the logger once, be it left untouched or be it the check of a guard that was there.

What they take for a guard is not quite the same. A check that is asked with arguments makes a guard to the audit only.
-/

namespace GuardedLogging

/-! ### The calls on a name -/

namespace Expr

/-- Whether the node is a call of a method of the kind on the bare name. -/
def isCallOn (logger : String) (kind : String → Bool) : Expr → Bool
  | call (var name) method _ => name == logger && kind method
  | _ => false

/-- How many calls of methods of the kind there are on the bare name, anywhere in the expression. -/
def callsOn (logger : String) (kind : String → Bool) (expr : Expr) : Nat :=
  expr.nodes.countP (isCallOn logger kind)

/-- What a call is made of beside itself. -/
def partNodes : Expr → List Expr
  | call receiver _ arguments => receiver.nodes ++ nodesAll arguments
  | _ => []

def isCall : Expr → Bool
  | call .. => true
  | _ => false

variable {logger : String} {kind : String → Bool}

theorem isCallOn_eq_false {expr : Expr} (h : expr.isCall = false) : isCallOn logger kind expr = false := by
  cases expr with
  | call receiver method arguments => cases h
  | _ => rfl

theorem isCallOn_call_of_ne {receiver : Expr} (h : receiver ≠ .var logger) (method : String)
    (arguments : List Expr) : isCallOn logger kind (call receiver method arguments) = false := by
  cases receiver with
  | var name =>
    have hname : (name == logger) = false := beq_eq_false_iff_ne.mpr fun hname => h (congrArg var hname)
    rw [isCallOn, hname, Bool.false_and]
  | _ => rfl

theorem isCallOn_call_var (method : String) (arguments : List Expr) :
    isCallOn logger kind (call (var logger) method arguments) = kind method := by
  rw [isCallOn, beq_self_eq_true, Bool.true_and]

end Expr

open GuardedLogging.Expr

/-! ### What guarding accounts for -/

/-- The methods that do not log. -/
def isOtherMethod (method : String) : Bool := !isLoggingMethod method

/-- The decisions account for the calls among the nodes: there is one for each logging call, and one for each other call that is no check of a guard. -/
structure Decision.Account (logger : String) (decisions : List Decision) (nodes : List Expr) : Prop where
  logging : decisions.countP isWrapped + decisions.count .skipped + decisions.count .alreadyGuarded
    = nodes.countP (isCallOn logger isLoggingMethod)
  others : decisions.count .untouched + decisions.count .alreadyGuarded
    = nodes.countP (isCallOn logger isOtherMethod)

namespace Decision.Account

variable {logger : String} {decisions others : List Decision} {nodes otherNodes : List Expr}

theorem nil : Account logger [] [] := ⟨rfl, rfl⟩

theorem append (h : Account logger decisions nodes) (hothers : Account logger others otherNodes) :
    Account logger (decisions ++ others) (nodes ++ otherNodes) where
  logging := by
    have hlogging := h.logging
    have hothersLogging := hothers.logging
    simp only [List.countP_append, List.count_append]
    omega
  others := by
    have hcalls := h.others
    have hothersCalls := hothers.others
    simp only [List.countP_append, List.count_append]
    omega

theorem cons_of_not_call {node : Expr} (hnode : node.isCall = false) (h : Account logger decisions nodes) :
    Account logger decisions (node :: nodes) where
  logging := by rw [List.countP_cons, isCallOn_eq_false hnode, h.logging]; rfl
  others := by rw [List.countP_cons, isCallOn_eq_false hnode, h.others]; rfl

/-- A call comes before what it is made of, and the decision on it behind those on its parts. -/
theorem cons_call {node : Expr} (hnode : Account logger others [node]) (h : Account logger decisions nodes) :
    Account logger (decisions ++ others) (node :: nodes) := by
  have hswapped := h.append hnode
  have hperm := List.perm_append_singleton node nodes
  exact ⟨hswapped.logging.trans (hperm.countP_eq _), hswapped.others.trans (hperm.countP_eq _)⟩

end Decision.Account

namespace Guarding

open Decision

variable {guarding : Guarding}

theorem account_fate (receiver : Expr) (method : String) (arguments : List Expr) :
    Account guarding.logger (guarding.fate receiver method arguments).decisions
      [.call receiver method arguments] := by
  by_cases hlogger : receiver = .var guarding.logger
  · subst hlogger
    rcases fate_logger_cases method arguments with ⟨hmethod, hfate⟩ | ⟨hmethod, hfate | ⟨level, hfate⟩⟩
    all_goals
      rw [hfate]
      constructor <;> simp [isCallOn_call_var, isOtherMethod, hmethod, CallFate.decisions, isWrapped]
  · rw [fate_eq_elsewhere hlogger]
    constructor <;> simp [isCallOn_call_of_ne hlogger, CallFate.decisions]

/-- One decision accounts for both calls of a guard: the call that logs and the check, which is another call on the logger. -/
theorem account_guard {test whenTrue : Expr} (h : guarding.isGuard test whenTrue = true) :
    Account guarding.logger [.alreadyGuarded] (test.nodes ++ [whenTrue]) := by
  obtain ⟨level, arguments, rfl, rfl⟩ := isGuard_iff.mp h
  have hmethod : isLoggingMethod level.method = true := Audit.isLoggingMethod_iff.mpr ⟨level, rfl⟩
  have hcheck : isLoggingMethod level.check = false := Audit.isLoggingMethod_check level
  constructor <;>
    simp [nodes, nodesAll, isCallOn, isOtherMethod, hmethod, hcheck, isWrapped]

mutual

theorem account_decisions (expr : Expr) :
    Account guarding.logger (guarding.decisions expr) expr.nodes := by
  cases expr with
  | absent | const | var | classRef => exact .cons_of_not_call rfl .nil
  | args arguments => exact .cons_of_not_call rfl (account_decisionsAll arguments)
  | condition inner => exact .cons_of_not_call rfl (account_decisions inner)
  | not operand => exact .cons_of_not_call rfl (account_decisions operand)
  | property receiver name => exact .cons_of_not_call rfl (account_decisions receiver)
  | call receiver method arguments =>
    exact .cons_call (account_fate receiver method arguments)
      ((account_decisions receiver).append (account_decisionsAll arguments))
  | ternary test whenTrue whenFalse =>
    have hfalse := account_decisions whenFalse
    by_cases hguard : guarding.isGuard test whenTrue = true
    · have hparts := account_decisionsInParts whenTrue
      rw [decisions, if_pos hguard, nodes]
      refine .cons_of_not_call rfl ?_
      have hnodes : whenTrue.nodes = [whenTrue] ++ whenTrue.partNodes := by
        obtain ⟨level, arguments, rfl, rfl⟩ := isGuard_iff.mp hguard
        rfl
      rw [hnodes, ← List.append_assoc]
      exact ((account_guard hguard).append hparts).append hfalse
    · rw [decisions, if_neg hguard, nodes]
      exact .cons_of_not_call rfl
        (((account_decisions test).append (account_decisions whenTrue)).append hfalse)

theorem account_decisionsInParts (expr : Expr) :
    Account guarding.logger (guarding.decisionsInParts expr) expr.partNodes := by
  cases expr with
  | call receiver method arguments =>
    exact (account_decisions receiver).append (account_decisionsAll arguments)
  | _ => exact .nil

theorem account_decisionsAll (exprs : List Expr) :
    Account guarding.logger (guarding.decisionsAll exprs) (nodesAll exprs) := by
  cases exprs with
  | nil => exact .nil
  | cons expr rest => exact (account_decisions expr).append (account_decisionsAll rest)

end

end Guarding

/-! ### What the audit counts -/

namespace Audit

variable {logger : String}

/-- All the calls that are counted, with a guard and without one. -/
def Tally.total (tally : Tally) : Nat := tally.guarded + tally.unguarded

@[simp] theorem Tally.total_add (left right : Tally) : (left + right).total = left.total + right.total := by
  simp only [total, guarded_add, unguarded_add]
  omega

theorem isCallOn_call (receiver : Expr) (method : String) (arguments : List Expr) :
    isCallOn logger isLoggingMethod (.call receiver method arguments)
      = isLoggingCall logger receiver method := by
  cases receiver <;> rfl

mutual

theorem total_tally (expr : Expr) :
    (tally logger expr).total = expr.nodes.countP (isCallOn logger isLoggingMethod) := by
  cases expr with
  | absent | const | var | classRef => rfl
  | args arguments => exact total_tallyAll arguments
  | condition inner => exact total_tally inner
  | not operand => exact total_tally operand
  | property receiver name => exact total_tally receiver
  | call receiver method arguments =>
    have hreceiver := total_tally receiver
    have harguments := total_tallyAll arguments
    rw [tally, Tally.total_add, Tally.total_add, hreceiver, harguments, nodes, List.countP_cons,
      List.countP_append, isCallOn_call, Nat.add_assoc, Nat.add_comm]
    by_cases hlogs : isLoggingCall logger receiver method = true
    · rw [if_pos hlogs, if_pos hlogs]
      rfl
    · rw [if_neg hlogs, if_neg hlogs]
      rfl
  | ternary test whenTrue whenFalse =>
    have htest := total_tally test
    have hfalse := total_tally whenFalse
    by_cases hguard : isGuard logger test whenTrue = true
    · -- The guard is counted for the call behind it, and of the call its parts are left to count.
      have hparts := total_tallyParts whenTrue
      have htrue : whenTrue.nodes.countP (isCallOn logger isLoggingMethod)
          = whenTrue.partNodes.countP (isCallOn logger isLoggingMethod) + 1 := by
        obtain ⟨level, _, arguments, _, rfl⟩ := isGuard_eq_true_iff.mp hguard
        have hlogs : isLoggingCall logger (.var logger) level.method = true :=
          isLoggingCall_iff.mpr ⟨rfl, level, rfl⟩
        rw [nodes, List.countP_cons, isCallOn_call, if_pos hlogs, partNodes]
      have hone : Tally.total ⟨1, 0⟩ = 1 := rfl
      rw [tally, if_pos hguard, nodes, List.countP_cons_of_neg (by simp [isCallOn]), List.countP_append,
        List.countP_append, htrue]
      simp only [Tally.total_add, hone, htest, hparts, hfalse]
      omega
    · rw [tally, if_neg hguard, nodes, List.countP_cons_of_neg (by simp [isCallOn]), List.countP_append,
        List.countP_append, Tally.total_add, Tally.total_add, htest, total_tally whenTrue, hfalse]

theorem total_tallyParts (expr : Expr) :
    (tallyParts logger expr).total = expr.partNodes.countP (isCallOn logger isLoggingMethod) := by
  cases expr with
  | call receiver method arguments =>
    rw [tallyParts, Tally.total_add, total_tally receiver, total_tallyAll arguments, partNodes,
      List.countP_append]
  | _ => rfl

theorem total_tallyAll (exprs : List Expr) :
    (tallyAll logger exprs).total = (nodesAll exprs).countP (isCallOn logger isLoggingMethod) := by
  cases exprs with
  | nil => rfl
  | cons expr rest =>
    rw [tallyAll, Tally.total_add, total_tally expr, total_tallyAll rest, nodesAll, List.countP_append]

end

end Audit

/-- Guarding decides once on each call that logs on the logger, and the audit counts each once, with a guard or without. Guarding also decides once on each other call on the logger, be it left untouched or be it the check of a guard that was there. -/
theorem every_logging_call_is_accounted_for (guarding : Guarding) (before : ClassReport) (expr : Expr) :
    let after : ClassReport := { before with decisions := before.decisions ++ guarding.decisions expr }
    let tally := Audit.tally guarding.logger expr
    let logging := expr.callsOn guarding.logger isLoggingMethod
    let others := expr.callsOn guarding.logger isOtherMethod
    after.wrapped + after.skipped + after.alreadyGuarded
        = before.wrapped + before.skipped + before.alreadyGuarded + logging ∧
      tally.guarded + tally.unguarded = logging ∧
      after.untouched + after.alreadyGuarded = before.untouched + before.alreadyGuarded + others := by
  intro after tally logging others
  have haccount : Decision.Account guarding.logger (guarding.decisions expr) expr.nodes :=
    Guarding.account_decisions expr
  have hlogging : _ = logging := haccount.logging
  have hothers : _ = others := haccount.others
  have hwrapped : after.wrapped = before.wrapped + (guarding.decisions expr).countP Decision.isWrapped :=
    List.countP_append
  have hskipped : after.skipped = before.skipped + (guarding.decisions expr).count .skipped :=
    List.count_append
  have huntouched : after.untouched = before.untouched + (guarding.decisions expr).count .untouched :=
    List.count_append
  have hguarded : after.alreadyGuarded
      = before.alreadyGuarded + (guarding.decisions expr).count .alreadyGuarded :=
    List.count_append
  exact ⟨by omega, Audit.total_tally expr, by omega⟩

/-! ### What both take for a guard -/

/-- The test asks the check of a level with arguments, in front of a call of that level's method. -/
def ChecksWithArguments (logger : String) (test whenTrue : Expr) : Prop :=
  ∃ (level : Level) (first : Expr) (others arguments : List Expr),
    test = .call (.var logger) level.check (first :: others) ∧
      whenTrue = .call (.var logger) level.method arguments

/-- Such a ternary is a guard to the audit and none to guarding, and it is the only kind that is. -/
theorem checksWithArguments_iff {guarding : Guarding} {test whenTrue : Expr} :
    ChecksWithArguments guarding.logger test whenTrue ↔
      Audit.isGuard guarding.logger test whenTrue = true ∧ ¬guarding.isGuard test whenTrue = true := by
  rw [Audit.isGuard_eq_true_iff, Guarding.isGuard_iff]
  constructor
  · rintro ⟨level, first, others, arguments, rfl, rfl⟩
    refine ⟨⟨level, first :: others, arguments, rfl, rfl⟩, ?_⟩
    rintro ⟨_, _, htest, _⟩
    cases (Expr.call.inj htest).2.2
  · rintro ⟨⟨level, checkArguments, arguments, rfl, rfl⟩, hguarding⟩
    cases checkArguments with
    | nil => exact absurd ⟨level, arguments, rfl, rfl⟩ hguarding
    | cons first others => exact ⟨level, first, others, arguments, rfl, rfl⟩

/-- Guarding and the audit agree whether a ternary is a guard on the logger, except where its check is asked with arguments. -/
theorem guards_are_recognised_alike_iff (guarding : Guarding) (test whenTrue : Expr) :
    guarding.isGuard test whenTrue = Audit.isGuard guarding.logger test whenTrue ↔
      ¬ChecksWithArguments guarding.logger test whenTrue := by
  rw [checksWithArguments_iff, Bool.eq_iff_iff]
  constructor
  · rintro halike ⟨haudit, hguarding⟩
    exact hguarding (halike.mpr haudit)
  · intro halike
    exact ⟨Audit.isGuard_of_isGuard, fun haudit => Decidable.not_not.mp fun hguarding => halike ⟨haudit, hguarding⟩⟩

/-- The audit counts a call behind a check with arguments as guarded, and guarding wraps it. -/
theorem check_with_arguments_guards_for_the_audit_only :
    let test : Expr := .call (.var "log") "isDebugEnabled" [.const (.int 1)]
    let whenTrue : Expr := .call (.var "log") "debug" [.var "x"]
    let expr : Expr := .ternary test whenTrue (.const .null)
    let guarding : Guarding := ⟨"log", false⟩
    Expr.parse "log.isDebugEnabled(1) ? log.debug(x) : null" = .ok expr ∧
      Audit.isGuard "log" test whenTrue = true ∧ guarding.isGuard test whenTrue = false ∧
      Audit.tally "log" expr = ⟨1, 0⟩ ∧ guarding.decisions expr = [.untouched, .wrapped .debug] := by
  intro test whenTrue expr guarding
  have hparse : Expr.parse "log.isDebugEnabled(1) ? log.debug(x) : null" = .ok expr := by decide +kernel
  exact ⟨hparse, rfl, rfl, rfl, rfl⟩

end GuardedLogging
