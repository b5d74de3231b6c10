import GuardedLogging.Proofs.Guard.Shape
import GuardedLogging.Transformation

/-!
# Runs compose

An expression may be guarded again, with other settings. A guard that one run puts in is a guard to the next, and what a run does to the children of a call or of a ternary changes no later decision about it. So two runs do together what one run does that skips a call only if both skip it: they leave the same expression behind, and what they report adds up.
-/

namespace GuardedLogging

namespace Guarding

variable {logger : String} {first second : Bool} {receiver : Expr} {method : String} {arguments : List Expr}
  {level : Level}

/-! ### What the second run finds -/

theorem fate_and_of_wrapped (h : fate ⟨logger, first⟩ receiver method arguments = .wrapped level) :
    fate ⟨logger, first && second⟩ receiver method arguments = .wrapped level := by
  obtain ⟨hreceiver, hmethod, hskip⟩ := fate_eq_wrapped_iff.mp h
  refine fate_eq_wrapped_iff.mpr ⟨hreceiver, hmethod, ?_⟩
  rw [Bool.and_assoc, Bool.and_comm second, ← Bool.and_assoc, hskip, Bool.false_and]

/-- The fate of a call that the first run leaves as it is rests with the second. -/
theorem fate_and_of_ne_wrapped
    (h : ∀ level, fate ⟨logger, first⟩ receiver method arguments ≠ .wrapped level) :
    fate ⟨logger, first && second⟩ receiver method arguments
      = fate ⟨logger, second⟩ receiver method arguments := by
  cases first with
  | true => rfl
  | false =>
    -- A run that skips nothing only leaves what does not log on the logger, and that is never skipped.
    by_cases hlogger : receiver = .var logger
    · subst hlogger
      cases hmethod : Level.ofMethod? method with
      | none => simp [fate, isLogger, hmethod]
      | some level => exact absurd (by simp [fate, isLogger, hmethod]) (h level)
    · rw [fate_eq_elsewhere hlogger, fate_eq_elsewhere hlogger]

theorem isGuard_guardParts {test whenTrue : Expr} (h : isGuard ⟨logger, first⟩ test whenTrue = true) :
    isGuard ⟨logger, second⟩ test (guardParts ⟨logger, first⟩ whenTrue) = true := by
  obtain ⟨level, arguments, rfl, rfl⟩ := isGuard_iff.mp h
  exact isGuard_iff.mpr ⟨level, _, rfl, rfl⟩

/-- A ternary that is no guard to the first run is none to the second, whatever the first has put into it. -/
theorem not_isGuard_guard {test whenTrue : Expr} (h : ¬isGuard ⟨logger, first⟩ test whenTrue = true) :
    ¬isGuard ⟨logger, second⟩ (guard ⟨logger, first⟩ test) (guard ⟨logger, first⟩ whenTrue) = true :=
  Bool.eq_false_iff.mp (isGuard_guard_eq_false (Bool.eq_false_iff.mpr h))

theorem isGuard_check (skipSimple : Bool) (level : Level) (arguments : List Expr) :
    isGuard ⟨logger, skipSimple⟩ (.call (.var logger) level.check [])
      (.call (.var logger) level.method arguments) = true :=
  isGuard_iff.mpr ⟨level, arguments, rfl, rfl⟩

/-! ### The expression that two runs leave behind -/

/-- The second run keeps the guard that the first has put around a call, and decides anew on a call left as it is. -/
theorem guard_wrap (receiver : Expr) (method : String) (arguments : List Expr) :
    guard ⟨logger, second⟩ (wrap ⟨logger, first⟩ receiver method arguments)
      = wrap ⟨logger, first && second⟩ (guard ⟨logger, second⟩ receiver) method
          (guardAll ⟨logger, second⟩ arguments) := by
  have hchildren : fate ⟨logger, first && second⟩ (guard ⟨logger, second⟩ receiver) method
      (guardAll ⟨logger, second⟩ arguments) = fate ⟨logger, first && second⟩ receiver method arguments :=
    fate_guard receiver method arguments
  rcases (fate ⟨logger, first⟩ receiver method arguments).eq_wrapped_or with ⟨level, hfate⟩ | hne
  · rw [fate_and_of_wrapped hfate] at hchildren
    rw [wrap_of_fate_eq_wrapped hfate, wrap_of_fate_eq_wrapped hchildren]
    obtain ⟨rfl, rfl, _⟩ := fate_eq_wrapped_iff.mp hfate
    rw [Expr.guarded, guard, if_pos (isGuard_check second level arguments)]
    rfl
  · rw [wrap_of_fate_ne_wrapped hne, guard, wrap, wrap, hchildren, fate_and_of_ne_wrapped hne, fate_guard]

mutual

theorem guard_guard (expr : Expr) :
    guard ⟨logger, second⟩ (guard ⟨logger, first⟩ expr) = guard ⟨logger, first && second⟩ expr := by
  cases expr with
  | absent | const | var | classRef => rfl
  | args arguments => rw [guard, guard, guardAll_guardAll arguments, guard]
  | condition inner => rw [guard, guard, guard_guard inner, guard]
  | not operand => rw [guard, guard, guard_guard operand, guard]
  | property receiver name => rw [guard, guard, guard_guard receiver, guard]
  | call receiver method arguments =>
    rw [guard, guard_wrap, guard_guard receiver, guardAll_guardAll arguments, guard]
  | ternary test whenTrue whenFalse =>
    by_cases hguard : isGuard ⟨logger, first⟩ test whenTrue = true
    · have hboth : isGuard ⟨logger, first && second⟩ test whenTrue = true := hguard
      rw [guard, if_pos hguard, guard, if_pos (isGuard_guardParts hguard),
        guardParts_guardParts whenTrue, guard_guard whenFalse, guard, if_pos hboth]
    · have hboth : ¬isGuard ⟨logger, first && second⟩ test whenTrue = true := hguard
      rw [guard, if_neg hguard, guard, if_neg (not_isGuard_guard hguard), guard_guard test,
        guard_guard whenTrue, guard_guard whenFalse, guard, if_neg hboth]

theorem guardParts_guardParts (expr : Expr) :
    guardParts ⟨logger, second⟩ (guardParts ⟨logger, first⟩ expr)
      = guardParts ⟨logger, first && second⟩ expr := by
  cases expr with
  | call receiver method arguments =>
    rw [guardParts, guardParts, guard_guard receiver, guardAll_guardAll arguments, guardParts]
  | _ => rfl

theorem guardAll_guardAll (exprs : List Expr) :
    guardAll ⟨logger, second⟩ (guardAll ⟨logger, first⟩ exprs)
      = guardAll ⟨logger, first && second⟩ exprs := by
  cases exprs with
  | nil => rfl
  | cons expr rest => rw [guardAll, guardAll, guard_guard expr, guardAll_guardAll rest, guardAll]

end

end Guarding

/-! ### What two runs report -/

/-- The decisions of two runs, one after the other, and those of one run in place of both: a call is guarded once, by one of the two, and the guards that the second finds are those that the first put in or found. -/
structure Decision.Compose (first second both : List Decision) : Prop where
  wrapped : first.countP isWrapped + second.countP isWrapped = both.countP isWrapped
  skipped : second.count .skipped = both.count .skipped
  untouched : second.count .untouched = both.count .untouched
  alreadyGuarded : second.count .alreadyGuarded = first.countP isWrapped + first.count .alreadyGuarded

namespace Decision.Compose

theorem nil : Compose [] [] [] := ⟨rfl, rfl, rfl, rfl⟩

theorem append {first second both others othersSecond othersBoth : List Decision}
    (h : Compose first second both) (hothers : Compose others othersSecond othersBoth) :
    Compose (first ++ others) (second ++ othersSecond) (both ++ othersBoth) where
  wrapped := by
    have hwrapped := h.wrapped
    have hothersWrapped := hothers.wrapped
    simp only [List.countP_append]
    omega
  skipped := by rw [List.count_append, List.count_append, h.skipped, hothers.skipped]
  untouched := by rw [List.count_append, List.count_append, h.untouched, hothers.untouched]
  alreadyGuarded := by
    simp only [List.countP_append, List.count_append, h.alreadyGuarded, hothers.alreadyGuarded]
    omega

/-- The guard of a call is found in front of what the call holds, and was put in behind it. -/
theorem wrapped_append {first second both : List Decision} (h : Compose first second both) (level : Level) :
    Compose (first ++ [.wrapped level]) (.alreadyGuarded :: second) (both ++ [.wrapped level]) where
  wrapped := by simpa [isWrapped, Nat.add_right_comm] using h.wrapped
  skipped := by simpa using h.skipped
  untouched := by simpa using h.untouched
  alreadyGuarded := by simpa [isWrapped, Nat.add_right_comm] using h.alreadyGuarded

end Decision.Compose

namespace Guarding

open Decision

variable {logger : String} {first second : Bool}

/-- A call that the first run leaves as it is gets the decision of the second. -/
theorem compose_of_ne_wrapped {receiver : Expr} {method : String} {arguments : List Expr}
    (h : ∀ level, fate ⟨logger, first⟩ receiver method arguments ≠ .wrapped level) :
    Compose (fate ⟨logger, first⟩ receiver method arguments).decisions
      (fate ⟨logger, second⟩ receiver method arguments).decisions
      (fate ⟨logger, first && second⟩ receiver method arguments).decisions := by
  rw [fate_and_of_ne_wrapped h]
  have hfirst := CallFate.countP_isWrapped_eq_zero h
  exact {
    wrapped := by rw [hfirst, Nat.zero_add]
    skipped := rfl
    untouched := rfl
    alreadyGuarded := by rw [hfirst, CallFate.count_alreadyGuarded, CallFate.count_alreadyGuarded]
  }

mutual

theorem compose_decisions (expr : Expr) :
    Compose (decisions ⟨logger, first⟩ expr) (decisions ⟨logger, second⟩ (guard ⟨logger, first⟩ expr))
      (decisions ⟨logger, first && second⟩ expr) := by
  cases expr with
  | absent | const | var | classRef => exact .nil
  | args arguments => exact compose_decisionsAll arguments
  | condition inner => exact compose_decisions inner
  | not operand => exact compose_decisions operand
  | property receiver name => exact compose_decisions receiver
  | call receiver method arguments =>
    have hparts := (compose_decisions receiver).append (compose_decisionsAll arguments)
    rw [guard, decisions, decisions]
    rcases (fate ⟨logger, first⟩ receiver method arguments).eq_wrapped_or with ⟨level, hfate⟩ | hne
    · rw [hfate, fate_and_of_wrapped hfate, wrap_of_fate_eq_wrapped (by rw [fate_guard, hfate])]
      obtain ⟨rfl, rfl, _⟩ := fate_eq_wrapped_iff.mp hfate
      rw [guard, Expr.guarded, decisions, if_pos (isGuard_check second level _), decisions, List.append_nil]
      exact hparts.wrapped_append level
    · rw [wrap_of_fate_ne_wrapped (by rw [fate_guard]; exact hne), decisions, fate_guard]
      exact hparts.append (compose_of_ne_wrapped hne)
  | ternary test whenTrue whenFalse =>
    by_cases hguard : isGuard ⟨logger, first⟩ test whenTrue = true
    · have hboth : isGuard ⟨logger, first && second⟩ test whenTrue = true := hguard
      have hfound : Compose [.alreadyGuarded] [.alreadyGuarded] [.alreadyGuarded] := ⟨rfl, rfl, rfl, rfl⟩
      rw [guard, if_pos hguard, decisions, if_pos hguard, decisions, if_pos (isGuard_guardParts hguard),
        decisions, if_pos hboth]
      exact (hfound.append (compose_decisionsInParts whenTrue)).append (compose_decisions whenFalse)
    · have hboth : ¬isGuard ⟨logger, first && second⟩ test whenTrue = true := hguard
      rw [guard, if_neg hguard, decisions, if_neg hguard, decisions, if_neg (not_isGuard_guard hguard),
        decisions, if_neg hboth]
      exact ((compose_decisions test).append (compose_decisions whenTrue)).append (compose_decisions whenFalse)

theorem compose_decisionsInParts (expr : Expr) :
    Compose (decisionsInParts ⟨logger, first⟩ expr)
      (decisionsInParts ⟨logger, second⟩ (guardParts ⟨logger, first⟩ expr))
      (decisionsInParts ⟨logger, first && second⟩ expr) := by
  cases expr with
  | call receiver method arguments => exact (compose_decisions receiver).append (compose_decisionsAll arguments)
  | _ => exact .nil

theorem compose_decisionsAll (exprs : List Expr) :
    Compose (decisionsAll ⟨logger, first⟩ exprs)
      (decisionsAll ⟨logger, second⟩ (guardAll ⟨logger, first⟩ exprs))
      (decisionsAll ⟨logger, first && second⟩ exprs) := by
  cases exprs with
  | nil => exact .nil
  | cons expr rest => exact (compose_decisions expr).append (compose_decisionsAll rest)

end

end Guarding

/-- Two runs on one logger leave behind what one run does that skips a call only if both skip it, and guard as many calls together. So a run after which the same run comes is final: the second finds the guards that the first put in or found, skips what the first skipped, and guards no call again. -/
theorem runs_compose (logger className strategy : String) (shadowedMethods : List String)
    (first second : Bool) (expr : Expr) :
    let run (skipSimple : Bool) : Guarding := ⟨logger, skipSimple⟩
    let report (skipSimple : Bool) (expr : Expr) : ClassReport :=
      ⟨className, logger, strategy, (run skipSimple).decisions expr, shadowedMethods⟩
    let between := (run first).guard expr
    ((run second).guard between = (run (first && second)).guard expr ∧
      (report first expr).wrapped + (report second between).wrapped
        = (report (first && second) expr).wrapped) ∧
      (run first).guard between = between ∧
      (report first between).wrapped = 0 ∧
      (report first between).skipped = (report first expr).skipped ∧
      (report first between).alreadyGuarded
        = (report first expr).wrapped + (report first expr).alreadyGuarded := by
  intro run report between
  have htwo : Decision.Compose ((run first).decisions expr) ((run second).decisions between)
      ((run (first && second)).decisions expr) := Guarding.compose_decisions expr
  have hsame : Decision.Compose ((run first).decisions expr) ((run first).decisions between)
      ((run (first && first)).decisions expr) := Guarding.compose_decisions expr
  have hagain : (run first).guard between = (run (first && first)).guard expr := Guarding.guard_guard expr
  rw [Bool.and_self] at hsame hagain
  exact ⟨⟨Guarding.guard_guard expr, htwo.wrapped⟩, hagain, Nat.add_eq_left.mp hsame.wrapped, hsame.skipped,
    hsame.alreadyGuarded⟩

end GuardedLogging
