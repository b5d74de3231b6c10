import GuardedLogging.Expr.Equality
import GuardedLogging.Guard

/-!
# What guarding does to the shape of an expression

A guard goes around a call and around nothing else, so an expression of any other kind keeps its kind. What the rest of the theory needs of the decisions is stated here once: which calls get a guard, which ternaries are guards already, and that neither answer changes when the children have been guarded.
-/

namespace GuardedLogging

namespace CallFate

variable {fate : CallFate}

/-- A call is put behind a guard or left as it is. -/
theorem eq_wrapped_or (fate : CallFate) :
    (∃ level, fate = .wrapped level) ∨ ∀ level, fate ≠ .wrapped level := by
  cases fate with
  | wrapped level => exact .inl ⟨level, rfl⟩
  | _ => exact .inr fun _ => nofun

theorem countP_isWrapped_eq_zero (h : ∀ level, fate ≠ .wrapped level) :
    fate.decisions.countP Decision.isWrapped = 0 := by
  cases fate with
  | wrapped level => exact absurd rfl (h level)
  | _ => rfl

/-- A guard that was there is found at the ternary, not at a call. -/
theorem count_alreadyGuarded (fate : CallFate) : fate.decisions.count .alreadyGuarded = 0 := by
  cases fate <;> rfl

end CallFate

namespace Guarding

variable (guarding : Guarding)

theorem guardAll_eq_map (exprs : List Expr) :
    guarding.guardAll exprs = exprs.map guarding.guard := by
  induction exprs with
  | nil => rfl
  | cons expr rest ih => rw [guardAll, ih, List.map_cons]

variable {guarding}

theorem isLogger_iff {expr : Expr} :
    guarding.isLogger expr = true ↔ expr = .var guarding.logger := by
  cases expr <;> simp [isLogger]

/-! ### Which calls and which ternaries are recognised -/

/-- A call is guarded if it is a call of a level's method on the logger, unless its arguments are simple and such calls are skipped. -/
theorem fate_eq_wrapped_iff {receiver : Expr} {method : String} {arguments : List Expr}
    {level : Level} :
    guarding.fate receiver method arguments = .wrapped level ↔
      receiver = .var guarding.logger ∧ method = level.method ∧
        (guarding.skipSimple && arguments.all Expr.isSimple) = false := by
  unfold fate
  constructor
  · intro h
    split at h
    · cases h
    · rename_i hlogger
      have hreceiver := isLogger_iff.mp (by simpa using hlogger)
      split at h
      · cases h
      · rename_i found hfound
        split at h
        · cases h
        · rename_i hskip
          cases h
          exact ⟨hreceiver, Level.ofMethod?_eq_some_iff.mp hfound, by simpa using hskip⟩
  · rintro ⟨rfl, rfl, hskip⟩
    simp [isLogger, Level.ofMethod?_method, hskip]

theorem fate_eq_elsewhere {receiver : Expr} (h : receiver ≠ .var guarding.logger) (method : String)
    (arguments : List Expr) : guarding.fate receiver method arguments = .elsewhere := by
  have hlogger : guarding.isLogger receiver = false :=
    Bool.eq_false_iff.mpr fun hlogger => h (isLogger_iff.mp hlogger)
  rw [fate, hlogger]
  rfl

/-- A call on the logger is left untouched if its method does not log, and else skipped or guarded. -/
theorem fate_logger_cases (method : String) (arguments : List Expr) :
    (isLoggingMethod method = false ∧
        guarding.fate (.var guarding.logger) method arguments = .untouched) ∨
      (isLoggingMethod method = true ∧
        (guarding.fate (.var guarding.logger) method arguments = .skipped ∨
          ∃ level, guarding.fate (.var guarding.logger) method arguments = .wrapped level)) := by
  have hlogger : guarding.isLogger (.var guarding.logger) = true := isLogger_iff.mpr rfl
  unfold fate isLoggingMethod
  rw [hlogger]
  cases Level.ofMethod? method with
  | none => exact .inl ⟨rfl, rfl⟩
  | some level =>
    refine .inr ⟨rfl, ?_⟩
    by_cases hskip : (guarding.skipSimple && arguments.all Expr.isSimple) = true
    · exact .inl (if_pos hskip)
    · exact .inr ⟨level, if_neg hskip⟩

/-- A ternary is a guard if its test is the check of a level on the logger, without arguments, and its first branch a call of the same level's method. -/
theorem isGuard_iff {test whenTrue : Expr} :
    guarding.isGuard test whenTrue = true ↔
      ∃ (level : Level) (arguments : List Expr),
        test = .call (.var guarding.logger) level.check [] ∧
          whenTrue = .call (.var guarding.logger) level.method arguments := by
  unfold isGuard
  constructor
  · intro h
    split at h
    · rename_i checked check receiver method arguments
      simp only [Bool.and_eq_true, Option.any_eq_true, beq_iff_eq] at h
      obtain ⟨⟨hreceiver, hchecked⟩, level, hmethod, hcheck⟩ := h
      have hname := Level.ofMethod?_eq_some_iff.mp hmethod
      rw [isLogger_iff.mp hreceiver, isLogger_iff.mp hchecked, hname, ← hcheck]
      exact ⟨level, arguments, rfl, rfl⟩
    · cases h
  · rintro ⟨level, arguments, rfl, rfl⟩
    simp [isLogger, Level.ofMethod?_method]

/-! ### Guarding keeps the kind of an expression -/

theorem wrap_of_fate_eq_wrapped {receiver : Expr} {method : String} {arguments : List Expr}
    {level : Level} (h : guarding.fate receiver method arguments = .wrapped level) :
    guarding.wrap receiver method arguments
      = .guarded receiver level.check (.call receiver method arguments) := by
  rw [wrap, h]

theorem wrap_of_fate_ne_wrapped {receiver : Expr} {method : String} {arguments : List Expr}
    (h : ∀ level, guarding.fate receiver method arguments ≠ .wrapped level) :
    guarding.wrap receiver method arguments = .call receiver method arguments := by
  rw [wrap]
  split
  · rename_i level hfate
    exact absurd hfate (h level)
  · rfl

theorem wrap_eq_or (guarding : Guarding) (receiver : Expr) (method : String)
    (arguments : List Expr) :
    guarding.wrap receiver method arguments = .call receiver method arguments ∨
      ∃ level, guarding.fate receiver method arguments = .wrapped level ∧
        guarding.wrap receiver method arguments
          = .guarded receiver level.check (.call receiver method arguments) := by
  rcases (guarding.fate receiver method arguments).eq_wrapped_or with ⟨level, hfate⟩ | hne
  · exact .inr ⟨level, hfate, wrap_of_fate_eq_wrapped hfate⟩
  · exact .inl (wrap_of_fate_ne_wrapped hne)

theorem guard_ternary_eq (guarding : Guarding) (test whenTrue whenFalse : Expr) :
    ∃ newTest newTrue newFalse,
      guarding.guard (.ternary test whenTrue whenFalse) = .ternary newTest newTrue newFalse := by
  rw [guard]
  split
  · exact ⟨_, _, _, rfl⟩
  · exact ⟨_, _, _, rfl⟩

theorem guard_eq_call {expr receiver : Expr} {method : String} {arguments : List Expr}
    (h : guarding.guard expr = .call receiver method arguments) :
    ∃ oldReceiver oldArguments, expr = .call oldReceiver method oldArguments ∧
      guarding.guard oldReceiver = receiver ∧ guarding.guardAll oldArguments = arguments ∧
        ∀ level, guarding.fate receiver method arguments ≠ .wrapped level := by
  cases expr with
  | call oldReceiver oldMethod oldArguments =>
    rw [guard] at h
    rcases guarding.wrap_eq_or (guarding.guard oldReceiver) oldMethod
      (guarding.guardAll oldArguments) with hcall | ⟨level, _, hguarded⟩
    · rw [hcall] at h
      cases h
      refine ⟨oldReceiver, oldArguments, rfl, rfl, rfl, fun level hfate => ?_⟩
      rw [wrap_of_fate_eq_wrapped hfate] at hcall
      cases hcall
    · rw [hguarded] at h
      cases h
  | ternary test whenTrue whenFalse =>
    obtain ⟨_, _, _, hternary⟩ := guarding.guard_ternary_eq test whenTrue whenFalse
    rw [hternary] at h
    cases h
  | _ => simp [guard] at h

theorem guard_of_isSimple {expr : Expr} (h : expr.isSimple = true) :
    guarding.guard expr = expr := by
  cases expr with
  | const value => rfl
  | var name => rfl
  | _ => simp [Expr.isSimple] at h

theorem isSimple_guard (expr : Expr) : (guarding.guard expr).isSimple = expr.isSimple := by
  cases expr with
  | call receiver method arguments =>
    rcases guarding.wrap_eq_or (guarding.guard receiver) method
      (guarding.guardAll arguments) with h | ⟨_, _, h⟩
    · simp [guard, h, Expr.isSimple]
    · simp [guard, h, Expr.guarded, Expr.isSimple]
  | ternary test whenTrue whenFalse =>
    obtain ⟨_, _, _, h⟩ := guarding.guard_ternary_eq test whenTrue whenFalse
    simp [h, Expr.isSimple]
  | _ => simp [guard, Expr.isSimple]

/-- Only a constant becomes a constant, and only a name a name, each itself. -/
theorem guard_eq_iff_of_isSimple {expr simple : Expr} (h : simple.isSimple = true) :
    guarding.guard expr = simple ↔ expr = simple := by
  constructor
  · intro hguard
    rw [← hguard, isSimple_guard] at h
    rw [← hguard, guard_of_isSimple h]
  · rintro rfl
    exact guard_of_isSimple h

theorem guard_eq_var_iff {expr : Expr} {name : String} :
    guarding.guard expr = .var name ↔ expr = .var name :=
  guard_eq_iff_of_isSimple rfl

theorem guard_eq_const_iff {expr : Expr} {value : Scalar} :
    guarding.guard expr = .const value ↔ expr = .const value :=
  guard_eq_iff_of_isSimple rfl

theorem guardAll_eq_nil_iff {exprs : List Expr} : guarding.guardAll exprs = [] ↔ exprs = [] := by
  rw [guardAll_eq_map, List.map_eq_nil_iff]

/-- A ternary that is no guard does not become one. -/
theorem isGuard_guard_eq_false {test whenTrue : Expr}
    (h : guarding.isGuard test whenTrue = false) :
    guarding.isGuard (guarding.guard test) (guarding.guard whenTrue) = false := by
  refine Bool.eq_false_iff.mpr fun hguard => Bool.eq_false_iff.mp h ?_
  obtain ⟨level, arguments, htest, htrue⟩ := isGuard_iff.mp hguard
  obtain ⟨checked, none, rfl, hchecked, hnone, _⟩ := guard_eq_call htest
  obtain ⟨receiver, oldArguments, rfl, hreceiver, _⟩ := guard_eq_call htrue
  rw [guard_eq_var_iff.mp hchecked, guard_eq_var_iff.mp hreceiver, guardAll_eq_nil_iff.mp hnone]
  exact isGuard_iff.mpr ⟨level, oldArguments, rfl, rfl⟩

/-! ### A decision does not depend on whether the children have been guarded -/

theorem isLogger_guard {other : Guarding} (expr : Expr) :
    other.isLogger (guarding.guard expr) = other.isLogger expr := by
  rw [Bool.eq_iff_iff, isLogger_iff, isLogger_iff, guard_eq_var_iff]

/-- Whatever the decision is for, what guarding has done to the children does not count. -/
theorem fate_guard {other : Guarding} (receiver : Expr) (method : String) (arguments : List Expr) :
    other.fate (guarding.guard receiver) method (guarding.guardAll arguments)
      = other.fate receiver method arguments := by
  have hsimple : (guarding.guardAll arguments).all Expr.isSimple
      = arguments.all Expr.isSimple := by
    rw [guardAll_eq_map, List.all_map]
    exact congrArg _ (funext isSimple_guard)
  rw [fate, fate, isLogger_guard, hsimple]

end Guarding

end GuardedLogging
