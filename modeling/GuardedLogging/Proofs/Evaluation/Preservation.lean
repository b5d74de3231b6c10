import GuardedLogging.Evaluation.Recording
import GuardedLogging.Proofs.Evaluation.Muting
import GuardedLogging.Proofs.Evaluation.SameUpTo
import GuardedLogging.Proofs.Guard.Shape
import GuardedLogging.Proofs.Transformation.Frame

/-!
# Guarding preserves meaning

A guarded expression and the muted expression that it came from are the same up to checks, whatever the world is like, as long as the logger's name means a logger that answers checks: it says which levels are enabled, and saying so has no other effect. From expressions this goes to fields and statements, and so to loading a class and running its methods.

While a class is being loaded its fields are within reach of its own initial values, and of all objects that get to know the class. So the logger's name keeps its meaning only if the world leaves the field alone.
-/

namespace GuardedLogging

variable {Object State Event : Type} {isCheck : Event → Bool} {enabled : Level → Bool}
  {world : World Object State Event} {names : Names Object} {logger : Value Object}
  {rule : Situation Object State → Situation Object State → Prop} {property : Situation Object State → Prop}

namespace World

/-- Asks a value whether a level is enabled. -/
def check (world : World Object State Event) (logger : Value Object) (level : Level) :
    Run Object (Situation Object State) Event Bool := do
  world.truth (← world.call logger level.check [])

/-- The value says which levels are enabled, with no effect but checks. -/
def AnswersChecks (world : World Object State Event) (isCheck : Event → Bool)
    (enabled : Level → Bool) (logger : Value Object) : Prop :=
  ∀ level, (world.check logger level).SameUpTo isCheck (pure (enabled level))

variable (hrule : ∀ before after, rule before after → property before → property after)
include hrule

theorem follows_call (receiver : Value Object) (method : String) (arguments : List (Value Object)) :
    (world.call receiver method arguments).FollowsThroughout isCheck rule property
      (world.call receiver method arguments) := by
  refine (Run.Follows.ask hrule _).bind fun answer => ?_
  cases answer with
  | none => exact .fail _
  | some value => exact .pure _

theorem follows_property (receiver : Value Object) (name : String) :
    (world.property receiver name).FollowsThroughout isCheck rule property (world.property receiver name) := by
  rw [World.property.eq_def]
  split
  · exact .pure _
  · exact (Run.Follows.read _).bind fun map => .pure _
  · refine (Run.Follows.ask hrule _).bind fun answer => ?_
    cases answer with
    | none => exact .fail _
    | some value => exact .pure _

theorem follows_truth (value : Value Object) :
    (world.truth value).FollowsThroughout isCheck rule property (world.truth value) := by
  cases value with
  | list ref => exact (Run.Follows.read _).bind fun items => .pure _
  | object object => exact .ask hrule _
  | fieldMap ref => exact .ask hrule _
  | _ => exact .pure _

end World

namespace Expr

variable {name : String}

theorem evaluate_var_of_find? {situation : Situation Object State} (h : names.find? name situation = some logger) :
    (var name).evaluate world names situation = ⟨.ok logger, situation, []⟩ := by
  simp only [evaluate, Run.read_bind_apply, h]
  rfl

theorem evaluate_classRef_of_find? {situation : Situation Object State} {type : TypeRef} {value : Value Object}
    (h : situation.types.find? type.name = some value) :
    (classRef type).evaluate world names situation = ⟨.ok value, situation, []⟩ := by
  simp only [evaluate, Run.read_bind_apply, h]
  rfl

theorem evaluate_ternary (test whenTrue whenFalse : Expr) :
    (ternary test whenTrue whenFalse).evaluate world names = (do
      if ← (test.evaluate world names >>= world.truth) then
        whenTrue.evaluate world names
      else whenFalse.evaluate world names) := by
  rw [evaluate, bind_assoc]

theorem sameUpTo_check (hlogger : world.AnswersChecks isCheck enabled logger)
    {situation : Situation Object State} (hname : names.find? name situation = some logger) (level : Level) :
    (((call (var name) level.check []).evaluate world names >>= world.truth) situation).SameUpTo isCheck
      ((pure (enabled level) : Run Object (Situation Object State) Event Bool) situation) := by
  have hcheck : ((call (var name) level.check []).evaluate world names >>= world.truth) situation
      = world.check logger level situation := by
    rw [evaluate, bind_assoc, Run.bind_of_eq_ok (evaluate_var_of_find? hname), evaluateAll, pure_bind]
    rfl
  rw [hcheck]
  exact hlogger level situation

theorem sameUpTo_evaluate_check (hlogger : world.AnswersChecks isCheck enabled logger)
    {situation : Situation Object State} (hname : names.find? name situation = some logger) (level : Level)
    (whenTrue whenFalse : Expr) :
    ((ternary (call (var name) level.check []) whenTrue whenFalse).evaluate world names situation).SameUpTo
      isCheck ((if enabled level then whenTrue.evaluate world names else whenFalse.evaluate world names)
        situation) := by
  rw [evaluate_ternary]
  exact (sameUpTo_check hlogger hname level).bind_of_pure _

end Expr

namespace Guarding

variable {guarding : Guarding}

/-- Nothing but a logging call on the logger is muted. -/
theorem isMuted_eq_false {receiver : Expr} {method : String} {arguments : List Expr}
    (hskip : guarding.skipSimple = false)
    (h : ∀ level, guarding.fate receiver method arguments ≠ .wrapped level) :
    Expr.isMuted guarding.logger enabled receiver method = false := by
  cases receiver with
  | var name =>
    refine Bool.eq_false_iff.mpr fun hmuted => ?_
    simp only [Expr.isMuted, Bool.and_eq_true, beq_iff_eq, Option.any_eq_true] at hmuted
    obtain ⟨rfl, level, hlevel, _⟩ := hmuted
    refine h level (fate_eq_wrapped_iff.mpr ⟨rfl, Level.ofMethod?_eq_some_iff.mp hlevel, ?_⟩)
    rw [hskip, Bool.false_and]
  | _ => rfl

theorem isMuted_method (level : Level) :
    Expr.isMuted guarding.logger enabled (.var guarding.logger) level.method = !enabled level := by
  simp [Expr.isMuted, Level.ofMethod?_method]

theorem mute_check (level : Level) :
    (Expr.call (.var guarding.logger) level.check []).mute guarding.logger enabled
      = .call (.var guarding.logger) level.check [] := by
  simp [Expr.mute, Expr.muteAll, Expr.isMuted, Level.ofMethod?_check]

section Follows

variable (hskip : guarding.skipSimple = false) (hlogger : world.AnswersChecks isCheck enabled logger)
  (hname : ∀ situation, property situation → names.find? guarding.logger situation = some logger)
  (hrule : ∀ before after, rule before after → property before → property after)
  (hlist : ∀ items situation, property situation → property (situation.addList items))

theorem follows_evaluateAll {exprs : List Expr}
    (h : ∀ expr ∈ exprs, ((guarding.guard expr).evaluate world names).FollowsThroughout isCheck rule property
      ((expr.mute guarding.logger enabled).evaluate world names)) :
    (Expr.evaluateAll world names (guarding.guardAll exprs)).FollowsThroughout isCheck rule property
      (Expr.evaluateAll world names (Expr.muteAll guarding.logger enabled exprs)) := by
  induction exprs with
  | nil => exact .pure _
  | cons expr rest ih =>
    obtain ⟨hfirst, hrest⟩ := List.forall_mem_cons.mp h
    rw [guardAll, Expr.muteAll, Expr.evaluateAll, Expr.evaluateAll]
    exact hfirst.bind fun value => (ih hrest).bind fun values => .pure _

include hrule in
theorem follows_evaluate_call {receiver mutedReceiver : Expr} {method : String}
    {arguments mutedArguments : List Expr}
    (hreceiver : (receiver.evaluate world names).FollowsThroughout isCheck rule property
      (mutedReceiver.evaluate world names))
    (harguments : (Expr.evaluateAll world names arguments).FollowsThroughout isCheck rule property
      (Expr.evaluateAll world names mutedArguments)) :
    ((Expr.call receiver method arguments).evaluate world names).FollowsThroughout isCheck rule property
      ((Expr.call mutedReceiver method mutedArguments).evaluate world names) := by
  rw [Expr.evaluate, Expr.evaluate]
  exact hreceiver.bind fun target => harguments.bind fun values => world.follows_call hrule _ _ _

theorem follows_evaluate_var (name : String) :
    ((Expr.var name).evaluate world names).FollowsThroughout isCheck rule property
      ((Expr.var name).evaluate world names) := by
  rw [Expr.evaluate]
  refine (Run.Follows.read _).bind fun found => ?_
  cases found with
  | none => exact .fail _
  | some value => exact .pure _

theorem follows_evaluate_classRef (type : TypeRef) :
    ((Expr.classRef type).evaluate world names).FollowsThroughout isCheck rule property
      ((Expr.classRef type).evaluate world names) := by
  rw [Expr.evaluate]
  refine (Run.Follows.read _).bind fun found => ?_
  cases found with
  | none => exact .fail _
  | some value => exact .pure _

include hlogger hname hrule in
/-- A guarded call comes to the call, or to null if its level is not enabled. -/
theorem follows_evaluate_guarded (level : Level) {arguments mutedArguments : List Expr}
    (harguments : (Expr.evaluateAll world names arguments).FollowsThroughout isCheck rule property
      (Expr.evaluateAll world names mutedArguments)) :
    ((Expr.ternary (.call (.var guarding.logger) level.check [])
        (.call (.var guarding.logger) level.method arguments) (.const .null)).evaluate
          world names).FollowsThroughout isCheck rule property
      ((if enabled level then Expr.call (.var guarding.logger) level.method mutedArguments
        else .const .null).evaluate world names) := by
  refine .of_sameUpTo (fun situation hsituation =>
    Expr.sameUpTo_evaluate_check hlogger (hname situation hsituation) level _ _) ?_
  cases enabled level with
  | false => exact .pure _
  | true => exact follows_evaluate_call hrule (follows_evaluate_var _) harguments

include hskip hlogger hname hrule hlist in
/-- Guarded and muted, an expression evaluates to the same up to checks. -/
theorem follows_evaluate_guard (expr : Expr) :
    ((guarding.guard expr).evaluate world names).FollowsThroughout isCheck rule property
      ((expr.mute guarding.logger enabled).evaluate world names) := by
  induction expr with
  | absent => exact .fail _
  | const value => exact .pure _
  | var name => exact follows_evaluate_var name
  | classRef type => exact follows_evaluate_classRef type
  | args arguments ih =>
    rw [guard, Expr.mute, Expr.evaluate, Expr.evaluate]
    refine (follows_evaluateAll ih).bind fun values => (Run.Follows.read _).bind fun ref => ?_
    exact (Run.Follows.change (hlist values)).bind fun _ => .pure _
  | property receiver name ih =>
    rw [guard, Expr.mute, Expr.evaluate, Expr.evaluate]
    exact ih.bind fun target => world.follows_property hrule target name
  | condition inner ih =>
    rw [guard, Expr.mute, Expr.evaluate, Expr.evaluate]
    exact ih.bind fun value => (world.follows_truth hrule value).bind fun answer => .pure _
  | not operand ih =>
    rw [guard, Expr.mute, Expr.evaluate, Expr.evaluate]
    exact ih.bind fun value => (world.follows_truth hrule value).bind fun answer => .pure _
  | call receiver method arguments ihReceiver ihArguments =>
    have harguments := follows_evaluateAll ihArguments
    rw [guard, Expr.mute]
    by_cases h : ∃ level, guarding.fate receiver method arguments = .wrapped level
    · obtain ⟨level, hfate⟩ := h
      rw [wrap_of_fate_eq_wrapped (by rwa [fate_guard])]
      obtain ⟨rfl, rfl, _⟩ := fate_eq_wrapped_iff.mp hfate
      have hguarded := follows_evaluate_guarded hlogger hname hrule level harguments
      rw [isMuted_method]
      cases henabled : enabled level with
      | false => rwa [henabled] at hguarded
      | true => rwa [henabled] at hguarded
    · have hfate : ∀ level, guarding.fate receiver method arguments ≠ .wrapped level :=
        fun level hlevel => h ⟨level, hlevel⟩
      rw [wrap_of_fate_ne_wrapped (by simpa only [fate_guard] using hfate),
        isMuted_eq_false hskip hfate, if_neg Bool.false_ne_true]
      exact follows_evaluate_call hrule ihReceiver harguments
  | ternary test whenTrue whenFalse ihTest ihTrue ihFalse =>
    rw [guard, Expr.mute]
    by_cases h : guarding.isGuard test whenTrue = true
    · rw [if_pos h]
      obtain ⟨level, arguments, rfl, rfl⟩ := isGuard_iff.mp h
      rw [mute_check, Expr.evaluate_ternary _ (Expr.mute _ _ _)]
      -- Both sides ask the same check, so both come to the branch that the answer picks.
      refine .bind_right_of_pure (fun situation hsituation =>
        Expr.sameUpTo_check hlogger (hname situation hsituation) level) ?_
      refine .of_sameUpTo (fun situation hsituation =>
        Expr.sameUpTo_evaluate_check hlogger (hname situation hsituation) level _ _) ?_
      cases henabled : enabled level with
      | false => exact ihFalse
      | true =>
        -- The call behind its own check is the guarded call, which the induction hypothesis is about.
        have hfate : guarding.fate (.var guarding.logger) level.method (guarding.guardAll arguments)
            = .wrapped level :=
          fate_eq_wrapped_iff.mpr ⟨rfl, rfl, by rw [hskip, Bool.false_and]⟩
        rw [guard, guard, wrap_of_fate_eq_wrapped hfate] at ihTrue
        refine .of_sameUpTo (fun situation hsituation => ?_) ihTrue
        have hchecked := Expr.sameUpTo_evaluate_check hlogger (hname situation hsituation) level
          (.call (.var guarding.logger) level.method (guarding.guardAll arguments)) (.const .null)
        rw [henabled, if_pos rfl] at hchecked
        exact hchecked.symm
    · rw [if_neg h, Expr.evaluate_ternary, Expr.evaluate_ternary]
      refine (ihTest.bind fun value => world.follows_truth hrule value).bind fun answer => ?_
      cases answer with
      | false => exact ihFalse
      | true => exact ihTrue

include hskip hlogger hname hrule hlist in
theorem follows_start (field : Field) :
    ((guarding.guardField field).start world names).FollowsThroughout isCheck rule property
      ((field.mute guarding.logger enabled).start world names) := by
  have hguard : (guarding.guardField field).initial.isAbsent = field.initial.isAbsent :=
    guarding.isAbsent_guard field.initial
  have hmute : (field.mute guarding.logger enabled).initial.isAbsent = field.initial.isAbsent :=
    Expr.isAbsent_mute field.initial
  rw [Field.start, Field.start, hguard, hmute]
  split
  · exact .pure _
  · exact follows_evaluate_guard hskip hlogger hname hrule hlist field.initial

include hskip hlogger hname hrule hlist in
theorem follows_runStatements (statements : List Statement) :
    (runStatements world names (statements.map guarding.guardStatement)).FollowsThroughout isCheck rule property
      (runStatements world names (statements.map (Statement.mute guarding.logger enabled))) := by
  induction statements with
  | nil => exact .pure _
  | cons statement rest ih =>
    rw [List.map_cons, List.map_cons, runStatements, runStatements]
    refine (follows_evaluate_guard hskip hlogger hname hrule hlist statement.expr).bind fun value => ?_
    show Run.FollowsThroughout isCheck rule property (if statement.returns then _ else _)
      (if statement.returns then _ else _)
    split
    · exact .pure _
    · exact ih

end Follows

end Guarding

end GuardedLogging
