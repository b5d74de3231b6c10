import GuardedLogging.Evaluation

/-!
# Runs that differ in checks only

Asking a logger whether a level is enabled is a check. Two outcomes are the same up to checks if they have the same result, leave the same situation behind, and had the same events once the checks are dropped. Two runs are if their outcomes are, from every situation; which events are checks is a parameter.

Some runs are the same only from situations with a property, which then has to last. A run follows another one if both are the same up to checks from every such situation, and what is known in the end is another property, provided that in each turn of the other run the world kept to a given rule.
-/

namespace GuardedLogging

variable {Object State Event α β : Type} {isCheck : Event → Bool}

structure Outcome.SameUpTo (isCheck : Event → Bool) (left right : Outcome Object State Event α) :
    Prop where
  result : left.result = right.result
  state : left.state = right.state
  events : left.events.filter (!isCheck ·) = right.events.filter (!isCheck ·)

def Run.SameUpTo (isCheck : Event → Bool) (left right : Run Object State Event α) : Prop :=
  ∀ state, (left state).SameUpTo isCheck (right state)

theorem Run.events_bind_of_ok {first : Run Object State Event α} {next : α → Run Object State Event β}
    {state : State} {value : α} (h : (first state).result = .ok value) :
    (first.bind next state).events = (first state).events ++ (next value (first state).state).events := by
  rw [bind_of_ok h]
  exact List.flatMap_append

namespace Outcome.SameUpTo

theorem refl (outcome : Outcome Object State Event α) : outcome.SameUpTo isCheck outcome :=
  ⟨rfl, rfl, rfl⟩

theorem symm {left right : Outcome Object State Event α} (h : left.SameUpTo isCheck right) :
    right.SameUpTo isCheck left :=
  ⟨h.result.symm, h.state.symm, h.events.symm⟩

theorem trans {left middle right : Outcome Object State Event α}
    (hfirst : left.SameUpTo isCheck middle) (hsecond : middle.SameUpTo isCheck right) :
    left.SameUpTo isCheck right :=
  ⟨hfirst.result.trans hsecond.result, hfirst.state.trans hsecond.state,
    hfirst.events.trans hsecond.events⟩

theorem bind {left right : Run Object State Event α} {nextLeft nextRight : α → Run Object State Event β}
    {state : State} (hfirst : (left state).SameUpTo isCheck (right state))
    (hnext : ∀ value, (right state).result = .ok value →
      (nextLeft value (right state).state).SameUpTo isCheck (nextRight value (right state).state)) :
    ((left >>= nextLeft) state).SameUpTo isCheck ((right >>= nextRight) state) := by
  show (left.bind nextLeft state).SameUpTo isCheck (right.bind nextRight state)
  cases hright : (right state).result with
  | error error =>
    have hleft := hfirst.result.trans hright
    rw [Run.bind_of_error hleft, Run.bind_of_error hright]
    exact ⟨rfl, hfirst.state, hfirst.events⟩
  | ok value =>
    have hleft := hfirst.result.trans hright
    have hafter := hnext value hright
    refine ⟨?_, ?_, ?_⟩
    · rw [Run.bind_of_ok hleft, Run.bind_of_ok hright, hfirst.state]
      exact hafter.result
    · rw [Run.bind_of_ok hleft, Run.bind_of_ok hright, hfirst.state]
      exact hafter.state
    · rw [Run.events_bind_of_ok hleft, Run.events_bind_of_ok hright, hfirst.state, List.filter_append,
        List.filter_append, hfirst.events, hafter.events]

/-- A run that comes to a value without any effect but checks makes no difference to what comes next. -/
theorem bind_of_pure {first : Run Object State Event α} {state : State} {value : α}
    (h : (first state).SameUpTo isCheck ((pure value : Run Object State Event α) state))
    (next : α → Run Object State Event β) : ((first >>= next) state).SameUpTo isCheck (next value state) := by
  have hbind := h.bind fun result _ => refl (next result state)
  rwa [pure_bind] at hbind

end Outcome.SameUpTo

/-! ### Following a run -/

/-- In each turn the world kept to the rule. -/
def Outcome.Keeps (rule : State → State → Prop) (outcome : Outcome Object State Event α) : Prop :=
  ∀ turn ∈ outcome.turns, rule turn.before turn.after

/-- From situations with the first property, both runs are the same up to checks, and a value comes with the second property, unless the world breaks the rule on the right. -/
def Run.Follows (isCheck : Event → Bool) (rule : State → State → Prop) (before : State → Prop)
    (after : α → State → Prop) (left right : Run Object State Event α) : Prop :=
  ∀ state, before state → (right state).Keeps rule →
    (left state).SameUpTo isCheck (right state) ∧
      ∀ value, (right state).result = .ok value → after value (right state).state

/-- What is known before is known of the situation afterwards too. -/
abbrev Run.FollowsThroughout (isCheck : Event → Bool) (rule : State → State → Prop) (property : State → Prop)
    (left right : Run Object State Event α) : Prop :=
  left.Follows isCheck rule property (fun _ => property) right

namespace Run.Follows

variable {rule : State → State → Prop} {property before : State → Prop} {after : α → State → Prop}
  {left middle right : Run Object State Event α}

protected theorem pure (value : α) :
    (pure value : Run Object State Event α).FollowsThroughout isCheck rule property (pure value) :=
  fun _ hstate _ => ⟨.refl _, fun _ _ => hstate⟩

protected theorem fail (error : EvaluationError Object) :
    (Run.fail error : Run Object State Event α).Follows isCheck rule before after (Run.fail error) :=
  fun _ _ _ => ⟨.refl _, nofun⟩

protected theorem read (look : State → α) :
    (Run.read look : Run Object State Event α).FollowsThroughout isCheck rule property (Run.read look) :=
  fun _ hstate _ => ⟨.refl _, fun _ _ => hstate⟩

protected theorem change {step : State → State} (hstep : ∀ state, before state → property (step state)) :
    (Run.change step : Run Object State Event Unit).Follows isCheck rule before (fun _ => property)
      (Run.change step) :=
  fun state hstate _ => ⟨.refl _, fun _ _ => hstep state hstate⟩

protected theorem ask (hrule : ∀ before after, rule before after → property before → property after)
    (reply : State → Reply State Event α) :
    (Run.ask reply : Run Object State Event α).FollowsThroughout isCheck rule property
      (Run.ask reply) := by
  intro state hstate hkeeps
  refine ⟨.refl _, fun _ _ => ?_⟩
  simp only [Run.ask, Outcome.Keeps] at hkeeps ⊢
  split at hkeeps
  · exact hrule _ _ (hkeeps _ List.mem_cons_self) hstate
  · exact hrule _ _ (hkeeps _ List.mem_cons_self) hstate

protected theorem bind {nextLeft nextRight : α → Run Object State Event β} {final : β → State → Prop}
    (hfirst : left.Follows isCheck rule before after right)
    (hnext : ∀ value, (nextLeft value).Follows isCheck rule (after value) final (nextRight value)) :
    (left >>= nextLeft).Follows isCheck rule before final (right >>= nextRight) := by
  intro state hstate hkeeps
  change (right.bind nextRight state).Keeps rule at hkeeps
  show _ ∧ ∀ value, (right.bind nextRight state).result = .ok value →
    final value (right.bind nextRight state).state
  cases hresult : (right state).result with
  | error error =>
    rw [Run.bind_of_error hresult] at hkeeps ⊢
    obtain ⟨hsame, _⟩ := hfirst state hstate hkeeps
    exact ⟨hsame.bind fun value hvalue => absurd (hresult.symm.trans hvalue) nofun, nofun⟩
  | ok value =>
    rw [Run.bind_of_ok hresult] at hkeeps ⊢
    obtain ⟨hkeepsFirst, hkeepsNext⟩ := List.forall_mem_append.mp hkeeps
    obtain ⟨hsame, hafter⟩ := hfirst state hstate hkeepsFirst
    obtain ⟨hsameNext, hfinal⟩ := hnext value _ (hafter value hresult) hkeepsNext
    refine ⟨hsame.bind fun other hother => ?_, hfinal⟩
    obtain rfl : value = other := Except.ok.inj (hresult.symm.trans hother)
    exact hsameNext

theorem read_bind (look : State → β) {nextLeft nextRight : β → Run Object State Event α}
    (hnext : ∀ value, (nextLeft value).Follows isCheck rule (fun state => before state ∧ look state = value) after
      (nextRight value)) :
    (Run.read look >>= nextLeft).Follows isCheck rule before after (Run.read look >>= nextRight) := by
  have hread : (Run.read look : Run Object State Event β).Follows isCheck rule before
      (fun value state => before state ∧ look state = value) (Run.read look) := by
    intro state hstate _
    refine ⟨.refl _, fun value hvalue => ⟨hstate, ?_⟩⟩
    exact Except.ok.inj hvalue
  exact hread.bind hnext

theorem of_sameUpTo (hsame : ∀ state, before state → (left state).SameUpTo isCheck (middle state))
    (h : middle.Follows isCheck rule before after right) : left.Follows isCheck rule before after right := by
  intro state hstate hkeeps
  obtain ⟨hmiddle, hafter⟩ := h state hstate hkeeps
  exact ⟨(hsame state hstate).trans hmiddle, hafter⟩

/-- A check on the right can be left out. -/
theorem bind_right_of_pure {first : Run Object State Event β} {value : β} {next : β → Run Object State Event α}
    (hfirst : ∀ state, before state →
      (first state).SameUpTo isCheck ((pure value : Run Object State Event β) state))
    (h : left.Follows isCheck rule before after (next value)) :
    left.Follows isCheck rule before after (first >>= next) := by
  intro state hstate hkeeps
  have hskip := (hfirst state hstate).bind_of_pure next
  change (first.bind next state).Keeps rule at hkeeps
  rw [Run.bind_of_ok (hfirst state hstate).result, (hfirst state hstate).state] at hkeeps
  obtain ⟨hsame, hafter⟩ := h state hstate (List.forall_mem_append.mp hkeeps).2
  refine ⟨hsame.trans hskip.symm, fun result hresult => ?_⟩
  rw [hskip.state]
  exact hafter result (hskip.result.symm.trans hresult)

end Run.Follows

end GuardedLogging
