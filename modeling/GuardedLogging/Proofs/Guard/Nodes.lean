import GuardedLogging.Proofs.Expr.Nodes
import GuardedLogging.Proofs.Guard.Shape

/-!
# What guarding keeps of the nodes

Guarding keeps every node of an expression up to what the node is made of, and adds guards: a ternary, a check without arguments and `null`. So a property of nodes that does not look at their parts, and that guards have, holds of every node of the guarded expression if it holds of every node of the expression.
-/

namespace GuardedLogging

/-- A property of nodes that guards have and that does not depend on what a node is made of. -/
structure AllowsGuards (p : Expr → Prop) : Prop where
  null : p (.const .null)
  check : ∀ (receiver : Expr) (level : Level), p (.call receiver level.check [])
  ternary : ∀ test whenTrue whenFalse : Expr, p (.ternary test whenTrue whenFalse)
  args : ∀ arguments others : List Expr, p (.args arguments) → p (.args others)
  call : ∀ (receiver other : Expr) (method : String) (arguments others : List Expr),
    p (.call receiver method arguments) → p (.call other method others)
  property : ∀ (receiver other : Expr) (name : String), p (.property receiver name) → p (.property other name)
  condition : ∀ inner other : Expr, p (.condition inner) → p (.condition other)
  not : ∀ operand other : Expr, p (.not operand) → p (.not other)

namespace Guarding

open GuardedLogging.Expr

variable {guarding : Guarding} {p : Expr → Prop}

theorem everyNode_wrap_iff (hp : AllowsGuards p) {receiver : Expr} {method : String} {arguments : List Expr} :
    EveryNode p (guarding.wrap receiver method arguments) ↔
      EveryNode p (.call receiver method arguments) := by
  rcases guarding.wrap_eq_or receiver method arguments with h | ⟨level, _, h⟩
  · rw [h]
  · rw [h, Expr.guarded]
    constructor
    · exact fun hguard => (EveryNode.ternary_iff.mp hguard).2.2.1
    · intro hcall
      refine EveryNode.ternary_iff.mpr ⟨hp.ternary _ _ _, ?_, hcall, EveryNode.const_iff.mpr hp.null⟩
      have hreceiver := (EveryNode.call_iff.mp hcall).2.1
      exact EveryNode.call_iff.mpr ⟨hp.check receiver level, hreceiver, List.forall_mem_nil _⟩

theorem everyNode_guardAll {exprs : List Expr} (h : ∀ expr ∈ exprs, EveryNode p (guarding.guard expr)) :
    ∀ expr ∈ guarding.guardAll exprs, EveryNode p expr := by
  rw [guardAll_eq_map]
  exact List.forall_mem_map.mpr h

theorem everyNode_guard (hp : AllowsGuards p) {expr : Expr} (h : EveryNode p expr) :
    EveryNode p (guarding.guard expr) := by
  induction expr with
  | absent => exact h
  | const value => exact h
  | var name => exact h
  | classRef type => exact h
  | args arguments ih =>
    obtain ⟨hnode, harguments⟩ := EveryNode.args_iff.mp h
    refine EveryNode.args_iff.mpr ⟨hp.args _ _ hnode, ?_⟩
    exact everyNode_guardAll fun argument hargument => ih argument hargument (harguments argument hargument)
  | condition inner ih =>
    obtain ⟨hnode, hinner⟩ := EveryNode.condition_iff.mp h
    exact EveryNode.condition_iff.mpr ⟨hp.condition _ _ hnode, ih hinner⟩
  | property receiver name ih =>
    obtain ⟨hnode, hreceiver⟩ := EveryNode.property_iff.mp h
    exact EveryNode.property_iff.mpr ⟨hp.property _ _ _ hnode, ih hreceiver⟩
  | not operand ih =>
    obtain ⟨hnode, hoperand⟩ := EveryNode.not_iff.mp h
    exact EveryNode.not_iff.mpr ⟨hp.not _ _ hnode, ih hoperand⟩
  | call receiver method arguments ihReceiver ihArguments =>
    obtain ⟨hnode, hreceiver, harguments⟩ := EveryNode.call_iff.mp h
    refine (everyNode_wrap_iff hp).mpr (EveryNode.call_iff.mpr ⟨hp.call _ _ _ _ _ hnode, ihReceiver hreceiver, ?_⟩)
    exact everyNode_guardAll fun argument hargument =>
      ihArguments argument hargument (harguments argument hargument)
  | ternary test whenTrue whenFalse ihTest ihTrue ihFalse =>
    obtain ⟨_, htest, htrue, hfalse⟩ := EveryNode.ternary_iff.mp h
    rw [guard]
    split
    · rename_i hguard
      obtain ⟨level, arguments, rfl, rfl⟩ := isGuard_iff.mp hguard
      -- The call in a guard is guarded in its parts only, and those are the parts of the guard around it.
      exact EveryNode.ternary_iff.mpr
        ⟨hp.ternary _ _ _, htest, (everyNode_wrap_iff hp).mp (ihTrue htrue), ihFalse hfalse⟩
    · exact EveryNode.ternary_iff.mpr ⟨hp.ternary _ _ _, ihTest htest, ihTrue htrue, ihFalse hfalse⟩

end Guarding

end GuardedLogging
