import GuardedLogging.Expr

/-!
# The nodes of an expression

What holds of an expression because it holds of each of its nodes is said with one definition, which comes apart along the constructors.
-/

namespace GuardedLogging

namespace Expr

mutual

/-- The expression and all that it is made of. -/
def nodes : Expr → List Expr
  | absent => [absent]
  | const value => [const value]
  | var name => [var name]
  | classRef type => [classRef type]
  | args arguments => args arguments :: nodesAll arguments
  | call receiver method arguments => call receiver method arguments :: (receiver.nodes ++ nodesAll arguments)
  | property receiver name => property receiver name :: receiver.nodes
  | condition inner => condition inner :: inner.nodes
  | not operand => not operand :: operand.nodes
  | ternary test whenTrue whenFalse =>
    ternary test whenTrue whenFalse :: (test.nodes ++ whenTrue.nodes ++ whenFalse.nodes)

def nodesAll : List Expr → List Expr
  | [] => []
  | expr :: rest => expr.nodes ++ nodesAll rest

end

theorem mem_nodesAll_iff {node : Expr} {exprs : List Expr} :
    node ∈ nodesAll exprs ↔ ∃ expr ∈ exprs, node ∈ expr.nodes := by
  induction exprs with
  | nil => simp [nodesAll]
  | cons expr rest ih => simp [nodesAll, ih]

/-- The types of the nodes are those that the expression refers to. -/
theorem mem_typeRefs_of_mem_nodes {type : TypeRef} {expr : Expr} (h : classRef type ∈ expr.nodes) :
    type ∈ expr.typeRefs := by
  have hall : ∀ exprs : List Expr, (∀ expr ∈ exprs, classRef type ∈ expr.nodes → type ∈ expr.typeRefs) →
      classRef type ∈ nodesAll exprs → type ∈ typeRefsAll exprs := by
    intro exprs ih hnode
    induction exprs with
    | nil => exact absurd hnode List.not_mem_nil
    | cons first rest ihRest =>
      obtain ⟨hfirst, hrest⟩ := List.forall_mem_cons.mp ih
      rcases List.mem_append.mp hnode with hnode | hnode
      · exact List.mem_append_left _ (hfirst hnode)
      · exact List.mem_append_right _ (ihRest hrest hnode)
  induction expr with
  | absent => simp [nodes] at h
  | const value => simp [nodes] at h
  | var name => simp [nodes] at h
  | classRef other => simpa [nodes, typeRefs] using h
  | args arguments ih =>
    simp only [nodes, List.mem_cons, reduceCtorEq, false_or] at h
    exact hall arguments ih h
  | call receiver method arguments ih ihArguments =>
    simp only [nodes, List.mem_cons, reduceCtorEq, false_or, List.mem_append] at h
    rcases h with h | h
    · exact List.mem_append_left _ (ih h)
    · exact List.mem_append_right _ (hall arguments ihArguments h)
  | property receiver name ih =>
    simp only [nodes, List.mem_cons, reduceCtorEq, false_or] at h
    exact ih h
  | condition inner ih =>
    simp only [nodes, List.mem_cons, reduceCtorEq, false_or] at h
    exact ih h
  | not operand ih =>
    simp only [nodes, List.mem_cons, reduceCtorEq, false_or] at h
    exact ih h
  | ternary test whenTrue whenFalse ihTest ihTrue ihFalse =>
    simp only [nodes, List.mem_cons, reduceCtorEq, false_or, List.mem_append] at h
    simp only [typeRefs, List.mem_append]
    rcases h with (h | h) | h
    · exact .inl (.inl (ihTest h))
    · exact .inl (.inr (ihTrue h))
    · exact .inr (ihFalse h)

/-- The statement holds of the expression and of all that it is made of. -/
def EveryNode (p : Expr → Prop) (expr : Expr) : Prop := ∀ node ∈ expr.nodes, p node

instance {p : Expr → Prop} [DecidablePred p] (expr : Expr) : Decidable (EveryNode p expr) :=
  inferInstanceAs (Decidable (∀ node ∈ expr.nodes, p node))

namespace EveryNode

variable {p q : Expr → Prop} {expr : Expr}

theorem node (h : EveryNode p expr) : p expr := by
  refine h expr ?_
  cases expr <;> simp [nodes]

theorem mono (hpq : ∀ node, p node → q node) (h : EveryNode p expr) : EveryNode q expr :=
  fun node hnode => hpq node (h node hnode)

theorem and (hp : EveryNode p expr) (hq : EveryNode q expr) :
    EveryNode (fun node => p node ∧ q node) expr :=
  fun node hnode => ⟨hp node hnode, hq node hnode⟩

theorem const_iff {value : Scalar} : EveryNode p (const value) ↔ p (const value) := by
  simp [EveryNode, nodes]

theorem var_iff {name : String} : EveryNode p (var name) ↔ p (var name) := by
  simp [EveryNode, nodes]

theorem classRef_iff {type : TypeRef} : EveryNode p (classRef type) ↔ p (classRef type) := by
  simp [EveryNode, nodes]

theorem args_iff {arguments : List Expr} :
    EveryNode p (args arguments) ↔ p (args arguments) ∧ ∀ argument ∈ arguments, EveryNode p argument := by
  simp only [EveryNode, nodes, List.forall_mem_cons, mem_nodesAll_iff]
  grind

theorem call_iff {receiver : Expr} {method : String} {arguments : List Expr} :
    EveryNode p (call receiver method arguments) ↔
      p (call receiver method arguments) ∧ EveryNode p receiver ∧
        ∀ argument ∈ arguments, EveryNode p argument := by
  simp only [EveryNode, nodes, List.forall_mem_cons, List.forall_mem_append, mem_nodesAll_iff]
  grind

theorem property_iff {receiver : Expr} {name : String} :
    EveryNode p (property receiver name) ↔ p (property receiver name) ∧ EveryNode p receiver := by
  simp [EveryNode, nodes]

theorem condition_iff {inner : Expr} :
    EveryNode p (condition inner) ↔ p (condition inner) ∧ EveryNode p inner := by
  simp [EveryNode, nodes]

theorem not_iff {operand : Expr} :
    EveryNode p (not operand) ↔ p (not operand) ∧ EveryNode p operand := by
  simp [EveryNode, nodes]

theorem ternary_iff {test whenTrue whenFalse : Expr} :
    EveryNode p (ternary test whenTrue whenFalse) ↔
      p (ternary test whenTrue whenFalse) ∧ EveryNode p test ∧ EveryNode p whenTrue ∧
        EveryNode p whenFalse := by
  simp only [EveryNode, nodes, List.forall_mem_cons, List.forall_mem_append]
  grind

end EveryNode

theorem allComplete_iff {exprs : List Expr} : allComplete exprs = true ↔ ∀ expr ∈ exprs, expr.isComplete = true := by
  induction exprs with
  | nil => simp [allComplete]
  | cons expr rest ih => simp [allComplete, ih]

theorem isComplete_iff {expr : Expr} : expr.isComplete = true ↔ EveryNode (fun node => node.isAbsent = false) expr := by
  induction expr with
  | absent => exact ⟨nofun, fun h => absurd h.node nofun⟩
  | const value => exact ⟨fun _ => EveryNode.const_iff.mpr rfl, fun _ => rfl⟩
  | var name => exact ⟨fun _ => EveryNode.var_iff.mpr rfl, fun _ => rfl⟩
  | classRef type => exact ⟨fun _ => EveryNode.classRef_iff.mpr rfl, fun _ => rfl⟩
  | args arguments ih =>
    simp only [isComplete, allComplete_iff, EveryNode.args_iff, isAbsent, true_and]
    exact forall₂_congr ih
  | call receiver method arguments ih ihArguments =>
    simp only [isComplete, Bool.and_eq_true, allComplete_iff, EveryNode.call_iff, isAbsent, true_and, ih]
    exact and_congr_right fun _ => forall₂_congr ihArguments
  | property receiver name ih => simp only [isComplete, EveryNode.property_iff, isAbsent, true_and, ih]
  | condition inner ih => simp only [isComplete, EveryNode.condition_iff, isAbsent, true_and, ih]
  | not operand ih => simp only [isComplete, EveryNode.not_iff, isAbsent, true_and, ih]
  | ternary test whenTrue whenFalse ihTest ihTrue ihFalse =>
    simp only [isComplete, Bool.and_eq_true, EveryNode.ternary_iff, isAbsent, true_and, ihTest, ihTrue, ihFalse,
      and_assoc]

end Expr

end GuardedLogging
