import GuardedLogging.Scalar
import GuardedLogging.TypeRef

/-!
# Expressions

Method bodies and initial values of fields are expressions. An expression is a tree: writing it, evaluating it and guarding its calls are functions on the tree. A condition marks an expression whose truth value is meant; the first part of a ternary is marked by its place and needs no marker of its own. A tree that was read from a document may lack a child, which is then `absent`.
-/

namespace GuardedLogging

inductive Expr where
  | absent
  | const (value : Scalar)
  | var (name : String)
  | classRef (type : TypeRef)
  | args (arguments : List Expr)
  | call (receiver : Expr) (method : String) (arguments : List Expr)
  | property (receiver : Expr) (name : String)
  | condition (inner : Expr)
  | not (operand : Expr)
  | ternary (test whenTrue whenFalse : Expr)
deriving Repr, Inhabited

namespace Expr

mutual

/-- The number of nodes on a longest path. -/
def depth : Expr → Nat
  | args arguments => 1 + greatestDepth arguments
  | call receiver _ arguments => 1 + max receiver.depth (greatestDepth arguments)
  | property receiver _ => 1 + receiver.depth
  | condition inner => 1 + inner.depth
  | not operand => 1 + operand.depth
  | ternary test whenTrue whenFalse =>
    1 + max (1 + test.depth) (max whenTrue.depth whenFalse.depth)
  | absent | const _ | var _ | classRef _ => 1

def greatestDepth : List Expr → Nat
  | [] => 0
  | expr :: rest => max expr.depth (greatestDepth rest)

end

mutual

/-- The types referred to in an expression, from left to right. -/
def typeRefs : Expr → List TypeRef
  | classRef type => [type]
  | args arguments => typeRefsAll arguments
  | call receiver _ arguments => receiver.typeRefs ++ typeRefsAll arguments
  | property receiver _ => receiver.typeRefs
  | condition inner => inner.typeRefs
  | not operand => operand.typeRefs
  | ternary test whenTrue whenFalse => test.typeRefs ++ whenTrue.typeRefs ++ whenFalse.typeRefs
  | absent | const _ | var _ => []

def typeRefsAll : List Expr → List TypeRef
  | [] => []
  | expr :: rest => expr.typeRefs ++ typeRefsAll rest

end

mutual

/-- Whether no child is missing. -/
def isComplete : Expr → Bool
  | absent => false
  | const _ | var _ | classRef _ => true
  | args arguments => allComplete arguments
  | call receiver _ arguments => receiver.isComplete && allComplete arguments
  | property receiver _ => receiver.isComplete
  | condition inner => inner.isComplete
  | not operand => operand.isComplete
  | ternary test whenTrue whenFalse =>
    test.isComplete && whenTrue.isComplete && whenFalse.isComplete

def allComplete : List Expr → Bool
  | [] => true
  | expr :: rest => expr.isComplete && allComplete rest

end

/-- Induction on an expression, in which each member of a list of expressions has the property. -/
@[elab_as_elim, induction_eliminator]
theorem treeInduction {motive : Expr → Prop} (absent : motive absent)
    (const : ∀ value, motive (const value)) (var : ∀ name, motive (var name))
    (classRef : ∀ type, motive (classRef type))
    (args : ∀ arguments, (∀ argument ∈ arguments, motive argument) → motive (args arguments))
    (call : ∀ receiver method arguments, motive receiver →
      (∀ argument ∈ arguments, motive argument) → motive (call receiver method arguments))
    (property : ∀ receiver name, motive receiver → motive (property receiver name))
    (condition : ∀ inner, motive inner → motive (condition inner))
    (not : ∀ operand, motive operand → motive (not operand))
    (ternary : ∀ test whenTrue whenFalse, motive test → motive whenTrue → motive whenFalse →
      motive (ternary test whenTrue whenFalse)) (expr : Expr) : motive expr := by
  refine @Expr.rec motive (fun exprs => ∀ expr ∈ exprs, motive expr)
    absent const var classRef args call property condition not ternary ?_ ?_ expr
  · intro expr h
    exact absurd h List.not_mem_nil
  · intro first rest hfirst hrest expr h
    rcases List.mem_cons.mp h with rfl | h
    · exact hfirst
    · exact hrest expr h

def isAbsent : Expr → Bool
  | absent => true
  | _ => false

/-- Whether the expression is a constant or a name. -/
def isSimple : Expr → Bool
  | const _ => true
  | var _ => true
  | _ => false

end Expr

end GuardedLogging
