import GuardedLogging.Proofs.CompilationUnit.Joining

/-!
# Statements that collide

A statement that ends in a variable collides with a next one that starts with a parenthesis: a variable cannot be called, so neither is read. Joining statements does not help and does no harm. What is joined starts like its first part and ends like its last, and the parts in between meet at the names of members, so the joined statements of a method collide if and only if the statements that they are made of do.
-/

namespace GuardedLogging

variable {localTypes : List String}

namespace Statement

variable {first second : Statement} {body : List Statement}

/-- The first statement ends in a variable, and the second starts with a parenthesis. -/
def CollidesWith (localTypes : List String) (first second : Statement) : Prop :=
  (first.expr.reread localTypes).endsInVariable = true ∧ second.OpensParenthesis localTypes

instance (first second : Statement) : Decidable (first.CollidesWith localTypes second) :=
  inferInstanceAs (Decidable ((first.expr.reread localTypes).endsInVariable = true ∧
    second.OpensParenthesis localTypes))

theorem runsInto_iff : first.RunsInto localTypes second ↔
    first.JoinsWith localTypes second ∨ first.CollidesWith localTypes second := by
  rw [RunsInto, Expr.endsInName_eq, Bool.or_eq_true, or_and_right]
  rfl

/-- The statements of a body are apart if none joins with the next one and none collides with it. -/
theorem isChain_not_runsInto_iff :
    (body.IsChain fun first second => ¬first.RunsInto localTypes second) ↔
      (body.IsChain fun first second => ¬first.JoinsWith localTypes second) ∧
        body.IsChain fun first second => ¬first.CollidesWith localTypes second := by
  simp only [List.isChain_iff_forall_rel_of_append_cons_cons, runsInto_iff, not_or, forall_and]

theorem JoinsWith.not_collidesWith (h : first.JoinsWith localTypes second) :
    ¬first.CollidesWith localTypes second :=
  fun hcollides => Expr.not_endsInVariable_of_endsInMember h.1 hcollides.1

theorem collidesWith_join_iff (h : first.JoinsWith localTypes second) (third : Statement) :
    (first.join localTypes second).CollidesWith localTypes third ↔ second.CollidesWith localTypes third :=
  and_congr_left fun _ => by rw [join, (Expr.endsLike_continuedBy h.1).2]

/-- Where a statement is joined with the one behind it, the same statements collide as before. -/
theorem isChain_prependTo_iff :
    (first.prependTo localTypes body).IsChain (fun first second => ¬first.CollidesWith localTypes second) ↔
      (first :: body).IsChain fun first second => ¬first.CollidesWith localTypes second := by
  cases body with
  | nil => exact Iff.rfl
  | cons second body =>
    rw [prependTo]
    split
    · rename_i hjoins
      rw [List.isChain_cons_cons, and_iff_right hjoins.not_collidesWith, List.isChain_cons, List.isChain_cons]
      exact and_congr_left fun _ => forall₂_congr fun third _ => (collidesWith_join_iff hjoins third).not
    · exact Iff.rfl

theorem head?_flatMap_lexemes (h : ∀ statement ∈ body, statement.expr.IsWritten localTypes) :
    (body.flatMap (lexemes localTypes)).head? = some (.op '(') ↔
      ∃ statement ∈ body.head?, statement.OpensParenthesis localTypes := by
  cases body with
  | nil => simp
  | cons statement body =>
    obtain ⟨lexeme, others, hlexemes, _⟩ := exists_lexemes_eq_cons (h statement List.mem_cons_self)
    simp [OpensParenthesis, hlexemes]

theorem isChain_joinAll_iff (h : ∀ statement ∈ body, statement.expr.IsWritten localTypes) :
    (joinAll localTypes body).IsChain (fun first second => ¬first.CollidesWith localTypes second) ↔
      body.IsChain fun first second => ¬first.CollidesWith localTypes second := by
  induction body with
  | nil => exact Iff.rfl
  | cons first body ih =>
    obtain ⟨_, hbody⟩ := List.forall_mem_cons.mp h
    -- The others start with the same lexeme, joined or not, and that is all of them that the first statement meets.
    have hopens : (∃ second ∈ (joinAll localTypes body).head?, second.OpensParenthesis localTypes) ↔
        ∃ second ∈ body.head?, second.OpensParenthesis localTypes := by
      rw [← head?_flatMap_lexemes (isWritten_joinAll hbody), lexemes_joinAll hbody, head?_flatMap_lexemes hbody]
    have hhead : (∀ second ∈ (joinAll localTypes body).head?, ¬first.CollidesWith localTypes second) ↔
        ∀ second ∈ body.head?, ¬first.CollidesWith localTypes second := by
      by_cases hend : (first.expr.reread localTypes).endsInVariable = true
      · simpa [CollidesWith, hend] using hopens.not
      · simp [CollidesWith, hend]
    show (first.prependTo localTypes (joinAll localTypes body)).IsChain _ ↔ _
    rw [isChain_prependTo_iff, List.isChain_cons, List.isChain_cons, ih hbody, hhead]

end Statement

/-- No two statements of the method collide. -/
def Method.CollidesNone (localTypes : List String) (method : Method) : Prop :=
  method.body.IsChain fun first second => ¬first.CollidesWith localTypes second

instance (method : Method) : Decidable (method.CollidesNone localTypes) :=
  inferInstanceAs (Decidable (method.body.IsChain fun first second => ¬first.CollidesWith localTypes second))

theorem Method.keepsApart_joined_iff {method : Method} {types : TypeRef → Prop}
    (h : method.IsWritten types (Expr.IsWritten localTypes)) :
    (method.joined localTypes).KeepsApart localTypes ↔ method.CollidesNone localTypes := by
  have hjoins : (Statement.joinAll localTypes method.body).IsChain fun first second =>
      ¬first.JoinsWith localTypes second := Statement.isChain_joinAll method.body
  rw [KeepsApart, joined, Statement.isChain_not_runsInto_iff, and_iff_right hjoins]
  exact Statement.isChain_joinAll_iff h.body

namespace CompilationUnit

variable {unit : CompilationUnit}

/-- No two statements in the unit collide. -/
def CollidesNone (unit : CompilationUnit) : Prop :=
  ∀ decl ∈ unit.classes, ∀ method ∈ decl.methods, method.CollidesNone unit.classNames

instance (unit : CompilationUnit) : Decidable unit.CollidesNone :=
  inferInstanceAs (Decidable (∀ decl ∈ unit.classes, ∀ method ∈ decl.methods,
    method.CollidesNone unit.classNames))

theorem IsWritten.keepsApart_joined_iff {types : TypeRef → Prop}
    (h : unit.IsWritten types (Expr.IsWritten unit.classNames)) :
    (∀ decl ∈ unit.joined.classes, ∀ method ∈ decl.methods, method.KeepsApart unit.classNames) ↔
      unit.CollidesNone := by
  rw [CompilationUnit.joined, List.forall_mem_map]
  refine forall₂_congr fun decl hdecl => ?_
  rw [ClassDecl.joined, List.forall_mem_map]
  exact forall₂_congr fun method hmethod =>
    Method.keepsApart_joined_iff ((h.classes decl hdecl).methods method hmethod)

end CompilationUnit

end GuardedLogging
