import GuardedLogging.Proofs.Expr.Continuation
import GuardedLogging.Proofs.Expr.Language
import GuardedLogging.Proofs.Expr.Parsed

/-!
# Markers of conditions in texts

Whether a part of an expression is written in parentheses depends on what stands in its place, and a marker of a condition that stands there is no ternary and no negation. So what is behind a marker goes without the parentheses it may need. In front of a question mark, in front of a dot and behind a sign the text then binds otherwise: it is a part of what the marker is around that is tested, called or negated. What the text is read as is given here by a function on trees, and it is the expression without its markers exactly if no marker hides parentheses.
-/

namespace GuardedLogging

namespace Expr

/-! ### Without markers -/

mutual

/-- The expression without its markers. -/
def unmarked : Expr → Expr
  | condition inner => inner.unmarked
  | args arguments => args (unmarkedAll arguments)
  | call receiver method arguments => call receiver.unmarked method (unmarkedAll arguments)
  | property receiver name => property receiver.unmarked name
  | not operand => not operand.unmarked
  | ternary test whenTrue whenFalse => ternary test.unmarked whenTrue.unmarked whenFalse.unmarked
  | absent => absent
  | const value => const value
  | var name => var name
  | classRef type => classRef type

def unmarkedAll : List Expr → List Expr
  | [] => []
  | expr :: rest => expr.unmarked :: unmarkedAll rest

end

/-- Whether the parts of the node that may need parentheses have them if they do without their markers. -/
def hidesNothing : Expr → Bool
  | call receiver _ _ | property receiver _ =>
    (receiver.unmarked.isTernary || receiver.unmarked.isNot) == (receiver.isTernary || receiver.isNot)
  | not operand => operand.unmarked.isTernary == operand.isTernary
  | ternary test _ _ => test.unmarked.isTernary == test.isTernary
  | _ => true

/-! ### What a text with hidden parentheses is read as -/

/-- An expression without parentheses around it, with a suffix behind it. -/
def withSuffix (suffix : Expr → Expr) : Expr → Expr
  | ternary test whenTrue whenFalse => ternary test whenTrue (whenFalse.withSuffix suffix)
  | not operand => not (if operand.isTernary then suffix operand else operand.withSuffix suffix)
  | other => suffix other

/-- An expression without parentheses around it, with a question mark and two branches behind it. -/
def withBranches (expr whenTrue whenFalse : Expr) : Expr :=
  match expr with
  | ternary test first second => ternary test first (second.withBranches whenTrue whenFalse)
  | other => ternary other whenTrue whenFalse

mutual

/-- The expression that the text is read as. -/
def rebound : Expr → Expr
  | condition inner => inner.rebound
  | args arguments => args (reboundAll arguments)
  | call receiver method arguments =>
    if receiver.isTernary || receiver.isNot then call receiver.rebound method (reboundAll arguments)
    else receiver.rebound.withSuffix fun receiver => call receiver method (reboundAll arguments)
  | property receiver name =>
    if receiver.isTernary || receiver.isNot then property receiver.rebound name
    else receiver.rebound.withSuffix fun receiver => property receiver name
  | not operand => if operand.isTernary then not operand.rebound else operand.rebound.negated
  | ternary test whenTrue whenFalse =>
    if test.isTernary then ternary test.rebound whenTrue.rebound whenFalse.rebound
    else test.rebound.withBranches whenTrue.rebound whenFalse.rebound
  | absent => absent
  | const value => const value
  | var name => var name
  | classRef type => classRef type

def reboundAll : List Expr → List Expr
  | [] => []
  | expr :: rest => expr.rebound :: reboundAll rest

end

theorem unmarkedAll_eq_map (exprs : List Expr) : unmarkedAll exprs = exprs.map unmarked := by
  induction exprs with
  | nil => rfl
  | cons expr rest ih => rw [unmarkedAll, ih, List.map_cons]

theorem reboundAll_eq_map (exprs : List Expr) : reboundAll exprs = exprs.map rebound := by
  induction exprs with
  | nil => rfl
  | cons expr rest ih => rw [reboundAll, ih, List.map_cons]

variable {expr operand receiver test whenTrue whenFalse : Expr} {suffix : Expr → Expr} {lexemes : List Lexeme}

theorem withSuffix_eq (hternary : expr.isTernary = false) (hnot : expr.isNot = false) :
    expr.withSuffix suffix = suffix expr := by
  cases expr with
  | ternary _ _ _ => cases hternary
  | not _ => cases hnot
  | _ => rfl

theorem withBranches_eq (hternary : expr.isTernary = false) :
    expr.withBranches whenTrue whenFalse = ternary expr whenTrue whenFalse := by
  cases expr with
  | ternary _ _ _ => cases hternary
  | _ => rfl

theorem negated_eq (hternary : expr.isTernary = false) : expr.negated = not expr := by
  cases expr with
  | ternary _ _ _ => cases hternary
  | _ => rfl

theorem isTernary_withBranches (expr : Expr) : (expr.withBranches whenTrue whenFalse).isTernary = true := by
  cases expr <;> rfl

theorem isTernary_rebound (h : expr.isTernary = true) : expr.rebound.isTernary = true := by
  cases expr with
  | ternary test whenTrue whenFalse =>
    rw [rebound]
    split
    · rfl
    · exact isTernary_withBranches test.rebound
  | _ => cases h

theorem isTernary_unmarked (h : expr.isTernary = true) : expr.unmarked.isTernary = true := by
  cases expr with
  | ternary _ _ _ => rfl
  | _ => cases h

theorem needs_unmarked (h : (expr.isTernary || expr.isNot) = true) :
    (expr.unmarked.isTernary || expr.unmarked.isNot) = true := by
  cases expr with
  | ternary _ _ _ => rfl
  | not _ => rfl
  | _ => cases h

/-! ### The grammar derives it from the lexemes -/

/-- The grammar derives the expression, and there are no parentheses around the whole. -/
inductive DerivesBare : Expr → List Lexeme → Prop
  | suffixed {expr : Expr} {lexemes : List Lexeme} (hternary : expr.isTernary = false) (hnot : expr.isNot = false)
      (h : Derives (.suffixed expr) lexemes) : DerivesBare expr lexemes
  | not {operand : Expr} {lexemes : List Lexeme} (hternary : operand.isTernary = false)
      (h : DerivesBare operand lexemes) : DerivesBare (not operand) (.op '!' :: lexemes)
  | notParentheses {operand : Expr} {lexemes : List Lexeme} (hternary : operand.isTernary = true)
      (h : Derives (.suffixed operand) lexemes) : DerivesBare (not operand) (.op '!' :: lexemes)
  | ternary {test whenTrue whenFalse : Expr} {forTest forTrue forFalse : List Lexeme}
      (htest : Derives (.unary test) forTest) (htrue : Derives (.ternary whenTrue) forTrue)
      (hfalse : DerivesBare whenFalse forFalse) :
      DerivesBare (ternary test whenTrue whenFalse) (forTest ++ .op '?' :: (forTrue ++ .op ':' :: forFalse))

namespace DerivesBare

theorem unary (h : DerivesBare expr lexemes) (hternary : expr.isTernary = false) : Derives (.unary expr) lexemes := by
  induction h with
  | suffixed _ _ h => exact .suffixed h
  | not hoperand _ ih => exact .not (ih hoperand)
  | notParentheses _ h => exact .not (.suffixed h)
  | ternary _ _ _ _ => cases hternary

theorem derives (h : DerivesBare expr lexemes) : Derives (.ternary expr) lexemes := by
  induction h with
  | suffixed _ _ h => exact .unary (.suffixed h)
  | not hoperand h _ => exact .unary (.not (h.unary hoperand))
  | notParentheses _ h => exact .unary (.not (.suffixed h))
  | ternary htest htrue _ ih => exact .ternary htest htrue ih

theorem parenthesized (h : DerivesBare expr lexemes) : Derives (.suffixed expr) (parenthesizedLexemes true lexemes) :=
  .primary (.parentheses h.derives)

theorem negated (h : DerivesBare expr lexemes) : DerivesBare expr.negated (.op '!' :: lexemes) := by
  cases h with
  | suffixed hternary hnot h =>
    rw [negated_eq hternary]
    exact .not hternary (.suffixed hternary hnot h)
  | not hternary h => exact .not rfl (.not hternary h)
  | notParentheses hternary h => exact .not rfl (.notParentheses hternary h)
  | ternary htest htrue hfalse => exact .ternary (.not htest) htrue hfalse

theorem withBranches {forTrue forFalse : List Lexeme} (h : DerivesBare expr lexemes)
    (htrue : Derives (.ternary whenTrue) forTrue) (hfalse : DerivesBare whenFalse forFalse) :
    DerivesBare (expr.withBranches whenTrue whenFalse) (lexemes ++ .op '?' :: (forTrue ++ .op ':' :: forFalse)) := by
  induction h with
  | suffixed hternary _ h =>
    rw [withBranches_eq hternary]
    exact .ternary (.suffixed h) htrue hfalse
  | not hternary h _ => exact .ternary (.not (h.unary hternary)) htrue hfalse
  | notParentheses _ h => exact .ternary (.not (.suffixed h)) htrue hfalse
  | ternary htest hfirst _ ih =>
    rw [List.append_assoc, List.cons_append, List.append_assoc, List.cons_append]
    exact .ternary htest hfirst ih

theorem withSuffix {forSuffix : List Lexeme} (h : DerivesBare expr lexemes)
    (hplain : ∀ receiver, (suffix receiver).isTernary = false ∧ (suffix receiver).isNot = false)
    (hsuffix : ∀ {receiver lexemes}, Derives (.suffixed receiver) lexemes →
      Derives (.suffixed (suffix receiver)) (lexemes ++ forSuffix)) :
    DerivesBare (expr.withSuffix suffix) (lexemes ++ forSuffix) := by
  induction h with
  | suffixed hternary hnot h =>
    rw [withSuffix_eq hternary hnot]
    exact .suffixed (hplain _).1 (hplain _).2 (hsuffix h)
  | @not operand _ hternary _ ih =>
    rw [Expr.withSuffix, hternary, if_neg Bool.false_ne_true]
    refine .not ?_ ih
    cases operand with
    | ternary _ _ _ => cases hternary
    | not _ => rfl
    | _ => exact (hplain _).1
  | notParentheses hternary h =>
    rw [Expr.withSuffix, hternary, if_pos rfl]
    exact .not (hplain _).1 (.suffixed (hplain _).1 (hplain _).2 (hsuffix h))
  | ternary htest htrue _ ih =>
    rw [List.append_assoc, List.cons_append, List.append_assoc, List.cons_append]
    exact .ternary htest htrue ih

end DerivesBare

/-- The node marks a condition, or it may come from a source and says so that no number is changed. -/
def IsMarkedNode (node : Expr) : Prop := node.isMarker = true ∨ (node.isParsedNode = true ∧ node.isReal = false)

instance (node : Expr) : Decidable (IsMarkedNode node) :=
  inferInstanceAs (Decidable (node.isMarker = true ∨ (node.isParsedNode = true ∧ node.isReal = false)))

/-- The expression may come from a source, with markers of conditions in any places. -/
abbrev IsMarked : Expr → Prop := EveryNode IsMarkedNode

variable {localTypes : List String}

theorem derivesBare_lexemes (h : expr.IsMarked) : DerivesBare expr.rebound (expr.lexemes localTypes) := by
  induction expr with
  | absent => exact absurd (h.node.resolve_left nofun).1 nofun
  | classRef type => exact absurd (h.node.resolve_left nofun).1 nofun
  | args arguments _ => exact absurd (h.node.resolve_left nofun).1 nofun
  | condition inner ih => exact ih (EveryNode.condition_iff.mp h).2
  | const value =>
    obtain ⟨hwritten, hreal⟩ := h.node.resolve_left nofun
    have hleaf := leaf_of_scalar hwritten
    rw [ofScalar_of_not_isReal hreal] at hleaf
    exact .suffixed rfl rfl (.primary (.leaf hleaf))
  | var name => exact .suffixed rfl rfl (.primary (.leaf (.name (isKeyword_of_isName (h.node.resolve_left nofun).1))))
  | call receiver method arguments ihReceiver ihArguments =>
    obtain ⟨_, hreceiver, harguments⟩ := EveryNode.call_iff.mp h
    have hbare := ihReceiver hreceiver
    have hsuffix {receiver : Expr} {lexemes : List Lexeme} (hderives : Derives (.suffixed receiver) lexemes) :
        Derives (.suffixed (call receiver method (arguments.map rebound)))
          (lexemes ++ .op '.' :: .word method :: .op '('
            :: ([.op ','].intercalate (arguments.map (Expr.lexemes localTypes)) ++ [.op ')'])) := by
      cases arguments with
      | nil => exact hderives.callEmpty method
      | cons first others =>
        exact hderives.call method (derives_list fun argument hargument =>
          (ihArguments argument hargument (harguments argument hargument)).derives)
    rw [rebound, lexemes_call, reboundAll_eq_map, lexemesAll_eq_map]
    split
    · rename_i hinside
      rw [hinside]
      exact .suffixed rfl rfl (hsuffix hbare.parenthesized)
    · rename_i hinside
      rw [Bool.eq_false_iff.mpr hinside]
      exact hbare.withSuffix (fun _ => ⟨rfl, rfl⟩) hsuffix
  | property receiver name ih =>
    have hbare := ih (EveryNode.property_iff.mp h).2
    rw [rebound, lexemes_property]
    split
    · rename_i hinside
      rw [hinside]
      exact .suffixed rfl rfl (hbare.parenthesized.property name)
    · rename_i hinside
      rw [Bool.eq_false_iff.mpr hinside]
      exact hbare.withSuffix (fun _ => ⟨rfl, rfl⟩) fun hderives => hderives.property name
  | not operand ih =>
    have hbare := ih (EveryNode.not_iff.mp h).2
    rw [rebound, lexemes]
    split
    · rename_i hinside
      rw [hinside]
      exact .notParentheses (isTernary_rebound hinside) hbare.parenthesized
    · rename_i hinside
      rw [Bool.eq_false_iff.mpr hinside]
      exact hbare.negated
  | ternary test whenTrue whenFalse ihTest ihTrue ihFalse =>
    obtain ⟨_, htest, htrue, hfalse⟩ := EveryNode.ternary_iff.mp h
    have hbranch : Derives (.ternary whenTrue.rebound)
        (parenthesizedLexemes whenTrue.isTernary (whenTrue.lexemes localTypes)) := by
      cases whenTrue.isTernary with
      | true => exact .unary (.suffixed (ihTrue htrue).parenthesized)
      | false => exact (ihTrue htrue).derives
    rw [rebound, lexemes_ternary]
    split
    · rename_i hinside
      rw [hinside]
      exact .ternary (.suffixed (ihTest htest).parenthesized) hbranch (ihFalse hfalse)
    · rename_i hinside
      rw [Bool.eq_false_iff.mpr hinside]
      exact (ihTest htest).withBranches hbranch (ihFalse hfalse)

/-! ### Binding otherwise changes the expression -/

theorem length_nodes_negated (expr : Expr) : expr.negated.nodes.length = expr.nodes.length + 1 := by
  cases expr with
  | ternary test whenTrue whenFalse => simp only [negated, nodes, List.length_cons, List.length_append]; omega
  | _ => rfl

theorem length_nodes_withBranches (expr : Expr) :
    (expr.withBranches whenTrue whenFalse).nodes.length
      = expr.nodes.length + whenTrue.nodes.length + whenFalse.nodes.length + 1 := by
  induction expr with
  | ternary test first second _ _ ih =>
    simp only [withBranches, nodes, List.length_cons, List.length_append, ih]
    omega
  | _ => simp only [withBranches, nodes, List.length_cons, List.length_append]

theorem length_nodes_withSuffix {added : Nat}
    (hsuffix : ∀ receiver, (suffix receiver).nodes.length = receiver.nodes.length + added) (expr : Expr) :
    (expr.withSuffix suffix).nodes.length = expr.nodes.length + added := by
  induction expr with
  | ternary test first second _ _ ih =>
    simp only [withSuffix, nodes, List.length_cons, List.length_append, ih]
    omega
  | not operand ih =>
    simp only [withSuffix, nodes, List.length_cons]
    split
    · rw [hsuffix]
      omega
    · rw [ih]
      omega
  | _ => exact hsuffix _

theorem length_nodesAll_map {first second : Expr → Expr} {exprs : List Expr}
    (h : ∀ expr ∈ exprs, (first expr).nodes.length = (second expr).nodes.length) :
    (nodesAll (exprs.map first)).length = (nodesAll (exprs.map second)).length := by
  induction exprs with
  | nil => rfl
  | cons expr rest ih =>
    obtain ⟨hexpr, hrest⟩ := List.forall_mem_cons.mp h
    simp only [List.map_cons, nodesAll, List.length_append, hexpr, ih hrest]

/-- However a text binds, it has as many nodes as the expression without its markers. -/
theorem length_nodes_rebound (expr : Expr) : expr.rebound.nodes.length = expr.unmarked.nodes.length := by
  induction expr with
  | absent => rfl
  | const value => rfl
  | var name => rfl
  | classRef type => rfl
  | condition inner ih => exact ih
  | args arguments ih =>
    rw [rebound, unmarked, reboundAll_eq_map, unmarkedAll_eq_map, nodes, nodes, List.length_cons, List.length_cons,
      length_nodesAll_map ih]
  | call receiver method arguments ih ihArguments =>
    have hsuffix : ∀ receiver, (call receiver method (reboundAll arguments)).nodes.length
        = receiver.nodes.length + ((nodesAll (unmarkedAll arguments)).length + 1) := by
      intro receiver
      rw [nodes, reboundAll_eq_map, unmarkedAll_eq_map, List.length_cons, List.length_append,
        length_nodesAll_map ihArguments]
      omega
    have hunmarked : (call receiver method arguments).unmarked.nodes.length
        = receiver.unmarked.nodes.length + ((nodesAll (unmarkedAll arguments)).length + 1) := by
      rw [unmarked, nodes, List.length_cons, List.length_append]
      omega
    rw [rebound, hunmarked, ← ih]
    split
    · exact hsuffix _
    · exact length_nodes_withSuffix hsuffix _
  | property receiver name ih =>
    rw [rebound, unmarked, nodes, List.length_cons, ← ih]
    split
    · rfl
    · exact length_nodes_withSuffix (fun _ => rfl) _
  | not operand ih =>
    rw [rebound, unmarked, nodes, List.length_cons, ← ih]
    split
    · rfl
    · exact length_nodes_negated _
  | ternary test whenTrue whenFalse ihTest ihTrue ihFalse =>
    have hunmarked : (ternary test whenTrue whenFalse).unmarked.nodes.length
        = test.rebound.nodes.length + whenTrue.rebound.nodes.length + whenFalse.rebound.nodes.length + 1 := by
      rw [unmarked, nodes, List.length_cons, List.length_append, List.length_append, ihTest, ihTrue, ihFalse]
    rw [rebound, hunmarked]
    split
    · rw [nodes, List.length_cons, List.length_append, List.length_append]
    · exact length_nodes_withBranches _

theorem negated_eq_not_iff : expr.negated = not operand ↔ expr.isTernary = false ∧ expr = operand := by
  cases expr with
  | ternary _ _ _ => exact ⟨nofun, fun h => absurd h.1 nofun⟩
  | _ => exact ⟨fun h => ⟨rfl, not.inj h⟩, fun h => congrArg not h.2⟩

/-- With a suffix behind it, a ternary stays a ternary and a negation a negation. -/
theorem withSuffix_eq_iff {whole : Expr} (hwhole : whole.isTernary = false ∧ whole.isNot = false) :
    expr.withSuffix suffix = whole ↔ (expr.isTernary || expr.isNot) = false ∧ suffix expr = whole := by
  cases expr with
  | ternary test first second =>
    refine ⟨?_, fun h => absurd h.1 nofun⟩
    rintro rfl
    cases hwhole.1
  | not operand =>
    refine ⟨?_, fun h => absurd h.1 nofun⟩
    rintro rfl
    cases hwhole.2
  | _ => exact ⟨fun h => ⟨rfl, h⟩, fun h => h.2⟩

/-- A ternary in front of a question mark keeps its test, so it is no test of its own then. -/
theorem withBranches_eq_iff {otherTrue otherFalse : Expr} (hlength : expr.nodes.length = test.nodes.length) :
    expr.withBranches whenTrue whenFalse = ternary test otherTrue otherFalse ↔
      expr.isTernary = false ∧ expr = test ∧ whenTrue = otherTrue ∧ whenFalse = otherFalse := by
  cases expr with
  | ternary first _ _ =>
    refine ⟨fun h => ?_, fun h => absurd h.1 nofun⟩
    obtain ⟨rfl, _⟩ := ternary.inj h
    simp only [nodes, List.length_cons, List.length_append] at hlength
    omega
  | _ =>
    refine ⟨fun h => ⟨rfl, ternary.inj h⟩, fun h => ?_⟩
    rw [withBranches_eq rfl, h.2.1, h.2.2.1, h.2.2.2]

/-- Where a part has no parentheses, it keeps its place if it needs none and is not changed itself. -/
theorem keeps_place_iff (needs : Expr → Bool) (h : needs receiver = false) {node : Prop}
    (ih : receiver.rebound = receiver.unmarked ↔ node) :
    needs receiver.rebound = false ∧ receiver.rebound = receiver.unmarked ↔
      (needs receiver.unmarked == needs receiver) = true ∧ node := by
  rw [← ih, h, beq_false, Bool.not_eq_true']
  exact and_congr_left fun hsame => by rw [hsame]

/-- The text binds as the expression without its markers does exactly if no marker hides parentheses. -/
theorem rebound_eq_unmarked_iff :
    expr.rebound = expr.unmarked ↔ EveryNode (fun node => node.hidesNothing = true) expr := by
  induction expr with
  | absent => exact ⟨fun _ => fun node hnode => List.mem_singleton.mp hnode ▸ rfl, fun _ => rfl⟩
  | const value => exact ⟨fun _ => EveryNode.const_iff.mpr rfl, fun _ => rfl⟩
  | var name => exact ⟨fun _ => EveryNode.var_iff.mpr rfl, fun _ => rfl⟩
  | classRef type => exact ⟨fun _ => EveryNode.classRef_iff.mpr rfl, fun _ => rfl⟩
  | condition inner ih =>
    rw [EveryNode.condition_iff]
    exact ih.trans (and_iff_right rfl).symm
  | args arguments ih =>
    rw [rebound, unmarked, reboundAll_eq_map, unmarkedAll_eq_map, args.injEq, List.map_inj_left, EveryNode.args_iff]
    exact (forall₂_congr ih).trans (and_iff_right rfl).symm
  | call receiver method arguments ih ihArguments =>
    have harguments : reboundAll arguments = unmarkedAll arguments ↔
        ∀ argument ∈ arguments, EveryNode (fun node => node.hidesNothing = true) argument := by
      rw [reboundAll_eq_map, unmarkedAll_eq_map, List.map_inj_left]
      exact forall₂_congr ihArguments
    rw [EveryNode.call_iff, rebound, unmarked]
    by_cases hinside : (receiver.isTernary || receiver.isNot) = true
    · rw [if_pos hinside, call.injEq, eq_self, true_and, ih, harguments, hidesNothing, hinside, needs_unmarked hinside]
      exact (and_iff_right rfl).symm
    · have hkeeps := keeps_place_iff (fun expr => expr.isTernary || expr.isNot) (Bool.eq_false_iff.mpr hinside) ih
      rw [if_neg hinside, withSuffix_eq_iff ⟨rfl, rfl⟩, call.injEq, eq_self, true_and, harguments, ← and_assoc,
        hkeeps, and_assoc]
      rfl
  | property receiver name ih =>
    rw [EveryNode.property_iff, rebound, unmarked]
    by_cases hinside : (receiver.isTernary || receiver.isNot) = true
    · rw [if_pos hinside, property.injEq, eq_self, and_true, ih, hidesNothing, hinside, needs_unmarked hinside]
      exact (and_iff_right rfl).symm
    · rw [if_neg hinside, withSuffix_eq_iff ⟨rfl, rfl⟩, property.injEq, eq_self, and_true]
      exact keeps_place_iff (fun expr => expr.isTernary || expr.isNot) (Bool.eq_false_iff.mpr hinside) ih
  | not operand ih =>
    rw [EveryNode.not_iff, rebound, unmarked]
    by_cases hinside : operand.isTernary = true
    · rw [if_pos hinside, not.injEq, ih, hidesNothing, hinside, isTernary_unmarked hinside]
      exact (and_iff_right rfl).symm
    · rw [if_neg hinside, negated_eq_not_iff]
      exact keeps_place_iff isTernary (Bool.eq_false_iff.mpr hinside) ih
  | ternary test whenTrue whenFalse ihTest ihTrue ihFalse =>
    rw [EveryNode.ternary_iff, rebound, unmarked]
    by_cases hinside : test.isTernary = true
    · rw [if_pos hinside, ternary.injEq, ihTest, ihTrue, ihFalse, hidesNothing, hinside, isTernary_unmarked hinside]
      exact (and_iff_right rfl).symm
    · rw [if_neg hinside, withBranches_eq_iff (length_nodes_rebound test), ihTrue, ihFalse, ← and_assoc,
        keeps_place_iff isTernary (Bool.eq_false_iff.mpr hinside) ihTest, and_assoc]
      rfl

/-! ### Whole texts -/

theorem IsMarked.isComplete (h : expr.IsMarked) : expr.isComplete = true := by
  refine isComplete_iff.mpr (h.mono fun node hnode => ?_)
  cases node with
  | absent => exact absurd (hnode.resolve_left nofun).1 nofun
  | _ => rfl

theorem IsMarked.spells (h : expr.IsMarked) (cut : Scan.Cutting) (localTypes : List String) :
    Spells cut (expr.toSource localTypes) (expr.lexemes localTypes) :=
  spells_toSource_of_markers (h.mono fun _ => .imp_right fun hnode =>
    IsExactNode.isSpelledNode ⟨isWritten_of_isParsedNode localTypes hnode.1, hnode.2⟩)

theorem parse_toSource_of_isMarked (h : expr.IsMarked) : parse (expr.toSource localTypes) = .ok expr.rebound := by
  have hcut : Scan.Cut (expr.toSource localTypes).toList (expr.lexemes localTypes) := by
    have hspells := h.spells .exact localTypes [] [] trivial .nil
    rwa [List.append_nil, List.append_nil] at hspells
  obtain ⟨list, hlist, hlexemes⟩ := Scan.tokensFrom_of_cut hcut 1
  refine parse_eq_ok_iff_derives.mpr ⟨list, hlist, ?_⟩
  rw [TokenList.lexemes, hlexemes]
  exact (derivesBare_lexemes h).derives

end Expr

open GuardedLogging.Expr in
/-- An expression that may come from a source, with markers of conditions in any places, has a text that is read; and what is read is the expression without its markers if and only if no marker hides parentheses: it must not stand around a ternary that is negated, tested or a receiver, nor around a negation that is a receiver. -/
theorem texts_bind_as_written_iff (localTypes : List String) (expr : Expr) (h : expr.IsMarked) :
    ∃ text read, expr.toSource? localTypes = some text ∧ parse text = .ok read ∧ read = expr.rebound ∧
      (read = expr.unmarked ↔ EveryNode (fun node => node.hidesNothing = true) expr) :=
  ⟨_, _, if_pos h.isComplete, parse_toSource_of_isMarked h, rfl, rebound_eq_unmarked_iff⟩

namespace Expr

/-- A check and a negated ternary, each behind a marker that hides nothing. -/
def markedGuard : Expr :=
  ternary (condition (call (var "log") "isInfoEnabled" []))
    (condition (ternary (var "a") (const (.text "x")) (const .null)))
    (property (not (ternary (condition (var "b")) (const (.int 1)) (var "c"))) "d")

/-- A negation of a ternary that stands behind a marker. -/
def hiddenTernary : Expr := not (condition (ternary (var "a") (var "b") (var "c")))

end Expr

open GuardedLogging.Expr in
/-- The marked guard is read back without its markers. -/
theorem markedGuard_binds_as_written :
    markedGuard.IsMarked ∧
      ∃ text, markedGuard.toSource? [] = some text ∧ parse text = .ok markedGuard.unmarked := by
  have hmarked : markedGuard.IsMarked := by decide
  obtain ⟨text, read, htext, hread, _, hsame⟩ := texts_bind_as_written_iff [] markedGuard hmarked
  have hnothing : EveryNode (fun node => node.hidesNothing = true) markedGuard := by decide
  exact ⟨hmarked, text, htext, hsame.mpr hnothing ▸ hread⟩

open GuardedLogging.Expr in
/-- The hidden ternary is written without parentheses, and so its test is negated. -/
theorem hidden_ternary_binds_otherwise :
    hiddenTernary.IsMarked ∧ hiddenTernary.toSource? [] = some "!a ? b : c" ∧
      parse "!a ? b : c" = .ok (ternary (not (var "a")) (var "b") (var "c")) ∧
      ternary (not (var "a")) (var "b") (var "c") ≠ hiddenTernary.unmarked :=
  ⟨by decide, rfl, by decide +kernel, nofun⟩

end GuardedLogging
