import GuardedLogging.Proofs.Expr.Writing

/-!
# Expressions that go on

A written expression goes on with what is behind it if it ends in a name and a parenthesis comes next. The name of a member is called then: the parentheses hold the argument, and what was written as two expressions is read as one. A variable has no receiver to be called on, so nothing is read.
-/

namespace GuardedLogging

open Cursor

namespace Expr

variable {localTypes : List String} {lastLine : Nat} {expr receiver first second : Expr} {name : String}

/-! ### A name with properties -/

theorem isReceiver_foldl_property {receiver : Expr} (h : (receiver.isTernary || receiver.isNot) = false)
    (parts : List String) :
    ((parts.foldl property receiver).isTernary || (parts.foldl property receiver).isNot) = false := by
  induction parts generalizing receiver with
  | nil => exact h
  | cons part parts ih => exact ih rfl

theorem lexemes_foldl_property {receiver : Expr} (h : (receiver.isTernary || receiver.isNot) = false)
    (parts : List String) :
    (parts.foldl property receiver).lexemes localTypes
      = receiver.lexemes localTypes ++ partLexemes parts := by
  induction parts generalizing receiver with
  | nil => exact (List.append_nil _).symm
  | cons part parts ih =>
    rw [List.foldl_cons, ih rfl, lexemes_property, h, parenthesizedLexemes_false, List.append_assoc]
    rfl

theorem isWritten_foldl_property {receiver : Expr} (h : receiver.IsWritten localTypes)
    {parts : List String} (hparts : ∀ part ∈ parts, isWord part = true) :
    (parts.foldl property receiver).IsWritten localTypes := by
  induction parts generalizing receiver with
  | nil => exact h
  | cons part parts ih =>
    obtain ⟨hpart, hothers⟩ := List.forall_mem_cons.mp hparts
    exact ih (EveryNode.property_iff.mpr ⟨hpart, h⟩) hothers

/-- A name with properties is a name or a property. -/
theorem eq_nil_or_ofParts_eq (first : String) (parts : List String) :
    parts = [] ∨ ∃ receiver name, ofParts (first :: parts) = property receiver name := by
  rcases List.eq_nil_or_concat parts with rfl | ⟨front, last, rfl⟩
  · exact .inl rfl
  · refine .inr ⟨front.foldl property (var first), last, ?_⟩
    rw [ofParts, List.concat_eq_append, List.foldl_append]
    rfl

theorem lexemes_reread_classRef {type : TypeRef} (h : (classRef type).IsWritten localTypes) :
    ((classRef type).reread localTypes).lexemes localTypes = (classRef type).lexemes localTypes := by
  obtain ⟨first, parts, hparts, _⟩ := dotParts_of_isDottedName h.node
  rw [reread, lexemes, TypeRef.lexemes, dottedLexemes, hparts]
  exact lexemes_foldl_property rfl parts

theorem isWritten_reread_classRef {type : TypeRef} (h : (classRef type).IsWritten localTypes) :
    ((classRef type).reread localTypes).IsWritten localTypes := by
  obtain ⟨first, parts, hparts, hfirst, hothers⟩ := dotParts_of_isDottedName h.node
  rw [reread, hparts]
  exact isWritten_foldl_property (EveryNode.var_iff.mpr hfirst) hothers

/-! ### Where an expression ends -/

/-- Whether the expression ends in the name of a member. -/
def endsInMember : Expr → Bool
  | property _ _ => true
  | not operand => !operand.isTernary && operand.endsInMember
  | ternary _ _ whenFalse => whenFalse.endsInMember
  | _ => false

/-- Whether the expression ends in a variable. -/
def endsInVariable : Expr → Bool
  | var _ => true
  | not operand => !operand.isTernary && operand.endsInVariable
  | ternary _ _ whenFalse => whenFalse.endsInVariable
  | _ => false

/-- Both expressions end in the name of a member, or both in a variable, or both in neither. -/
def EndsLike (first second : Expr) : Prop :=
  first.endsInMember = second.endsInMember ∧ first.endsInVariable = second.endsInVariable

theorem not_endsInVariable_of_endsInMember (h : expr.endsInMember = true) : ¬expr.endsInVariable = true := by
  induction expr with
  | not operand ih =>
    intro hvariable
    exact ih (Bool.and_eq_true_iff.mp h).2 (Bool.and_eq_true_iff.mp hvariable).2
  | ternary test whenTrue whenFalse _ _ ih => exact ih h
  | property receiver name _ => exact Bool.false_ne_true
  | _ => cases h

theorem endsInName_eq (expr : Expr) : expr.endsInName = (expr.endsInMember || expr.endsInVariable) := by
  induction expr with
  | not operand ih => rw [endsInName, endsInMember, endsInVariable, ih, Bool.and_or_distrib_left]
  | ternary test whenTrue whenFalse _ _ ih => exact ih
  | _ => rfl

theorem isTernary_reread (expr : Expr) : (expr.reread localTypes).isTernary = expr.isTernary := by
  cases expr with
  | classRef type =>
    show (ofParts (dotParts (type.toSource localTypes))).isTernary = false
    cases dotParts (type.toSource localTypes) with
    | nil => rfl
    | cons first parts => exact (Bool.or_eq_false_iff.mp (isReceiver_foldl_property rfl parts)).1
  | const value =>
    cases value with
    | real value => cases value <;> rfl
    | _ => rfl
  | _ => rfl

theorem endsInMember_ofScalar (value : Scalar) : ¬(ofScalar value).endsInMember = true := by
  cases value with
  | real value => cases value <;> exact Bool.false_ne_true
  | _ => exact Bool.false_ne_true

theorem exists_reread_classRef_eq {type : TypeRef}
    (h : ((classRef type).reread localTypes).endsInMember = true) :
    ∃ receiver name, (classRef type).reread localTypes = property receiver name := by
  rw [reread] at h ⊢
  cases hparts : dotParts (type.toSource localTypes) with
  | nil =>
    rw [hparts] at h
    cases h
  | cons first parts =>
    rw [hparts] at h
    rcases eq_nil_or_ofParts_eq first parts with rfl | hmember
    · cases h
    · exact hmember

/-! ### The expression behind a member -/

/-- The expression behind a member, with the parentheses in front of it taken for the arguments of a call. -/
def asArguments (receiver : Expr) (name : String) : Expr → Expr
  | call inner method arguments =>
    call (if inner.isTernary || inner.isNot then call receiver name [inner]
      else asArguments receiver name inner) method arguments
  | property inner member =>
    property (if inner.isTernary || inner.isNot then call receiver name [inner]
      else asArguments receiver name inner) member
  | ternary test whenTrue whenFalse =>
    ternary (if test.isTernary then call receiver name [test] else asArguments receiver name test)
      whenTrue whenFalse
  | other => other

theorem isTernary_asArguments (expr : Expr) :
    (asArguments receiver name expr).isTernary = expr.isTernary := by
  cases expr <;> rfl

theorem isNot_asArguments (expr : Expr) : (asArguments receiver name expr).isNot = expr.isNot := by
  cases expr <;> rfl

theorem endsLike_asArguments (expr : Expr) :
    EndsLike ((asArguments receiver name expr).reread localTypes) (expr.reread localTypes) := by
  cases expr <;> exact ⟨rfl, rfl⟩

theorem lexemes_call_singleton (argument : Expr) :
    (call receiver name [argument]).lexemes localTypes
      = (property receiver name).lexemes localTypes
        ++ parenthesizedLexemes true (argument.lexemes localTypes) := by
  simp [lexemes, lexemesAll, parenthesizedLexemes, List.intercalate_singleton]

/-- What stands in front is a call then, with the same lexemes. -/
theorem lexemes_front {inside : Bool} {inner : Expr}
    (ih : (inner.lexemes localTypes).head? = some (.op '(') →
      (asArguments receiver name inner).lexemes localTypes
        = (property receiver name).lexemes localTypes ++ inner.lexemes localTypes)
    (hopen : (parenthesizedLexemes inside (inner.lexemes localTypes)).head? = some (.op '(')) :
    (if inside then call receiver name [inner] else asArguments receiver name inner).lexemes localTypes
      = (property receiver name).lexemes localTypes
        ++ parenthesizedLexemes inside (inner.lexemes localTypes) := by
  cases inside with
  | true => exact lexemes_call_singleton inner
  | false => exact ih hopen

theorem isTernary_front (inner : Expr) :
    (if inner.isTernary then call receiver name [inner]
      else asArguments receiver name inner).isTernary = false := by
  split
  · rfl
  · rename_i hternary
    rw [isTernary_asArguments]
    exact Bool.eq_false_iff.mpr hternary

theorem isReceiver_front (inner : Expr) :
    let front := if inner.isTernary || inner.isNot then call receiver name [inner]
      else asArguments receiver name inner
    (front.isTernary || front.isNot) = false := by
  intro front
  unfold front
  split
  · rfl
  · rename_i hinside
    rw [isTernary_asArguments, isNot_asArguments]
    exact Bool.eq_false_iff.mpr hinside

theorem lexemes_asArguments (h : expr.IsWritten localTypes)
    (hopen : (expr.lexemes localTypes).head? = some (.op '(')) :
    (asArguments receiver name expr).lexemes localTypes
      = (property receiver name).lexemes localTypes ++ expr.lexemes localTypes := by
  induction expr with
  | absent => cases hopen
  | args arguments _ => exact absurd h.node nofun
  | condition inner _ => exact absurd h.node nofun
  | const value =>
    cases value with
    | bool value => cases value <;> cases hopen
    | real value => cases value <;> cases hopen
    | _ => cases hopen
  | var name => cases hopen
  | classRef type =>
    obtain ⟨first, parts, hparts, _⟩ := dotParts_of_isDottedName h.node
    rw [lexemes, TypeRef.lexemes, dottedLexemes, hparts] at hopen
    cases hopen
  | call inner method arguments ih _ =>
    have hfront := lexemes_front (ih (EveryNode.call_iff.mp h).2.1) (head?_of_append (by decide) hopen)
    rw [asArguments, lexemes_call, isReceiver_front, parenthesizedLexemes_false, hfront, lexemes_call,
      List.append_assoc]
  | property inner member ih =>
    have hfront := lexemes_front (ih (EveryNode.property_iff.mp h).2) (head?_of_append (by decide) hopen)
    rw [asArguments, lexemes_property, isReceiver_front, parenthesizedLexemes_false, hfront,
      lexemes_property inner, List.append_assoc]
  | not operand _ => cases hopen
  | ternary test whenTrue whenFalse ih _ _ =>
    have hfront := lexemes_front (ih (EveryNode.ternary_iff.mp h).2.1) (head?_of_append (by decide) hopen)
    rw [asArguments, lexemes_ternary, isTernary_front, parenthesizedLexemes_false, hfront, lexemes_ternary,
      List.append_assoc]

theorem isWritten_asArguments (hmember : (property receiver name).IsWritten localTypes)
    (h : expr.IsWritten localTypes) : (asArguments receiver name expr).IsWritten localTypes := by
  have hcall : ∀ {inner : Expr}, inner.IsWritten localTypes →
      (call receiver name [inner]).IsWritten localTypes := fun hinner =>
    EveryNode.call_iff.mpr
      ⟨hmember.node, (EveryNode.property_iff.mp hmember).2, List.forall_mem_singleton.mpr hinner⟩
  induction expr with
  | call inner method arguments ih _ =>
    obtain ⟨hnode, hinner, harguments⟩ := EveryNode.call_iff.mp h
    refine EveryNode.call_iff.mpr ⟨hnode, ?_, harguments⟩
    split
    · exact hcall hinner
    · exact ih hinner
  | property inner member ih =>
    obtain ⟨hnode, hinner⟩ := EveryNode.property_iff.mp h
    refine EveryNode.property_iff.mpr ⟨hnode, ?_⟩
    split
    · exact hcall hinner
    · exact ih hinner
  | ternary test whenTrue whenFalse ih _ _ =>
    obtain ⟨hnode, htest, hbranches⟩ := EveryNode.ternary_iff.mp h
    refine EveryNode.ternary_iff.mpr ⟨hnode, ?_, hbranches⟩
    split
    · exact hcall htest
    · exact ih htest
  | _ => exact h

/-! ### The whole -/

/-- The negation of an expression behind a sign that is written without parentheses: it is the test that is negated. -/
def negated : Expr → Expr
  | ternary test whenTrue whenFalse => ternary (not test) whenTrue whenFalse
  | other => not other

theorem lexemes_negated (expr : Expr) :
    expr.negated.lexemes localTypes = .op '!' :: expr.lexemes localTypes := by
  cases expr with
  | ternary test whenTrue whenFalse =>
    rw [negated, lexemes_ternary, lexemes_ternary, lexemes]
    rfl
  | _ => rfl

theorem isWritten_negated (h : expr.IsWritten localTypes) : expr.negated.IsWritten localTypes := by
  cases expr with
  | ternary test whenTrue whenFalse =>
    obtain ⟨_, htest, hbranches⟩ := EveryNode.ternary_iff.mp h
    exact EveryNode.ternary_iff.mpr ⟨rfl, EveryNode.not_iff.mpr ⟨rfl, htest⟩, hbranches⟩
  | _ => exact EveryNode.not_iff.mpr ⟨rfl, h⟩

theorem endsLike_negated (expr : Expr) : EndsLike (expr.negated.reread localTypes) (expr.reread localTypes) := by
  have hnot : expr.isTernary = false → EndsLike (not (expr.reread localTypes)) (expr.reread localTypes) := by
    intro hternary
    rw [EndsLike, endsInMember, endsInVariable, isTernary_reread, hternary]
    exact ⟨Bool.true_and _, Bool.true_and _⟩
  cases expr with
  | ternary test whenTrue whenFalse => exact ⟨rfl, rfl⟩
  | _ => exact hnot rfl

/-- The expression that an expression and the one behind it are read as, if the first ends in a member and the second starts with a parenthesis. -/
def continuedBy (localTypes : List String) (first second : Expr) : Expr :=
  match first with
  | property receiver name => asArguments receiver name second
  | classRef type =>
    match (classRef type).reread localTypes with
    | property receiver name => asArguments receiver name second
    | other => other
  | not operand => (operand.continuedBy localTypes second).negated
  | ternary test whenTrue whenFalse => ternary test whenTrue (whenFalse.continuedBy localTypes second)
  | other => other

theorem lexemes_continuedBy (hfirst : first.IsWritten localTypes)
    (hend : (first.reread localTypes).endsInMember = true) (hsecond : second.IsWritten localTypes)
    (hopen : (second.lexemes localTypes).head? = some (.op '(')) :
    (first.continuedBy localTypes second).lexemes localTypes
      = first.lexemes localTypes ++ second.lexemes localTypes := by
  induction first with
  | property receiver name _ => exact lexemes_asArguments hsecond hopen
  | classRef type =>
    obtain ⟨receiver, name, hmember⟩ := exists_reread_classRef_eq hend
    rw [continuedBy, ← lexemes_reread_classRef hfirst, hmember]
    exact lexemes_asArguments hsecond hopen
  | not operand ih =>
    obtain ⟨hternary, hoperand⟩ := Bool.and_eq_true_iff.mp hend
    rw [isTernary_reread, Bool.not_eq_true'] at hternary
    rw [continuedBy, lexemes_negated, ih (EveryNode.not_iff.mp hfirst).2 hoperand, lexemes, hternary]
    rfl
  | ternary test whenTrue whenFalse _ _ ih =>
    rw [continuedBy, lexemes_ternary, lexemes_ternary, ih (EveryNode.ternary_iff.mp hfirst).2.2.2 hend,
      List.append_assoc, List.cons_append, List.append_assoc, List.cons_append]
  | const value => exact absurd hend (endsInMember_ofScalar value)
  | _ => cases hend

theorem isWritten_continuedBy (hfirst : first.IsWritten localTypes) (hsecond : second.IsWritten localTypes) :
    (first.continuedBy localTypes second).IsWritten localTypes := by
  induction first with
  | property receiver name _ => exact isWritten_asArguments hfirst hsecond
  | classRef type =>
    have hwritten := isWritten_reread_classRef hfirst
    rw [continuedBy]
    split
    · rename_i receiver name hmember
      rw [hmember] at hwritten
      exact isWritten_asArguments hwritten hsecond
    · exact hwritten
  | not operand ih => exact isWritten_negated (ih (EveryNode.not_iff.mp hfirst).2)
  | ternary test whenTrue whenFalse _ _ ih =>
    obtain ⟨_, htest, htrue, hfalse⟩ := EveryNode.ternary_iff.mp hfirst
    exact EveryNode.ternary_iff.mpr ⟨rfl, htest, htrue, ih hfalse⟩
  | _ => exact hfirst

theorem endsLike_continuedBy (hend : (first.reread localTypes).endsInMember = true) :
    EndsLike ((first.continuedBy localTypes second).reread localTypes) (second.reread localTypes) := by
  induction first with
  | property receiver name _ => exact endsLike_asArguments second
  | classRef type =>
    obtain ⟨receiver, name, hmember⟩ := exists_reread_classRef_eq hend
    rw [continuedBy, hmember]
    exact endsLike_asArguments second
  | not operand ih =>
    have hnegated : EndsLike ((operand.continuedBy localTypes second).negated.reread localTypes)
        ((operand.continuedBy localTypes second).reread localTypes) := endsLike_negated _
    have hoperand := ih (Bool.and_eq_true_iff.mp hend).2
    exact ⟨hnegated.1.trans hoperand.1, hnegated.2.trans hoperand.2⟩
  | ternary test whenTrue whenFalse _ _ ih => exact ih hend
  | const value => exact absurd hend (endsInMember_ofScalar value)
  | _ => cases hend

/-! ### No receiver -/

/-- A variable in front of a parenthesis is not read. -/
theorem refuses_leaf {lexeme : Lexeme} (h : Leaf lexeme (var name)) (after : List Lexeme) :
    Refuses (parseUnary lastLine) (lexeme :: .op '(' :: after) := by
  intro tokens htokens value rest hgives
  cases h with
  | name hname =>
    obtain ⟨line, _, rfl, hafter⟩ := exists_of_map_lexeme_eq_cons htokens
    obtain ⟨openLine, inside, rfl, _⟩ := exists_of_map_lexeme_eq_cons hafter
    rcases gives_parseUnary_iff.mp hgives with ⟨_, _, hsign, _⟩ | ⟨_, _, _, hprimary, _⟩
    · cases hsign
    · rcases gives_parsePrimary_iff.mp hprimary with ⟨_, _, hopen, _⟩ | ⟨_, hleaf⟩
      · cases hopen
      · obtain ⟨_, _, hcons, hfound, hcall⟩ := gives_parseLeaf_iff.mp hleaf
        cases hcons
        cases hfound with
        | name => cases hcall name rfl
        | _ => exact absurd hname (by decide)

theorem refuses_parseTernary {lexemes : List Lexeme} (h : Refuses (parseUnary lastLine) lexemes) :
    Refuses (parseTernary lastLine) lexemes := by
  intro tokens htokens value rest hgives
  rcases gives_parseTernary_iff.mp hgives with ⟨hunary, _⟩ | ⟨_, _, _, _, _, _, _, hunary, _⟩
  · exact h tokens htokens _ _ hunary
  · exact h tokens htokens _ _ hunary

theorem exists_ofScalar_eq {value : Scalar} (h : (ofScalar value).endsInVariable = true) :
    ∃ name, ofScalar value = var name := by
  cases value with
  | real value =>
    cases value with
    | finite negative significand exponent => cases h
    | _ => exact ⟨_, rfl⟩
  | _ => cases h

theorem lexemes_classRef_eq {type : TypeRef} (h : (classRef type).IsWritten localTypes)
    (hend : ((classRef type).reread localTypes).endsInVariable = true) :
    ∃ name, isName name = true ∧ (classRef type).lexemes localTypes = [.word name] := by
  obtain ⟨first, parts, hparts, hfirst, _⟩ := dotParts_of_isDottedName h.node
  rw [reread, hparts] at hend
  rcases eq_nil_or_ofParts_eq first parts with rfl | ⟨receiver, name, hmember⟩
  · refine ⟨first, hfirst, ?_⟩
    rw [lexemes, TypeRef.lexemes, dottedLexemes, hparts]
    rfl
  · rw [hmember] at hend
    cases hend

theorem refuses_lexemes (h : expr.IsWritten localTypes)
    (hend : (expr.reread localTypes).endsInVariable = true) (after : List Lexeme) :
    Refuses (parseTernary lastLine) (expr.lexemes localTypes ++ .op '(' :: after) ∧
      (expr.isTernary = false →
        Refuses (parseUnary lastLine) (expr.lexemes localTypes ++ .op '(' :: after)) := by
  have hboth : ∀ {inside : Bool} {lexemes : List Lexeme}, Refuses (parseUnary lastLine) lexemes →
      Refuses (parseTernary lastLine) lexemes ∧
        (inside = false → Refuses (parseUnary lastLine) lexemes) :=
    fun hunary => ⟨refuses_parseTernary hunary, fun _ => hunary⟩
  induction expr with
  | var name => exact hboth (refuses_leaf (.name (isKeyword_of_isName h.node)) after)
  | const value =>
    obtain ⟨name, hname⟩ := exists_ofScalar_eq hend
    exact hboth (refuses_leaf (hname ▸ leaf_of_scalar h.node) after)
  | classRef type =>
    obtain ⟨name, hname, hlexemes⟩ := lexemes_classRef_eq h hend
    rw [hlexemes]
    exact hboth (refuses_leaf (.name (isKeyword_of_isName hname)) after)
  | not operand ih =>
    obtain ⟨hternary, hoperand⟩ := Bool.and_eq_true_iff.mp hend
    rw [isTernary_reread, Bool.not_eq_true'] at hternary
    have hrefuses := (ih (EveryNode.not_iff.mp h).2 hoperand).2 hternary
    refine hboth fun tokens htokens value rest hgives => ?_
    rw [lexemes, hternary] at htokens
    obtain ⟨line, inside, rfl, hinside⟩ := exists_of_map_lexeme_eq_cons htokens
    rcases gives_parseUnary_iff.mp hgives with ⟨_, _, hcons, _, hnegated, _⟩ | ⟨hnone, _⟩
    · cases hcons
      exact hrefuses _ hinside _ _ hnegated
    · cases hnone
  | ternary test whenTrue whenFalse _ _ ih =>
    obtain ⟨_, htest, htrue, hfalse⟩ := EveryNode.ternary_iff.mp h
    refine ⟨fun tokens htokens value rest hgives => ?_, fun hternary => Bool.noConfusion hternary⟩
    rw [lexemes_ternary, List.append_assoc, List.cons_append, List.append_assoc, List.cons_append] at htokens
    obtain ⟨_, hreadTest, hmark⟩ := (derives_operand (derives_lexemes htest)).isReadFrom lastLine _
      (notNext_symbol (by decide) _) (fun _ => notNext_symbol (by decide) _) tokens htokens
    obtain ⟨_, afterMark, rfl, hafterMark⟩ := exists_of_map_lexeme_eq_cons hmark
    obtain ⟨_, hreadTrue, hcolon⟩ := (derives_operand (derives_lexemes htrue)).unary.isReadFrom lastLine _
      (ends_symbol (by decide) (by decide) (by decide) _ _) afterMark hafterMark
    obtain ⟨_, afterColon, rfl, hafterColon⟩ := exists_of_map_lexeme_eq_cons hcolon
    rcases gives_parseTernary_iff.mp hgives with ⟨hunary, hnone⟩ | ⟨_, _, _, _, _, _, _, hunary, hbranch,
      hlast, _⟩
    · obtain ⟨_, rfl⟩ := hreadTest.unique hunary
      cases hnone
    · obtain ⟨_, hsame⟩ := hreadTest.unique hunary
      cases hsame
      obtain ⟨_, hsame⟩ := hreadTrue.unique hbranch
      cases hsame
      exact (ih hfalse hend).1 _ hafterColon _ _ hlast
  | _ => cases hend

end Expr

end GuardedLogging
