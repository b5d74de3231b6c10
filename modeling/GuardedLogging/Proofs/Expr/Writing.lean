import GuardedLogging.Expr.Source
import GuardedLogging.Proofs.Expr.Grammar
import GuardedLogging.Proofs.Expr.Nodes
import GuardedLogging.Proofs.Token.DottedName

/-!
# Written expressions are read back

The text of an expression spells lexemes from which the grammar derives the expression again, up to two things that do not come back: the text of a reference to a type is a dotted name, which is read as a name with properties, and a number with a fraction is read as the number nearest to its decimal digits.
-/

namespace GuardedLogging

/-- The lexemes of a type as it is written. -/
def TypeRef.lexemes (localTypes : List String) (type : TypeRef) : List Lexeme :=
  dottedLexemes (type.toSource localTypes)

namespace Expr

/-- Whether a source can say the node, apart from what it is made of. -/
def isWritten (localTypes : List String) : Expr → Bool
  | absent | args _ | condition _ => false
  | const value => value.isWritten
  | var name => isName name
  | classRef type => isDottedName (type.toSource localTypes)
  | call _ name _ | property _ name => isWord name
  | not _ | ternary .. => true

/-- A source can say the expression. -/
abbrev IsWritten (localTypes : List String) : Expr → Prop :=
  EveryNode (fun node => node.isWritten localTypes = true)

def parenthesizedLexemes (inside : Bool) (lexemes : List Lexeme) : List Lexeme :=
  if inside then .op '(' :: (lexemes ++ [.op ')']) else lexemes

mutual

/-- The lexemes of an expression as it is written. -/
def lexemes (localTypes : List String) : Expr → List Lexeme
  | absent => []
  | const value => [value.lexeme]
  | var name => [.word name]
  | classRef type => type.lexemes localTypes
  | args arguments => [.op ','].intercalate (lexemesAll localTypes arguments)
  | call receiver method arguments =>
    parenthesizedLexemes (receiver.isTernary || receiver.isNot) (receiver.lexemes localTypes)
      ++ .op '.' :: .word method :: .op '('
        :: ([.op ','].intercalate (lexemesAll localTypes arguments) ++ [.op ')'])
  | property receiver name =>
    parenthesizedLexemes (receiver.isTernary || receiver.isNot) (receiver.lexemes localTypes)
      ++ [.op '.', .word name]
  | condition inner => inner.lexemes localTypes
  | not operand => .op '!' :: parenthesizedLexemes operand.isTernary (operand.lexemes localTypes)
  | ternary test whenTrue whenFalse =>
    parenthesizedLexemes test.isTernary (test.lexemes localTypes)
      ++ .op '?' :: (parenthesizedLexemes whenTrue.isTernary (whenTrue.lexemes localTypes)
        ++ .op ':' :: whenFalse.lexemes localTypes)

def lexemesAll (localTypes : List String) : List Expr → List (List Lexeme)
  | [] => []
  | expr :: rest => expr.lexemes localTypes :: lexemesAll localTypes rest

end

/-- What a name with properties is read as. -/
def ofParts : List String → Expr
  | [] => absent
  | first :: parts => parts.foldl property (var first)

/-- What the lexeme of a scalar is read as. What is no finite number is written as a word and read as a name. -/
def ofScalar : Scalar → Expr
  | .real (.finite negative significand exponent) =>
    const (Literal.numberValue (Scalar.realLayout.render (.finite negative significand exponent)).toList)
  | .real value => var (Scalar.realLayout.render value)
  | value => const value

mutual

/-- The expression that the written expression is read as. -/
def reread (localTypes : List String) : Expr → Expr
  | classRef type => ofParts (dotParts (type.toSource localTypes))
  | args arguments => args (rereadAll localTypes arguments)
  | call receiver method arguments =>
    call (receiver.reread localTypes) method (rereadAll localTypes arguments)
  | property receiver name => property (receiver.reread localTypes) name
  | condition inner => condition (inner.reread localTypes)
  | not operand => not (operand.reread localTypes)
  | ternary test whenTrue whenFalse =>
    ternary (test.reread localTypes) (whenTrue.reread localTypes) (whenFalse.reread localTypes)
  | absent => absent
  | const value => ofScalar value
  | var name => var name

def rereadAll (localTypes : List String) : List Expr → List Expr
  | [] => []
  | expr :: rest => expr.reread localTypes :: rereadAll localTypes rest

end

mutual

/-- The expression that the written expression is read as if no number changes. -/
def asRead (localTypes : List String) : Expr → Expr
  | classRef type => ofParts (dotParts (type.toSource localTypes))
  | args arguments => args (asReadAll localTypes arguments)
  | call receiver method arguments =>
    call (receiver.asRead localTypes) method (asReadAll localTypes arguments)
  | property receiver name => property (receiver.asRead localTypes) name
  | condition inner => condition (inner.asRead localTypes)
  | not operand => not (operand.asRead localTypes)
  | ternary test whenTrue whenFalse =>
    ternary (test.asRead localTypes) (whenTrue.asRead localTypes) (whenFalse.asRead localTypes)
  | absent => absent
  | const value => const value
  | var name => var name

def asReadAll (localTypes : List String) : List Expr → List Expr
  | [] => []
  | expr :: rest => expr.asRead localTypes :: asReadAll localTypes rest

end

variable {localTypes : List String}

theorem parenthesizedLexemes_false (lexemes : List Lexeme) : parenthesizedLexemes false lexemes = lexemes := rfl

theorem lexemes_call (receiver : Expr) (method : String) (arguments : List Expr) :
    (call receiver method arguments).lexemes localTypes
      = parenthesizedLexemes (receiver.isTernary || receiver.isNot) (receiver.lexemes localTypes)
        ++ .op '.' :: .word method :: .op '('
          :: ([.op ','].intercalate (lexemesAll localTypes arguments) ++ [.op ')']) := by
  rw [lexemes]

theorem lexemes_property (receiver : Expr) (name : String) :
    (property receiver name).lexemes localTypes
      = parenthesizedLexemes (receiver.isTernary || receiver.isNot) (receiver.lexemes localTypes)
        ++ [.op '.', .word name] := by
  rw [lexemes]

theorem lexemes_ternary (test whenTrue whenFalse : Expr) :
    (ternary test whenTrue whenFalse).lexemes localTypes
      = parenthesizedLexemes test.isTernary (test.lexemes localTypes)
        ++ .op '?' :: (parenthesizedLexemes whenTrue.isTernary (whenTrue.lexemes localTypes)
          ++ .op ':' :: whenFalse.lexemes localTypes) := by
  rw [lexemes]

theorem toSources_eq_map (exprs : List Expr) :
    toSources localTypes exprs = exprs.map (toSource localTypes) := by
  induction exprs with
  | nil => rfl
  | cons expr rest ih => rw [toSources, ih, List.map_cons]

theorem lexemesAll_eq_map (exprs : List Expr) :
    lexemesAll localTypes exprs = exprs.map (lexemes localTypes) := by
  induction exprs with
  | nil => rfl
  | cons expr rest ih => rw [lexemesAll, ih, List.map_cons]

theorem rereadAll_eq_map (exprs : List Expr) :
    rereadAll localTypes exprs = exprs.map (reread localTypes) := by
  induction exprs with
  | nil => rfl
  | cons expr rest ih => rw [rereadAll, ih, List.map_cons]

theorem asReadAll_eq_map (exprs : List Expr) :
    asReadAll localTypes exprs = exprs.map (asRead localTypes) := by
  induction exprs with
  | nil => rfl
  | cons expr rest ih => rw [asReadAll, ih, List.map_cons]

/-- Whether the node is a number with a fraction. -/
def isReal : Expr → Bool
  | const value => value.isReal
  | _ => false

/-- A source can say the node, and says it so that no number is changed. -/
def IsExactNode (localTypes : List String) (node : Expr) : Prop :=
  node.isWritten localTypes = true ∧ node.isReal = false

/-- A source can say the expression, and says it so that no number is changed. -/
abbrev IsExact (localTypes : List String) : Expr → Prop := EveryNode (IsExactNode localTypes)

theorem IsExact.isWritten {expr : Expr} (h : expr.IsExact localTypes) : expr.IsWritten localTypes :=
  h.mono fun _ => And.left

theorem ofScalar_of_not_isReal {value : Scalar} (h : value.isReal = false) :
    ofScalar value = const value := by
  cases value with
  | real value => cases h
  | _ => rfl

theorem reread_eq_asRead {expr : Expr} (h : expr.IsExact localTypes) :
    expr.reread localTypes = expr.asRead localTypes := by
  induction expr with
  | absent => rfl
  | var name => rfl
  | classRef type => rfl
  | args arguments _ => exact absurd h.node.1 nofun
  | condition inner _ => exact absurd h.node.1 nofun
  | const value => exact ofScalar_of_not_isReal h.node.2
  | call receiver method arguments ihReceiver ihArguments =>
    obtain ⟨_, hreceiver, harguments⟩ := EveryNode.call_iff.mp h
    have hall : arguments.map (reread localTypes) = arguments.map (asRead localTypes) :=
      List.map_congr_left fun argument hargument =>
        ihArguments argument hargument (harguments argument hargument)
    rw [reread, asRead, rereadAll_eq_map, asReadAll_eq_map, ihReceiver hreceiver, hall]
  | property receiver name ih => rw [reread, asRead, ih (EveryNode.property_iff.mp h).2]
  | not operand ih => rw [reread, asRead, ih (EveryNode.not_iff.mp h).2]
  | ternary test whenTrue whenFalse ihTest ihTrue ihFalse =>
    obtain ⟨_, htest, htrue, hfalse⟩ := EveryNode.ternary_iff.mp h
    rw [reread, asRead, ihTest htest, ihTrue htrue, ihFalse hfalse]

/-! ### The text spells the lexemes -/

/-- Whether the node marks a condition. -/
def isMarker : Expr → Bool
  | condition _ => true
  | _ => false

section Spelling

variable {cut : Scan.Cutting}

/-- A source can say the node, and its constant is spelled. -/
def IsSpelledNode (cut : Scan.Cutting) (localTypes : List String) (node : Expr) : Prop :=
  node.isWritten localTypes = true ∧ ∀ value, node = const value → value.IsSpelled cut

/-- A source can say the expression, and its constants are spelled. -/
abbrev IsSpelled (cut : Scan.Cutting) (localTypes : List String) : Expr → Prop :=
  EveryNode (IsSpelledNode cut localTypes)

theorem IsExactNode.isSpelledNode {node : Expr} (h : IsExactNode localTypes node) :
    IsSpelledNode cut localTypes node := by
  refine ⟨h.1, ?_⟩
  rintro value rfl
  exact Scalar.isSpelled_of_not_isReal h.1 h.2

theorem IsExact.isSpelled {expr : Expr} (h : expr.IsExact localTypes) :
    expr.IsSpelled cut localTypes :=
  h.mono fun _ => IsExactNode.isSpelledNode

theorem spells_parenthesized {text : String} {lexemes : List Lexeme} (h : Spells cut text lexemes)
    (inside : Bool) : Spells cut (parenthesized inside text) (parenthesizedLexemes inside lexemes) := by
  cases inside with
  | false => exact h
  | true =>
    intro rest next _ tail
    simp only [parenthesized, parenthesizedLexemes, if_true, String.toList_append,
      String.reduceToList, List.append_assoc, List.cons_append, List.nil_append]
    exact Scan.cut_symbol (by decide) (h _ _ (Scan.breaks_symbol (by decide) (by decide) _)
      (Scan.cut_symbol (by decide) tail))

/-- Markers of conditions leave no trace, neither in the text nor in the lexemes. -/
theorem spells_toSource_of_markers {expr : Expr}
    (h : EveryNode (fun node => node.isMarker = true ∨ IsSpelledNode cut localTypes node) expr) :
    Spells cut (expr.toSource localTypes) (expr.lexemes localTypes) := by
  induction expr with
  | absent => exact absurd (h.node.resolve_left nofun).1 nofun
  | args arguments _ => exact absurd (h.node.resolve_left nofun).1 nofun
  | condition inner ih => exact ih (EveryNode.condition_iff.mp h).2
  | const value => exact (h.node.resolve_left nofun).2 value rfl
  | var name =>
    intro rest next hbreaks tail
    rw [toSource, lexemes]
    exact Scan.cut_word (isWord_of_isName (h.node.resolve_left nofun).1) hbreaks tail
  | classRef type => exact spells_dottedName (h.node.resolve_left nofun).1
  | call receiver method arguments ihReceiver ihArguments =>
    intro rest next hbreaks tail
    have hmethod : isWord method = true := (h.node.resolve_left nofun).1
    obtain ⟨_, hwritten, hall⟩ := EveryNode.call_iff.mp h
    have hreceiver := spells_parenthesized (ihReceiver hwritten) (receiver.isTernary || receiver.isNot)
    have harguments : Spells cut (", ".intercalate (arguments.map (toSource localTypes)))
        ([.op ','].intercalate (arguments.map (lexemes localTypes))) :=
      spells_intercalate fun argument hargument =>
        ihArguments argument hargument (hall argument hargument)
    rw [toSource, lexemes, toSources_eq_map, lexemesAll_eq_map]
    simp only [String.toList_append, String.reduceToList, List.append_assoc, List.cons_append,
      List.nil_append]
    exact hreceiver _ _ (breaks_dot hmethod _) (Scan.cut_symbol (by decide)
      (Scan.cut_word hmethod (Scan.breaks_symbol (by decide) (by decide) _) (Scan.cut_symbol (by decide)
        (harguments _ _ (Scan.breaks_symbol (by decide) (by decide) _)
          (Scan.cut_symbol (by decide) tail)))))
  | property receiver name ih =>
    intro rest next hbreaks tail
    have hname : isWord name = true := (h.node.resolve_left nofun).1
    have hwritten := (EveryNode.property_iff.mp h).2
    have hreceiver := spells_parenthesized (ih hwritten) (receiver.isTernary || receiver.isNot)
    rw [toSource, lexemes]
    simp only [String.toList_append, String.reduceToList, List.append_assoc, List.cons_append,
      List.nil_append]
    exact hreceiver _ _ (breaks_dot hname _) (Scan.cut_symbol (by decide)
      (Scan.cut_word hname hbreaks tail))
  | not operand ih =>
    intro rest next hbreaks tail
    have hoperand := spells_parenthesized (ih (EveryNode.not_iff.mp h).2) operand.isTernary
    rw [toSource, lexemes]
    simp only [String.toList_append, String.reduceToList, List.cons_append,
      List.nil_append]
    exact Scan.cut_symbol (by decide) (hoperand _ _ hbreaks tail)
  | ternary test whenTrue whenFalse ihTest ihTrue ihFalse =>
    intro rest next hbreaks tail
    obtain ⟨_, htest, htrue, hfalse⟩ := EveryNode.ternary_iff.mp h
    have htestText := spells_parenthesized (ihTest htest) test.isTernary
    have htrueText := spells_parenthesized (ihTrue htrue) whenTrue.isTernary
    rw [toSource, lexemes]
    simp only [String.toList_append, String.reduceToList, List.append_assoc, List.cons_append,
      List.nil_append]
    exact htestText _ _ (Scan.breaks_blank (by decide) _) (Scan.cut_blank (by decide)
      (Scan.cut_symbol (by decide) (Scan.cut_blank (by decide)
        (htrueText _ _ (Scan.breaks_blank (by decide) _) (Scan.cut_blank (by decide)
          (Scan.cut_symbol (by decide) (Scan.cut_blank (by decide)
            (ihFalse hfalse _ _ hbreaks tail))))))))

theorem spells_toSource {expr : Expr} (h : expr.IsSpelled cut localTypes) :
    Spells cut (expr.toSource localTypes) (expr.lexemes localTypes) :=
  spells_toSource_of_markers (h.mono fun _ => .inr)

end Spelling

theorem head?_parenthesized {text : String} {lexemes : List Lexeme} {inside : Bool}
    (h : lexemes.head? = some (.op '(') → text.toList.head? = some '(')
    (hopen : (parenthesizedLexemes inside lexemes).head? = some (.op '(')) :
    (parenthesized inside text).toList.head? = some '(' := by
  cases inside with
  | false => exact h hopen
  | true => simp [parenthesized]

theorem head?_of_append {lexemes after : List Lexeme} {symbol : Char} (hsymbol : symbol ≠ '(')
    (hopen : (lexemes ++ .op symbol :: after).head? = some (.op '(')) :
    lexemes.head? = some (.op '(') := by
  rw [List.head?_append, Option.or_eq_some_iff] at hopen
  rcases hopen with hopen | ⟨_, hopen⟩
  · exact hopen
  · exact absurd (Lexeme.op.inj (Option.some.inj hopen)) hsymbol

theorem head?_append_of {text rest : String} {lexemes after : List Lexeme} {symbol : Char}
    (h : lexemes.head? = some (.op '(') → text.toList.head? = some '(') (hsymbol : symbol ≠ '(')
    (hopen : (lexemes ++ .op symbol :: after).head? = some (.op '(')) :
    (text ++ rest).toList.head? = some '(' := by
  rw [String.toList_append, List.head?_append, h (head?_of_append hsymbol hopen), Option.some_or]

/-- An expression whose first lexeme is a parenthesis is written with a parenthesis in front. -/
theorem head?_toSource {expr : Expr} (h : expr.IsWritten localTypes)
    (hopen : (expr.lexemes localTypes).head? = some (.op '(')) :
    (expr.toSource localTypes).toList.head? = some '(' := by
  induction expr with
  | absent => exact absurd h.node nofun
  | args arguments _ => exact absurd h.node nofun
  | condition inner _ => exact absurd h.node nofun
  | const value =>
    cases value with
    | bool value => cases value <;> cases hopen
    | real value => cases value <;> cases hopen
    | _ => cases hopen
  | var name => cases hopen
  | classRef type =>
    obtain ⟨first, parts, hparts, _⟩ := dotParts_of_isDottedName h.node
    rw [lexemes, TypeRef.lexemes, dottedLexemes, hparts] at hopen
    cases hopen
  | call receiver method arguments ih _ =>
    have hreceiver := ih (EveryNode.call_iff.mp h).2.1
    rw [toSource, String.append_assoc, String.append_assoc, String.append_assoc, String.append_assoc]
    rw [lexemes] at hopen
    exact head?_append_of (head?_parenthesized hreceiver) (by decide) hopen
  | property receiver name ih =>
    have hreceiver := ih (EveryNode.property_iff.mp h).2
    rw [toSource, String.append_assoc]
    rw [lexemes] at hopen
    exact head?_append_of (head?_parenthesized hreceiver) (by decide) hopen
  | not operand _ => cases hopen
  | ternary test whenTrue whenFalse ih _ _ =>
    have htest := ih (EveryNode.ternary_iff.mp h).2.1
    rw [toSource, String.append_assoc, String.append_assoc, String.append_assoc]
    rw [lexemes] at hopen
    exact head?_append_of (head?_parenthesized htest) (by decide) hopen

/-! ### The grammar derives the expression from the lexemes -/

/-- The innermost level of the grammar that the written expression is on. -/
def writtenPhrase (localTypes : List String) (expr : Expr) : Phrase :=
  if expr.isTernary then .ternary (expr.reread localTypes)
  else if expr.isNot then .unary (expr.reread localTypes)
  else .suffixed (expr.reread localTypes)

theorem derives_ternary {expr : Expr} {lexemes : List Lexeme}
    (h : Derives (expr.writtenPhrase localTypes) lexemes) :
    Derives (.ternary (expr.reread localTypes)) lexemes := by
  unfold writtenPhrase at h
  split at h
  · exact h
  · split at h
    · exact .unary h
    · exact .unary (.suffixed h)

theorem derives_operand {expr : Expr} {lexemes : List Lexeme}
    (h : Derives (expr.writtenPhrase localTypes) lexemes) :
    Derives (.unary (expr.reread localTypes)) (parenthesizedLexemes expr.isTernary lexemes) := by
  unfold writtenPhrase at h
  split at h
  · rename_i hternary
    rw [hternary]
    exact .suffixed (.primary (.parentheses h))
  · rename_i hternary
    rw [Bool.eq_false_iff.mpr hternary]
    split at h
    · exact h
    · exact .suffixed h

theorem derives_receiver {expr : Expr} {lexemes : List Lexeme}
    (h : Derives (expr.writtenPhrase localTypes) lexemes) :
    Derives (.suffixed (expr.reread localTypes))
      (parenthesizedLexemes (expr.isTernary || expr.isNot) lexemes) := by
  unfold writtenPhrase at h
  split at h
  · rename_i hternary
    rw [hternary]
    exact .primary (.parentheses h)
  · rename_i hternary
    rw [Bool.eq_false_iff.mpr hternary]
    split at h
    · rename_i hnot
      rw [hnot]
      exact .primary (.parentheses (.unary h))
    · rename_i hnot
      rw [Bool.eq_false_iff.mpr hnot]
      exact h

theorem derives_list {read : Expr → Expr} {first : Expr} {others : List Expr}
    (h : ∀ expr ∈ first :: others, Derives (.ternary (read expr)) (expr.lexemes localTypes)) :
    Derives (.list ((first :: others).map read))
      ([.op ','].intercalate ((first :: others).map (lexemes localTypes))) := by
  induction others generalizing first with
  | nil =>
    rw [List.map_singleton, List.map_singleton, List.intercalate_singleton]
    exact .single (h first List.mem_cons_self)
  | cons second others ih =>
    obtain ⟨hfirst, hothers⟩ := List.forall_mem_cons.mp h
    have hcommas : [Lexeme.op ','].intercalate ((first :: second :: others).map (lexemes localTypes))
        = first.lexemes localTypes
          ++ .op ',' :: [Lexeme.op ','].intercalate ((second :: others).map (lexemes localTypes)) := by
      rw [List.map_cons, List.map_cons, List.intercalate_cons_cons, List.append_assoc]
      rfl
    rw [hcommas]
    exact .cons hfirst (ih hothers)

theorem derives_ofParts {receiver : Expr} {lexemes : List Lexeme}
    (h : Derives (.suffixed receiver) lexemes) (parts : List String) :
    Derives (.suffixed (parts.foldl property receiver)) (lexemes ++ partLexemes parts) := by
  induction parts generalizing receiver lexemes with
  | nil => simpa [partLexemes] using h
  | cons part parts ih =>
    have hparts := ih (h.property part)
    rwa [List.append_assoc] at hparts

theorem leaf_of_scalar {value : Scalar} (h : value.isWritten = true) :
    Leaf value.lexeme (ofScalar value) := by
  cases value with
  | null => exact .nullWord
  | bool value =>
    cases value with
    | true => exact .trueWord
    | false => exact .falseWord
  | text value =>
    have hleaf := Leaf.literal (String.ofList (Literal.quote value.toList))
    rwa [String.toList_ofList, Literal.unquote_quote, String.ofList_toList] at hleaf
  | real value =>
    cases value with
    | finite negative significand exponent => exact .number _
    | infinite negative => cases negative <;> exact .name (by decide)
    | nan => exact .name (by decide)
  | int value =>
    obtain ⟨n, rfl⟩ := Int.eq_ofNat_of_zero_le (of_decide_eq_true h)
    have hshown : toString (n : Int) = String.ofList (Nat.toDigits 10 n) := Nat.toString_eq_ofList_toDigits
    have hleaf := Leaf.number (toString (n : Int))
    rwa [hshown, String.toList_ofList, numberValue_toDigits, ← hshown] at hleaf

theorem derives_lexemes {expr : Expr} (h : expr.IsWritten localTypes) :
    Derives (expr.writtenPhrase localTypes) (expr.lexemes localTypes) := by
  induction expr with
  | absent => exact absurd h.node nofun
  | args arguments _ => exact absurd h.node nofun
  | condition inner _ => exact absurd h.node nofun
  | const value => exact .primary (.leaf (leaf_of_scalar h.node))
  | var name => exact .primary (.leaf (.name (isKeyword_of_isName h.node)))
  | classRef type =>
    obtain ⟨first, parts, hparts, hfirst, _⟩ := dotParts_of_isDottedName h.node
    show Derives (.suffixed (ofParts (dotParts (type.toSource localTypes))))
      (dottedLexemes (type.toSource localTypes))
    rw [dottedLexemes, hparts]
    exact derives_ofParts (.primary (.leaf (.name (isKeyword_of_isName hfirst)))) parts
  | call receiver method arguments ihReceiver ihArguments =>
    have hreceiver := derives_receiver (ihReceiver (EveryNode.call_iff.mp h).2.1)
    show Derives (.suffixed (call (receiver.reread localTypes) method (rereadAll localTypes arguments))) _
    rw [lexemes, rereadAll_eq_map, lexemesAll_eq_map]
    cases arguments with
    | nil => exact hreceiver.callEmpty method
    | cons first others =>
      refine hreceiver.call method (derives_list fun argument hargument => ?_)
      exact derives_ternary (ihArguments argument hargument ((EveryNode.call_iff.mp h).2.2 argument hargument))
  | property receiver name ih => exact (derives_receiver (ih (EveryNode.property_iff.mp h).2)).property name
  | not operand ih => exact .not (derives_operand (ih (EveryNode.not_iff.mp h).2))
  | ternary test whenTrue whenFalse ihTest ihTrue ihFalse =>
    obtain ⟨_, htest, htrue, hfalse⟩ := EveryNode.ternary_iff.mp h
    have htrueDerives : Derives (.ternary (whenTrue.reread localTypes))
        (parenthesizedLexemes whenTrue.isTernary (whenTrue.lexemes localTypes)) :=
      .unary (derives_operand (ihTrue htrue))
    exact .ternary (derives_operand (ihTest htest)) htrueDerives (derives_ternary (ihFalse hfalse))

end Expr

end GuardedLogging
