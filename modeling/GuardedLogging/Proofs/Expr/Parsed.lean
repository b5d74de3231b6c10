import GuardedLogging.Proofs.Expr.Writing
import GuardedLogging.Proofs.Guard.Nodes

/-!
# Expressions that come from a source

An expression that was parsed refers to no type by itself, and everything in it can be written. So it is read back as it is. Guarding adds nothing that could not be written.
-/

namespace GuardedLogging

namespace Expr

/-- Whether the node may come from a source. -/
def isParsedNode : Expr → Bool
  | classRef _ => false
  | node => node.isWritten []

/-- The expression may come from a source. -/
abbrev IsParsed : Expr → Prop := EveryNode (fun node => node.isParsedNode = true)

theorem isWritten_of_isParsedNode (localTypes : List String) {node : Expr}
    (h : node.isParsedNode = true) : node.isWritten localTypes = true := by
  cases node with
  | classRef type => cases h
  | _ => exact h

/-- The expressions of a phrase. -/
def Phrase.exprs : Phrase → List Expr
  | ternary expr | unary expr | suffixed expr | primary expr => [expr]
  | list exprs => exprs

theorem isWritten_numberValue (text : List Char) : (Literal.numberValue text).isWritten = true := by
  unfold Literal.numberValue
  simp only
  split
  · simp [Scalar.isWritten]
  · rfl

theorem Leaf.isParsed {lexeme : Lexeme} {expr : Expr} (h : Leaf lexeme expr)
    (hwords : AreWords [lexeme]) : expr.IsParsed := by
  cases h with
  | number text => exact EveryNode.const_iff.mpr (isWritten_numberValue text.toList)
  | name hname =>
    refine EveryNode.var_iff.mpr ?_
    exact hwords.isName_head hname
  | _ => exact EveryNode.const_iff.mpr rfl

theorem Derives.isParsed {phrase : Phrase} {lexemes : List Lexeme} (h : Derives phrase lexemes)
    (hwords : AreWords lexemes) : ∀ expr ∈ phrase.exprs, expr.IsParsed := by
  induction h with
  | unary _ ih => exact ih hwords
  | suffixed _ ih => exact ih hwords
  | primary _ ih => exact ih hwords
  | single _ ih => exact ih hwords
  | leaf hleaf =>
    refine List.forall_mem_singleton.mpr (hleaf.isParsed hwords)
  | ternary _ _ _ ihTest ihTrue ihFalse =>
    obtain ⟨htest, hrest⟩ := AreWords.append_iff.mp hwords
    obtain ⟨htrue, hfalse⟩ := AreWords.append_iff.mp hrest.tail
    refine List.forall_mem_singleton.mpr (EveryNode.ternary_iff.mpr ⟨rfl, ?_, ?_, ?_⟩)
    · exact List.forall_mem_singleton.mp (ihTest htest)
    · exact List.forall_mem_singleton.mp (ihTrue htrue)
    · exact List.forall_mem_singleton.mp (ihFalse hfalse.tail)
  | not _ ih =>
    exact List.forall_mem_singleton.mpr
      (EveryNode.not_iff.mpr ⟨rfl, List.forall_mem_singleton.mp (ih hwords.tail)⟩)
  | property name _ ih =>
    obtain ⟨hreceiver, hname⟩ := AreWords.append_iff.mp hwords
    exact List.forall_mem_singleton.mpr (EveryNode.property_iff.mpr
      ⟨hname.tail.head, List.forall_mem_singleton.mp (ih hreceiver)⟩)
  | callEmpty name _ ih =>
    obtain ⟨hreceiver, hname⟩ := AreWords.append_iff.mp hwords
    exact List.forall_mem_singleton.mpr (EveryNode.call_iff.mpr
      ⟨hname.tail.head, List.forall_mem_singleton.mp (ih hreceiver), nofun⟩)
  | call name _ _ ih ihArguments =>
    obtain ⟨hreceiver, hname⟩ := AreWords.append_iff.mp hwords
    obtain ⟨harguments, _⟩ := AreWords.append_iff.mp hname.tail.tail.tail
    exact List.forall_mem_singleton.mpr (EveryNode.call_iff.mpr
      ⟨hname.tail.head, List.forall_mem_singleton.mp (ih hreceiver), ihArguments harguments⟩)
  | parentheses _ ih => exact ih (AreWords.append_iff.mp hwords.tail).1
  | cons _ _ ih ihOthers =>
    obtain ⟨hfirst, hothers⟩ := AreWords.append_iff.mp hwords
    exact List.forall_mem_cons.mpr
      ⟨List.forall_mem_singleton.mp (ih hfirst), ihOthers hothers.tail⟩

theorem leaves_of_parseTernary {lastLine : Nat} {tokens rest : List Token} {expr : Expr}
    (h : Gives (parseTernary lastLine tokens) expr rest) : Leaves tokens rest := by
  obtain ⟨lexemes, _, hlexemes⟩ := (readsDerived lastLine tokens).ternary h
  exact .of_append hlexemes

theorem isParsed_of_gives {lastLine : Nat} {tokens rest : List Token} {expr : Expr}
    (hwords : AreWords (tokens.map Token.lexeme))
    (h : Gives (parseTernary lastLine tokens) expr rest) : expr.IsParsed := by
  obtain ⟨lexemes, hderives, hlexemes⟩ := (readsDerived lastLine tokens).ternary h
  rw [hlexemes] at hwords
  obtain ⟨hfront, _⟩ := AreWords.append_iff.mp hwords
  exact List.forall_mem_singleton.mp (hderives.isParsed hfront)

/-! ### Reading a written expression back -/

theorem reads_lexemes {lastLine : Nat} {localTypes : List String} {expr : Expr}
    (h : expr.IsWritten localTypes) {after : List Lexeme}
    (hafter : Ends (expr.reread localTypes).endsInName after) :
    Reads (parseTernary lastLine) (expr.lexemes localTypes ++ after) (expr.reread localTypes) after :=
  (derives_ternary (derives_lexemes h)).isReadFrom lastLine after hafter

theorem asRead_of_isParsed (localTypes : List String) {expr : Expr} (h : expr.IsParsed) :
    expr.asRead localTypes = expr := by
  induction expr with
  | absent => rfl
  | const value => rfl
  | var name => rfl
  | classRef type => exact absurd h.node nofun
  | args arguments _ => exact absurd h.node nofun
  | condition inner _ => exact absurd h.node nofun
  | call receiver method arguments ihReceiver ihArguments =>
    obtain ⟨_, hreceiver, harguments⟩ := EveryNode.call_iff.mp h
    have hall : arguments.map (asRead localTypes) = arguments :=
      (List.map_congr_left fun argument hargument =>
        ihArguments argument hargument (harguments argument hargument)).trans (List.map_id arguments)
    rw [asRead, asReadAll_eq_map, ihReceiver hreceiver, hall]
  | property receiver name ih => rw [asRead, ih (EveryNode.property_iff.mp h).2]
  | not operand ih => rw [asRead, ih (EveryNode.not_iff.mp h).2]
  | ternary test whenTrue whenFalse ihTest ihTrue ihFalse =>
    obtain ⟨_, htest, htrue, hfalse⟩ := EveryNode.ternary_iff.mp h
    rw [asRead, ihTest htest, ihTrue htrue, ihFalse hfalse]

end Expr

/-! ### Guarding -/

namespace Guarding

open GuardedLogging.Expr

variable {guarding : Guarding} {localTypes : List String}

theorem isWord_check (level : Level) : isWord level.check = true := by
  cases level <;> decide

/-- A source can say guards. -/
theorem allowsGuards_isWritten : AllowsGuards fun node => node.isWritten localTypes = true where
  null := rfl
  check := fun _ level => isWord_check level
  ternary := fun _ _ _ => rfl
  args := fun _ _ => id
  call := fun _ _ _ _ _ => id
  property := fun _ _ _ => id
  condition := fun _ _ => id
  not := fun _ _ => id

theorem isWritten_guard {expr : Expr} (h : expr.IsWritten localTypes) :
    (guarding.guard expr).IsWritten localTypes :=
  everyNode_guard allowsGuards_isWritten h

end Guarding

end GuardedLogging
