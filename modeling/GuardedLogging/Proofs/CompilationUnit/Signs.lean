import GuardedLogging.Proofs.CompilationUnit.Units
import GuardedLogging.Proofs.Token.Numbers

/-!
# Which units can be cut

A negative number, a very small one and a very great one are written with a sign, and no piece of a source has a sign in it. Everything else in a unit that can be written is cut off as it was written. So the text of such a unit is cut into its lexemes if no number in the unit is written with a sign, and it is not cut at all otherwise, since the lexeme of every constant is among those of the unit.
-/

namespace GuardedLogging

open Scan

variable {localTypes : List String}

namespace Expr

/-- Whether the node is a number that is written with a sign. -/
def hasSign : Expr → Bool
  | const value => value.hasSign
  | _ => false

theorem IsWritten.isSpelled {cut : Cutting} {expr : Expr} (h : expr.IsWritten localTypes)
    (hsigns : EveryNode (fun node => node.hasSign = false) expr) : expr.IsSpelled cut localTypes := by
  refine (h.and hsigns).mono fun node hnode => ⟨hnode.1, ?_⟩
  rintro value rfl
  exact Scalar.isSpelled_of_hasSign_eq_false hnode.1 hnode.2

theorem subset_parenthesizedLexemes (inside : Bool) (lexemes : List Lexeme) :
    lexemes ⊆ parenthesizedLexemes inside lexemes := by
  cases inside with
  | false => exact List.Subset.refl lexemes
  | true => exact List.subset_cons_of_subset _ (List.subset_append_left _ _)

theorem subset_intercalate {α : Type} {items : List α} {item : α} (h : item ∈ items) (separator : Lexeme)
    (lexemes : α → List Lexeme) : lexemes item ⊆ [separator].intercalate (items.map lexemes) := by
  cases items with
  | nil => cases h
  | cons first items =>
    rw [List.map_cons, intercalate_singleton_cons]
    rcases List.mem_cons.mp h with rfl | hitem
    · exact List.subset_append_left _ _
    · refine List.subset_append_of_subset_right _ fun lexeme hlexeme => ?_
      exact List.mem_flatMap.mpr ⟨_, List.mem_map_of_mem hitem, List.mem_cons_of_mem _ hlexeme⟩

theorem lexeme_mem_lexemes {value : Scalar} {expr : Expr} (h : const value ∈ expr.nodes) :
    value.lexeme ∈ expr.lexemes localTypes := by
  induction expr with
  | const other =>
    cases List.mem_singleton.mp h
    exact List.mem_singleton_self _
  | args arguments ih =>
    rcases List.mem_cons.mp h with heq | hinside
    · cases heq
    · obtain ⟨argument, hargument, hvalue⟩ := mem_nodesAll_iff.mp hinside
      rw [lexemes, lexemesAll_eq_map]
      exact subset_intercalate hargument _ _ (ih argument hargument hvalue)
  | call receiver method arguments ihReceiver ihArguments =>
    rw [lexemes_call, lexemesAll_eq_map]
    rcases List.mem_cons.mp h with heq | hinside
    · cases heq
    · rcases List.mem_append.mp hinside with hreceiver | harguments
      · exact List.mem_append_left _ (subset_parenthesizedLexemes _ _ (ihReceiver hreceiver))
      · obtain ⟨argument, hargument, hvalue⟩ := mem_nodesAll_iff.mp harguments
        have hlexeme := subset_intercalate hargument (.op ',') (lexemes localTypes)
          (ihArguments argument hargument hvalue)
        simp [hlexeme]
  | property receiver name ih =>
    rw [lexemes_property]
    rcases List.mem_cons.mp h with heq | hreceiver
    · cases heq
    · exact List.mem_append_left _ (subset_parenthesizedLexemes _ _ (ih hreceiver))
  | condition inner ih =>
    rcases List.mem_cons.mp h with heq | hinner
    · cases heq
    · exact ih hinner
  | not operand ih =>
    rw [lexemes]
    rcases List.mem_cons.mp h with heq | hoperand
    · cases heq
    · exact List.mem_cons_of_mem _ (subset_parenthesizedLexemes _ _ (ih hoperand))
  | ternary test whenTrue whenFalse ihTest ihTrue ihFalse =>
    rw [lexemes_ternary]
    rcases List.mem_cons.mp h with heq | hinside
    · cases heq
    · rcases List.mem_append.mp hinside with hfront | hfalse
      · rcases List.mem_append.mp hfront with htest | htrue
        · exact List.mem_append_left _ (subset_parenthesizedLexemes _ _ (ihTest htest))
        · have hbranch := subset_parenthesizedLexemes whenTrue.isTernary _ (ihTrue htrue)
          simp [hbranch]
      · simp [ihFalse hfalse]
  | _ => cases List.mem_singleton.mp h

end Expr

theorem Annotation.lexeme_mem_lexemes {mark : Annotation} {member : String × Scalar} (h : member ∈ mark.members) :
    member.2.lexeme ∈ mark.lexemes := by
  refine List.mem_cons_of_mem _ (List.mem_append_right _ ?_)
  unfold argumentLexemes
  split
  · rename_i hnone
    rw [hnone] at h
    cases h
  · rename_i value hsingle
    rw [hsingle] at h
    cases List.mem_singleton.mp h
    simp
  · have hmember : member.2.lexeme ∈ memberLexemes member := by simp [memberLexemes]
    have hinside := Expr.subset_intercalate h (.op ',') memberLexemes hmember
    simp [hinside]

namespace ClassDecl

variable {decl : ClassDecl}

theorem lexemes_subset_of_mem_expressions {entry : String × Expr} (h : entry ∈ decl.expressions) :
    entry.2.lexemes localTypes ⊆ decl.lexemes localTypes := by
  have hmembers : decl.memberLexemes localTypes ⊆ decl.lexemes localTypes := by
    rw [lexemes_eq]
    exact List.subset_append_of_subset_right _ (List.subset_append_left _ _)
  refine List.Subset.trans (fun lexeme hlexeme => ?_) hmembers
  rcases List.mem_append.mp h with hinitial | hbody
  · obtain ⟨field, hfield, rfl⟩ := List.mem_map.mp hinitial
    obtain ⟨hdeclared, hpresent⟩ := List.mem_filter.mp hfield
    refine List.mem_append_left _ (List.mem_flatMap.mpr ⟨field, hdeclared, ?_⟩)
    have hinside : lexeme ∈ field.initialLexemes localTypes := by
      rw [Field.initialLexemes, if_neg (by simpa using hpresent)]
      exact List.mem_cons_of_mem _ hlexeme
    exact List.mem_append_right _ (List.mem_cons_of_mem _ hinside)
  · obtain ⟨method, hmethod, hentry⟩ := List.mem_flatMap.mp hbody
    obtain ⟨statement, hstatement, rfl⟩ := List.mem_map.mp hentry
    refine List.mem_append_right _ (List.mem_flatMap.mpr ⟨method, hmethod, ?_⟩)
    have hinside : lexeme ∈ method.body.flatMap (Statement.lexemes localTypes) := by
      refine List.mem_flatMap.mpr ⟨statement, hstatement, ?_⟩
      unfold Statement.lexemes
      split
      · exact List.mem_cons_of_mem _ hlexeme
      · exact hlexeme
    simp [Method.lexemes, Method.tailLexemes, hinside]

theorem lexemes_subset_of_mem_annotations {mark : Annotation} (h : mark ∈ decl.annotations) :
    mark.lexemes ⊆ decl.lexemes localTypes :=
  fun _ hlexeme => List.mem_append_left _ (List.mem_flatMap.mpr ⟨mark, h, hlexeme⟩)

end ClassDecl

namespace CompilationUnit

variable {unit : CompilationUnit} {indent : String}

/-- No number in the unit is written with a sign. -/
structure HasNoSigns (unit : CompilationUnit) : Prop where
  exprs : ∀ decl ∈ unit.classes, ∀ entry ∈ decl.expressions, ∀ node ∈ entry.2.nodes, node.hasSign = false
  annotations : ∀ decl ∈ unit.classes, ∀ mark ∈ decl.annotations, ∀ member ∈ mark.members,
    member.2.hasSign = false

/-- Where the lexemes of a unit were cut off, none of its numbers has a sign. -/
theorem hasNoSigns_of_cut {input : List Char} (h : Cut input unit.lexemes) : unit.HasNoSigns := by
  have hdecl : ∀ decl ∈ unit.classes, decl.lexemes unit.classNames ⊆ unit.lexemes :=
    fun decl hdecl _ hlexeme => List.mem_append_right _ (List.mem_flatMap.mpr ⟨decl, hdecl, hlexeme⟩)
  constructor
  · intro decl hmem entry hentry node hnode
    cases node with
    | const value =>
      have hlexeme : value.lexeme ∈ decl.lexemes unit.classNames :=
        ClassDecl.lexemes_subset_of_mem_expressions hentry (Expr.lexeme_mem_lexemes hnode)
      exact Scalar.hasSign_eq_false_of_cut h (hdecl decl hmem hlexeme)
    | _ => rfl
  · intro decl hmem mark hmark member hmember
    have hlexeme : member.2.lexeme ∈ decl.lexemes unit.classNames :=
      ClassDecl.lexemes_subset_of_mem_annotations hmark <| Annotation.lexeme_mem_lexemes hmember
    exact Scalar.hasSign_eq_false_of_cut h (hdecl decl hmem hlexeme)

theorem IsWritten.exists_tokenize (hindent : IsIndent indent)
    (h : unit.IsWritten (TypeRef.IsSaid unit.classNames) (Expr.IsWritten unit.classNames))
    (hsigns : unit.HasNoSigns) :
    ∃ list, tokenize (unit.toSource indent) = .ok list ∧ list.tokens.map Token.lexeme = unit.lexemes := by
  have hspelled : unit.IsWritten (TypeRef.IsSaid unit.classNames) (Expr.IsSpelled .exact unit.classNames) :=
    h.imp (fun _ _ _ _ => id) fun decl hdecl entry hentry hexpr =>
      hexpr.isSpelled (hsigns.exprs decl hdecl entry hentry)
  refine exists_tokenize_of_isSpelled hindent hspelled fun decl hdecl mark hmark member hmember => ?_
  have hwritten := ((h.classes decl hdecl).annotations mark hmark).members member hmember
  exact Scalar.isSpelled_of_hasSign_eq_false hwritten.2 (hsigns.annotations decl hdecl mark hmark member hmember)

end CompilationUnit

end GuardedLogging
