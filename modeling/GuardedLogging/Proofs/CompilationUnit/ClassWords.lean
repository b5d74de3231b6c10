import GuardedLogging.Proofs.CompilationUnit.Classes

/-!
# Declared names in a written unit

The names of the classes that a source declares are found before it is parsed: they are the words behind the word `class`. In a written unit that word stands in front of declared names only, provided that it is no part of a name.
-/

namespace GuardedLogging

variable {scope : NameScope} {localTypes : List String}

/-- The words that follow the word `class`. -/
def classWords : List Lexeme → List String
  | .word "class" :: .word name :: rest => name :: classWords (.word name :: rest)
  | _ :: rest => classWords rest
  | [] => []

theorem wordsAfterClass_eq (tokens : List Token) :
    wordsAfterClass tokens = classWords (tokens.map Token.lexeme) := by
  fun_induction wordsAfterClass tokens with
  | case1 classLine name line rest ih => simp [classWords, ih]
  | case2 token rest hclass ih =>
    rw [List.map_cons, classWords, ih]
    intro name lexemes hword hnext
    obtain ⟨lexeme, classLine⟩ := token
    obtain ⟨line, tail, rfl, _⟩ := exists_of_map_lexeme_eq_cons hnext
    exact hclass classLine name line tail (congrArg (Token.mk · classLine) hword) rfl
  | case3 => rfl

/-- The word `class` is not among the lexemes. -/
def NoClass (lexemes : List Lexeme) : Prop := .word "class" ∉ lexemes

theorem classWords_append {front : List Lexeme} (h : NoClass front) (back : List Lexeme) :
    classWords (front ++ back) = classWords back := by
  induction front with
  | nil => rfl
  | cons lexeme front ih =>
    rw [NoClass, List.mem_cons, not_or] at h
    rw [List.cons_append, classWords, ih h.2]
    rintro name rest rfl _
    exact h.1 rfl

theorem classWords_class {name : String} (h : isName name = true) (back : List Lexeme) :
    classWords (.word "class" :: .word name :: back) = name :: classWords back := by
  have hname : NoClass [.word name] := by
    intro hmem
    have heq := Lexeme.word.inj (List.mem_singleton.mp hmem)
    exact Cursor.ne_of_isKeyword (isKeyword_of_isName h) (by decide) heq.symm
  rw [classWords]
  exact congrArg (name :: ·) (classWords_append hname back)

/-! ### Where the word is not -/

namespace NoClass

theorem append_iff {front back : List Lexeme} :
    NoClass (front ++ back) ↔ NoClass front ∧ NoClass back := by
  rw [NoClass, List.mem_append, not_or]
  rfl

theorem nil : NoClass [] := List.not_mem_nil

theorem op_iff {symbol : Char} {lexemes : List Lexeme} :
    NoClass (.op symbol :: lexemes) ↔ NoClass lexemes := by
  simp [NoClass]

theorem word_iff {word : String} {lexemes : List Lexeme} :
    NoClass (.word word :: lexemes) ↔ "class" ≠ word ∧ NoClass lexemes := by
  simp [NoClass]

theorem flatMap {α : Type} {items : List α} {lexemes : α → List Lexeme}
    (h : ∀ item ∈ items, NoClass (lexemes item)) : NoClass (items.flatMap lexemes) := by
  intro hmem
  obtain ⟨item, hitem, hlexeme⟩ := List.mem_flatMap.mp hmem
  exact h item hitem hlexeme

theorem intercalate {α : Type} {items : List α} {lexemes : α → List Lexeme}
    (h : ∀ item ∈ items, NoClass (lexemes item)) :
    NoClass ([.op ','].intercalate (items.map lexemes)) := by
  cases items with
  | nil => exact nil
  | cons first items =>
    obtain ⟨hfirst, hitems⟩ := List.forall_mem_cons.mp h
    rw [List.map_cons, intercalate_singleton_cons, append_iff, List.flatMap_map]
    exact ⟨hfirst, flatMap fun item hitem => op_iff.mpr (hitems item hitem)⟩

theorem ne_of_isName {name : String} (h : isName name = true) : "class" ≠ name :=
  (Cursor.ne_of_isKeyword (isKeyword_of_isName h) (by decide)).symm

theorem dottedLexemes {name : String} (h : "class" ∉ dotParts name) :
    NoClass (dottedLexemes name) := by
  unfold GuardedLogging.dottedLexemes
  split
  · exact nil
  · rename_i first parts hparts
    rw [hparts, List.mem_cons, not_or] at h
    refine word_iff.mpr ⟨h.1, flatMap fun part hpart => op_iff.mpr (word_iff.mpr ⟨?_, nil⟩)⟩
    exact fun heq => h.2 (heq ▸ hpart)

theorem modifiers (modifiers : Modifiers) : NoClass modifiers.lexemes := by
  intro hmem
  obtain ⟨word, hword, heq⟩ := List.mem_map.mp hmem
  cases heq
  obtain ⟨modifier, _, hmodifier⟩ := List.mem_map.mp hword
  exact absurd hmodifier (by cases modifier <;> decide)

theorem head {modifiers : Modifiers} {type : Option TypeRef}
    (h : ∀ known ∈ type, TypeRef.IsReadBack scope localTypes known) :
    NoClass (headLexemes localTypes modifiers type) := by
  refine append_iff.mpr ⟨NoClass.modifiers modifiers, ?_⟩
  cases type with
  | none => exact word_iff.mpr ⟨by decide, nil⟩
  | some known => exact dottedLexemes (h known rfl).noClass

theorem scalar (value : Scalar) : NoClass [value.lexeme] := by
  cases value with
  | bool value => cases value <;> exact word_iff.mpr ⟨by decide, nil⟩
  | null => exact word_iff.mpr ⟨by decide, nil⟩
  | real value =>
    cases value with
    | finite negative significand exponent => simp [NoClass, Scalar.lexeme]
    | infinite negative => cases negative <;> exact word_iff.mpr ⟨by decide, nil⟩
    | nan => exact word_iff.mpr ⟨by decide, nil⟩
  | _ => simp [NoClass, Scalar.lexeme]

end NoClass

/-- The word `class` is no member name in the node, and no part of a type. -/
def Expr.HasNoClassNode (localTypes : List String) : Expr → Prop
  | .call _ name _ | .property _ name => name ≠ "class"
  | .classRef type => "class" ∉ dotParts (type.toSource localTypes)
  | _ => True

theorem Expr.noClass_lexemes {expr : Expr} (h : expr.IsExact localTypes)
    (hclass : expr.EveryNode (HasNoClassNode localTypes)) : NoClass (expr.lexemes localTypes) := by
  have hparentheses : ∀ inside lexemes, NoClass lexemes → NoClass (parenthesizedLexemes inside lexemes) := by
    intro inside lexemes hlexemes
    cases inside with
    | false => exact hlexemes
    | true => exact NoClass.op_iff.mpr (NoClass.append_iff.mpr ⟨hlexemes, NoClass.op_iff.mpr .nil⟩)
  induction expr with
  | absent => exact .nil
  | args arguments _ => exact absurd h.node.1 nofun
  | condition inner _ => exact absurd h.node.1 nofun
  | const value => exact NoClass.scalar value
  | var name => exact NoClass.word_iff.mpr ⟨NoClass.ne_of_isName h.node.1, .nil⟩
  | classRef type => exact NoClass.dottedLexemes hclass.node
  | call receiver method arguments ihReceiver ihArguments =>
    obtain ⟨_, hreceiver, harguments⟩ := EveryNode.call_iff.mp h
    obtain ⟨hmethod, hreceiverClass, hargumentsClass⟩ := EveryNode.call_iff.mp hclass
    have hinside : NoClass ([.op ','].intercalate (arguments.map (lexemes localTypes))) :=
      NoClass.intercalate fun argument hargument =>
        ihArguments argument hargument (harguments argument hargument) (hargumentsClass argument hargument)
    rw [lexemes, lexemesAll_eq_map]
    refine NoClass.append_iff.mpr ⟨hparentheses _ _ (ihReceiver hreceiver hreceiverClass), ?_⟩
    refine NoClass.op_iff.mpr (NoClass.word_iff.mpr ⟨Ne.symm hmethod, NoClass.op_iff.mpr ?_⟩)
    exact NoClass.append_iff.mpr ⟨hinside, NoClass.op_iff.mpr .nil⟩
  | property receiver name ih =>
    obtain ⟨_, hreceiver⟩ := EveryNode.property_iff.mp h
    obtain ⟨hname, hreceiverClass⟩ := EveryNode.property_iff.mp hclass
    rw [lexemes]
    refine NoClass.append_iff.mpr ⟨hparentheses _ _ (ih hreceiver hreceiverClass), ?_⟩
    exact NoClass.op_iff.mpr (NoClass.word_iff.mpr ⟨Ne.symm hname, .nil⟩)
  | not operand ih =>
    have hoperand := ih (EveryNode.not_iff.mp h).2 (EveryNode.not_iff.mp hclass).2
    exact NoClass.op_iff.mpr (hparentheses _ _ hoperand)
  | ternary test whenTrue whenFalse ihTest ihTrue ihFalse =>
    obtain ⟨_, htest, htrue, hfalse⟩ := EveryNode.ternary_iff.mp h
    obtain ⟨_, htestClass, htrueClass, hfalseClass⟩ := EveryNode.ternary_iff.mp hclass
    rw [lexemes]
    refine NoClass.append_iff.mpr ⟨hparentheses _ _ (ihTest htest htestClass), NoClass.op_iff.mpr ?_⟩
    refine NoClass.append_iff.mpr ⟨hparentheses _ _ (ihTrue htrue htrueClass), NoClass.op_iff.mpr ?_⟩
    exact ihFalse hfalse hfalseClass

theorem Annotation.noClass_lexemes {mark : Annotation} (h : mark.IsWritten)
    (hclass : "class" ∉ dotParts mark.name) : NoClass mark.lexemes := by
  refine NoClass.op_iff.mpr (NoClass.append_iff.mpr ⟨NoClass.dottedLexemes hclass, ?_⟩)
  have hvalue : ∀ value rest, NoClass rest → NoClass (Scalar.lexeme value :: rest) :=
    fun value rest hrest => NoClass.append_iff.mpr ⟨NoClass.scalar value, hrest⟩
  unfold argumentLexemes
  split
  · exact .nil
  · exact NoClass.op_iff.mpr (hvalue _ _ (NoClass.op_iff.mpr .nil))
  · refine NoClass.op_iff.mpr (NoClass.append_iff.mpr ⟨?_, NoClass.op_iff.mpr .nil⟩)
    refine NoClass.intercalate fun member hmember => ?_
    have hname := NoClass.ne_of_isName (h.members member hmember).1
    exact NoClass.word_iff.mpr ⟨hname, NoClass.op_iff.mpr (hvalue _ _ .nil)⟩

theorem Parameter.noClass_lexemes {parameter : Parameter}
    (h : parameter.IsWritten (TypeRef.IsReadBack scope localTypes)) :
    NoClass (parameter.lexemes localTypes) := by
  have hname : NoClass [.word parameter.name] :=
    NoClass.word_iff.mpr ⟨NoClass.ne_of_isName h.name, .nil⟩
  unfold lexemes
  split
  · rename_i type htype
    exact NoClass.append_iff.mpr ⟨NoClass.dottedLexemes (h.type type htype).noClass, hname⟩
  · exact hname

theorem Statement.noClass_lexemes {statement : Statement}
    (h : NoClass (statement.expr.lexemes localTypes)) : NoClass (statement.lexemes localTypes) := by
  unfold lexemes
  split
  · exact NoClass.word_iff.mpr ⟨by decide, h⟩
  · exact h

theorem Method.noClass_lexemes {method : Method}
    (h : method.IsWritten (TypeRef.IsReadBack scope localTypes) fun expr =>
      NoClass (expr.lexemes localTypes)) : NoClass (method.lexemes localTypes) := by
  have hparameters : NoClass ([.op ','].intercalate (method.parameters.map (Parameter.lexemes localTypes))) :=
    NoClass.intercalate fun parameter hparameter =>
      Parameter.noClass_lexemes (h.parameters parameter hparameter)
  have hbody : NoClass (method.body.flatMap (Statement.lexemes localTypes)) :=
    NoClass.flatMap fun statement hstatement => Statement.noClass_lexemes (h.body statement hstatement)
  refine NoClass.append_iff.mpr ⟨NoClass.head h.returnType, ?_⟩
  refine NoClass.word_iff.mpr ⟨NoClass.ne_of_isName h.name, NoClass.op_iff.mpr ?_⟩
  refine NoClass.append_iff.mpr ⟨hparameters, NoClass.op_iff.mpr (NoClass.op_iff.mpr ?_)⟩
  exact NoClass.append_iff.mpr ⟨hbody, NoClass.op_iff.mpr .nil⟩

theorem Field.noClass_lexemes {field : Field} {owner : String}
    (h : field.IsWritten (TypeRef.IsReadBack scope localTypes)
      (fun expr => NoClass (expr.lexemes localTypes)) owner) : NoClass (field.lexemes localTypes) := by
  refine NoClass.append_iff.mpr ⟨NoClass.head h.type, ?_⟩
  refine NoClass.word_iff.mpr ⟨NoClass.ne_of_isName h.name, ?_⟩
  unfold initialLexemes
  split
  · exact .nil
  · rename_i habsent
    rcases h.initial with hinitial | hinitial
    · rw [hinitial] at habsent
      exact absurd rfl habsent
    · exact NoClass.op_iff.mpr hinitial

namespace ClassDecl

variable {decl : ClassDecl} {package : String}

theorem classWords_lexemes
    (h : decl.IsWritten package (TypeRef.IsReadBack scope localTypes) fun expr =>
      NoClass (expr.lexemes localTypes))
    (hmarks : ∀ mark ∈ decl.annotations, "class" ∉ dotParts mark.name) (after : List Lexeme) :
    classWords (decl.lexemes localTypes ++ after) = decl.simpleName :: classWords after := by
  have hannotations : NoClass (decl.annotations.flatMap Annotation.lexemes) :=
    NoClass.flatMap fun mark hmark => Annotation.noClass_lexemes (h.annotations mark hmark) (hmarks mark hmark)
  have hmembers : NoClass (decl.memberLexemes localTypes) :=
    NoClass.append_iff.mpr
      ⟨NoClass.flatMap fun field hfield => Field.noClass_lexemes (h.fields field hfield),
        NoClass.flatMap fun method hmethod => Method.noClass_lexemes (h.methods method hmethod)⟩
  have hbody : NoClass (.op '\x7b' :: (decl.memberLexemes localTypes ++ [.op '\x7d'])) :=
    NoClass.op_iff.mpr (NoClass.append_iff.mpr ⟨hmembers, NoClass.op_iff.mpr .nil⟩)
  rw [lexemes, List.append_assoc, List.append_assoc, classWords_append hannotations,
    classWords_append (NoClass.modifiers decl.modifiers)]
  show classWords (.word "class" :: .word decl.simpleName
    :: (.op '\x7b' :: (decl.memberLexemes localTypes ++ [.op '\x7d']) ++ after)) = _
  rw [classWords_class h.simpleName, classWords_append hbody]

theorem classWords_flatMap_lexemes {decls : List ClassDecl}
    (h : ∀ decl ∈ decls, decl.IsWritten package (TypeRef.IsReadBack scope localTypes) fun expr =>
      NoClass (expr.lexemes localTypes))
    (hmarks : ∀ decl ∈ decls, ∀ mark ∈ decl.annotations, "class" ∉ dotParts mark.name) :
    classWords (decls.flatMap (lexemes localTypes)) = decls.map simpleName := by
  induction decls with
  | nil => rfl
  | cons decl decls ih =>
    obtain ⟨hdecl, hdecls⟩ := List.forall_mem_cons.mp h
    obtain ⟨hmark, hmarks⟩ := List.forall_mem_cons.mp hmarks
    rw [List.flatMap_cons, classWords_lexemes hdecl hmark, ih hdecls hmarks, List.map_cons]

end ClassDecl

end GuardedLogging
