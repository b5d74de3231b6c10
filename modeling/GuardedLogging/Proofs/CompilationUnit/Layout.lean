import GuardedLogging.CompilationUnit.ReadBack
import GuardedLogging.Proofs.CompilationUnit.Names
import GuardedLogging.Proofs.Expr.Writing
import GuardedLogging.Proofs.Guard.Nodes
import GuardedLogging.Proofs.Token.Layout
import GuardedLogging.Text.Identifier

/-!
# Lines of a unit under two indentations

A unit whose names open neither a comment nor a literal is written in lines that end by themselves, since a text in it is a closed literal and everything else is made of names, digits and symbols. Under two indentations its lines are the same but for the blanks in front of them.
-/

namespace GuardedLogging

/-- No character of the text opens a comment or a literal. -/
def OpensNothing (text : String) : Prop := ∀ c ∈ text.toList, Scan.opensNothing c = true

instance (text : String) : Decidable (OpensNothing text) :=
  List.decidableBAll (Scan.opensNothing · = true) text.toList

/-- No comment opens in the text, and every literal in it is closed. -/
def EndsItself (text : String) : Prop := Scan.EndsItself text.toList

namespace OpensNothing

variable {text other : String}

theorem endsItself (h : OpensNothing text) : EndsItself text := .of_all h

theorem append (h : OpensNothing text) (hother : OpensNothing other) : OpensNothing (text ++ other) := by
  rw [OpensNothing, String.toList_append]
  exact List.forall_mem_append.mpr ⟨h, hother⟩

/-- A text of characters of a class that has none of the three in it. -/
theorem of_forall {p : Char → Bool} (h : ∀ c ∈ text.toList, p c = true)
    (hp : p '/' = false ∧ p '"' = false ∧ p '\'' = false) : OpensNothing text :=
  fun c hc => Scan.opensNothing_of (h c hc) hp

theorem of_isWord (h : isWord text = true) : OpensNothing text :=
  of_forall (fun _ hc => isWordPart_of_mem h hc) (by decide)

theorem of_isDottedName (h : isDottedName text = true) : OpensNothing text := by
  obtain ⟨first, parts, hparts, hfirst, hwords⟩ := dotParts_of_isDottedName h
  rw [← intercalate_dotParts text, hparts, OpensNothing, toList_intercalate_cons]
  refine List.forall_mem_append.mpr ⟨of_isWord (isWord_of_isName hfirst), fun c hc => ?_⟩
  obtain ⟨part, hpart, hc⟩ := List.mem_flatMap.mp hc
  rcases List.mem_append.mp hc with hdot | hc
  · exact (show OpensNothing "." by decide) c hdot
  · exact of_isWord (hwords part hpart) c hc

theorem of_isIdentifier (h : isIdentifier text = true) : OpensNothing text := by
  unfold isIdentifier at h
  split at h
  · cases h
  · rename_i first rest htext
    obtain ⟨hfirst, hrest⟩ := Bool.and_eq_true_iff.mp h
    rw [OpensNothing, htext]
    refine List.forall_mem_cons.mpr ⟨Scan.opensNothing_of hfirst (by decide), fun c hc => ?_⟩
    exact Scan.opensNothing_of (List.all_eq_true.mp hrest c hc) (by decide)

theorem lastPart (h : OpensNothing text) : OpensNothing (GuardedLogging.lastPart text) := by
  rw [OpensNothing, GuardedLogging.lastPart, String.toList_ofList]
  intro c hc
  exact h c (List.mem_reverse.mp ((List.takeWhile_sublist _).subset (List.mem_reverse.mp hc)))

end OpensNothing

namespace EndsItself

variable {text other : String}

theorem append (h : EndsItself text) (hother : EndsItself other) : EndsItself (text ++ other) := by
  rw [EndsItself, String.toList_append]
  exact Scan.EndsItself.append h hother

theorem intercalate {separator : String} (hseparator : EndsItself separator) {texts : List String}
    (h : ∀ text ∈ texts, EndsItself text) : EndsItself (separator.intercalate texts) := by
  cases texts with
  | nil => exact Scan.EndsItself.nil
  | cons first texts =>
    obtain ⟨hfirst, htexts⟩ := List.forall_mem_cons.mp h
    rw [EndsItself, toList_intercalate_cons]
    refine Scan.EndsItself.append hfirst ?_
    clear h
    induction texts with
    | nil => exact .nil
    | cons text texts ih =>
      obtain ⟨htext, htexts⟩ := List.forall_mem_cons.mp htexts
      exact (Scan.EndsItself.append hseparator htext).append (ih htexts)

theorem sign (text : String) (h : OpensNothing text) : EndsItself text := h.endsItself

theorem parenthesized (inside : Bool) (h : EndsItself text) : EndsItself (Expr.parenthesized inside text) := by
  unfold Expr.parenthesized
  split
  · exact ((sign "(" (by decide)).append h).append (sign ")" (by decide))
  · exact h

end EndsItself

/-! ### Scalars -/

namespace FloatLayout

variable {digits : String} {power : Int}

theorem opensNothing_zeros (count : Int) : OpensNothing (zeros count) := by
  rw [OpensNothing, zeros, String.toList_ofList]
  intro c hc
  rw [List.eq_of_mem_replicate hc]
  decide

theorem opensNothing_positional (h : OpensNothing digits) : OpensNothing (positional digits power) := by
  unfold positional
  simp only
  split
  · exact (OpensNothing.append (by decide) (opensNothing_zeros _)).append h
  · split
    · exact (h.append (opensNothing_zeros _)).append (by decide)
    · refine (OpensNothing.append ?_ (by decide)).append ?_
      · exact fun c hc => h c (List.mem_of_mem_take (String.toList_ofList ▸ hc))
      · exact fun c hc => h c (List.mem_of_mem_drop (String.toList_ofList ▸ hc))

theorem opensNothing_toString (n : Nat) : OpensNothing (toString n) := by
  rw [OpensNothing, Nat.toString_eq_ofList_toDigits, String.toList_ofList]
  intro c hc
  exact Scan.opensNothing_of (List.all_eq_true.mp (all_isDigit_toDigits n) c hc) (by decide)

theorem opensNothing_scientific (h : OpensNothing digits) : OpensNothing (scientific digits power) := by
  have hmantissa : ∀ mantissa : List Char, (∀ c ∈ mantissa, c = '.' ∨ c ∈ digits.toList) →
      OpensNothing (String.ofList mantissa) := by
    intro mantissa hmem
    rw [OpensNothing, String.toList_ofList]
    intro c hc
    rcases hmem c hc with rfl | hdigit
    · decide
    · exact h c hdigit
  unfold scientific
  simp only
  refine ((OpensNothing.append (OpensNothing.append ?_ (by decide)) ?_).append ?_)
  · split
    · decide
    · rename_i only honly
      exact hmantissa [only] fun c hc => .inr (honly ▸ hc)
    · rename_i first rest _ hdigits
      refine hmantissa (first :: '.' :: rest) fun c hc => ?_
      rw [hdigits]
      simp only [List.mem_cons] at hc ⊢
      tauto
  · split <;> decide
  · split
    · exact OpensNothing.append (by decide) (opensNothing_toString _)
    · exact opensNothing_toString _

theorem opensNothing_render (layout : FloatLayout) (hinfinity : OpensNothing layout.infinity)
    (hnan : OpensNothing layout.notANumber) (value : Binary64) : OpensNothing (layout.render value) := by
  have hsign : ∀ negative : Bool, OpensNothing (if negative then "-" else "") := by decide
  cases value with
  | finite negative significand exponent =>
    refine (hsign negative).append ?_
    unfold magnitude
    split
    · decide
    · simp only
      split
      · exact opensNothing_positional (opensNothing_toString _)
      · exact opensNothing_scientific (opensNothing_toString _)
  | infinite negative => exact (hsign negative).append hinfinity
  | nan => exact hnan

end FloatLayout

theorem endsItself_ofScalar (value : Scalar) : EndsItself (Literal.ofScalar value) := by
  cases value with
  | null => exact .sign "null" (by decide)
  | bool value => cases value <;> exact OpensNothing.endsItself (by decide)
  | int value =>
    refine OpensNothing.endsItself ?_
    show OpensNothing (toString value)
    cases value with
    | ofNat n => exact FloatLayout.opensNothing_toString n
    | negSucc n => exact OpensNothing.append (by decide) (FloatLayout.opensNothing_toString (n + 1))
  | real value => exact (FloatLayout.opensNothing_render _ (by decide) (by decide) value).endsItself
  | text value =>
    show EndsItself (String.ofList (Literal.quote value.toList))
    rw [EndsItself, String.toList_ofList, ← List.append_nil (Literal.quote _)]
    exact .literal value.toList .nil

/-! ### Expressions -/

namespace Expr

/-- The names that a node brings with it. -/
def ownNames : Expr → List String
  | var name => [name]
  | classRef type => [type.name]
  | call _ method _ => [method]
  | property _ name => [name]
  | _ => []

/-- No name in the expression opens anything. -/
abbrev NamesOpenNothing : Expr → Prop := EveryNode (fun node => ∀ name ∈ node.ownNames, OpensNothing name)

end Expr

theorem endsItself_typeRef {type : TypeRef} (localTypes : List String) (h : OpensNothing type.name) :
    EndsItself (type.toSource localTypes) := by
  unfold TypeRef.toSource
  split
  · exact h.lastPart.endsItself
  · exact h.endsItself

namespace Expr

theorem endsItself_toSource (localTypes : List String) {expr : Expr} (h : expr.NamesOpenNothing) :
    EndsItself (expr.toSource localTypes) := by
  have hall : ∀ arguments : List Expr, (∀ argument ∈ arguments, argument.NamesOpenNothing →
      EndsItself (argument.toSource localTypes)) → (∀ argument ∈ arguments, argument.NamesOpenNothing) →
      EndsItself (", ".intercalate (toSources localTypes arguments)) := by
    intro arguments ih harguments
    rw [toSources_eq_map]
    refine EndsItself.intercalate (.sign ", " (by decide)) (List.forall_mem_map.mpr ?_)
    exact fun argument hargument => ih argument hargument (harguments argument hargument)
  induction expr with
  | absent => exact Scan.EndsItself.nil
  | const value => exact endsItself_ofScalar value
  | var name => exact (h.node name List.mem_cons_self).endsItself
  | classRef type => exact endsItself_typeRef localTypes (h.node type.name List.mem_cons_self)
  | args arguments ih => exact hall arguments ih (EveryNode.args_iff.mp h).2
  | condition inner ih => exact ih (EveryNode.condition_iff.mp h).2
  | property receiver name ih =>
    obtain ⟨hnames, hreceiver⟩ := EveryNode.property_iff.mp h
    have hfront := ((ih hreceiver).parenthesized (receiver.isTernary || receiver.isNot)).append (.sign "." (by decide))
    exact hfront.append (hnames name List.mem_cons_self).endsItself
  | not operand ih =>
    have hoperand := (ih (EveryNode.not_iff.mp h).2).parenthesized operand.isTernary
    exact (EndsItself.sign "!" (by decide)).append hoperand
  | call receiver method arguments ihReceiver ihArguments =>
    obtain ⟨hnames, hreceiver, harguments⟩ := EveryNode.call_iff.mp h
    have hmethod := (hnames method List.mem_cons_self).endsItself
    have hfront := ((ihReceiver hreceiver).parenthesized (receiver.isTernary || receiver.isNot)).append
      (.sign "." (by decide))
    have hopened := (hfront.append hmethod).append (.sign "(" (by decide))
    exact (hopened.append (hall arguments ihArguments harguments)).append (.sign ")" (by decide))
  | ternary test whenTrue whenFalse ihTest ihTrue ihFalse =>
    obtain ⟨_, htest, htrue, hfalse⟩ := EveryNode.ternary_iff.mp h
    have hfront := ((ihTest htest).parenthesized test.isTernary).append (.sign " ? " (by decide))
    have hmiddle := hfront.append ((ihTrue htrue).parenthesized whenTrue.isTernary)
    exact (hmiddle.append (.sign " : " (by decide))).append (ihFalse hfalse)

end Expr

/-! ### Units -/

/-- No name in the annotation opens anything. -/
structure Annotation.NamesOpenNothing (mark : Annotation) : Prop where
  name : OpensNothing mark.name
  members : ∀ member ∈ mark.members, OpensNothing member.1

structure Parameter.NamesOpenNothing (parameter : Parameter) : Prop where
  name : OpensNothing parameter.name
  type : ∀ type ∈ parameter.type, OpensNothing type.name

structure Field.NamesOpenNothing (field : Field) : Prop where
  name : OpensNothing field.name
  type : ∀ type ∈ field.type, OpensNothing type.name
  initial : field.initial.NamesOpenNothing

structure Method.NamesOpenNothing (method : Method) : Prop where
  name : OpensNothing method.name
  returnType : ∀ type ∈ method.returnType, OpensNothing type.name
  parameters : ∀ parameter ∈ method.parameters, parameter.NamesOpenNothing
  body : ∀ statement ∈ method.body, statement.expr.NamesOpenNothing

structure ClassDecl.NamesOpenNothing (decl : ClassDecl) : Prop where
  name : OpensNothing decl.name
  annotations : ∀ mark ∈ decl.annotations, mark.NamesOpenNothing
  fields : ∀ field ∈ decl.fields, field.NamesOpenNothing
  methods : ∀ method ∈ decl.methods, method.NamesOpenNothing

structure CompilationUnit.NamesOpenNothing (unit : CompilationUnit) : Prop where
  package : OpensNothing unit.package.plain
  classes : ∀ decl ∈ unit.classes, decl.NamesOpenNothing

section Lines

variable {localTypes : List String} {indent otherIndent : String}

theorem Annotation.NamesOpenNothing.endsItself {mark : Annotation} (h : mark.NamesOpenNothing) : EndsItself mark.toSource := by
  have hfront : EndsItself ("@" ++ mark.name) := (OpensNothing.append (by decide) h.name).endsItself
  have hopened : EndsItself ("@" ++ mark.name ++ "(") := hfront.append (.sign "(" (by decide))
  have hclose : EndsItself ")" := .sign ")" (by decide)
  unfold Annotation.toSource
  split
  · exact hfront
  · exact (hopened.append (endsItself_ofScalar _)).append hclose
  · refine (hopened.append ?_).append hclose
    refine EndsItself.intercalate (.sign ", " (by decide)) (List.forall_mem_map.mpr fun member hmember => ?_)
    exact ((h.members member hmember).append (by decide)).endsItself.append (endsItself_ofScalar _)

theorem Modifiers.opensNothing_words (modifiers : Modifiers) : ∀ word ∈ modifiers.words, OpensNothing word := by
  refine List.forall_mem_map.mpr fun modifier _ => ?_
  cases modifier <;> decide

theorem endsItself_declarationHead (modifiers : Modifiers) {type : Option TypeRef}
    (h : ∀ known ∈ type, OpensNothing known.name) : EndsItself (declarationHead localTypes modifiers type) := by
  refine EndsItself.intercalate (.sign " " (by decide)) (List.forall_mem_append.mpr ⟨?_, ?_⟩)
  · exact fun word hword => (modifiers.opensNothing_words word hword).endsItself
  · refine List.forall_mem_singleton.mpr ?_
    cases type with
    | none => exact .sign "def" (by decide)
    | some known => exact endsItself_typeRef localTypes (h known rfl)

theorem Parameter.NamesOpenNothing.endsItself {parameter : Parameter} (h : parameter.NamesOpenNothing) :
    EndsItself (parameter.toSource localTypes) := by
  unfold Parameter.toSource
  split
  · rename_i type htype
    exact ((endsItself_typeRef localTypes (h.type type htype)).append (.sign " " (by decide))).append
      h.name.endsItself
  · exact h.name.endsItself

theorem Statement.endsItself_toSource {statement : Statement} (h : statement.expr.NamesOpenNothing) :
    EndsItself (statement.toSource localTypes) := by
  unfold toSource
  split
  · exact (EndsItself.sign "return " (by decide)).append (Expr.endsItself_toSource localTypes h)
  · exact Expr.endsItself_toSource localTypes h

theorem Field.NamesOpenNothing.endsItself {field : Field} (h : field.NamesOpenNothing) :
    EndsItself (field.toSource localTypes) := by
  have hwords : EndsItself (declarationHead localTypes field.modifiers field.type) :=
    endsItself_declarationHead field.modifiers h.type
  have hhead := (hwords.append (.sign " " (by decide))).append h.name.endsItself
  unfold Field.toSource
  simp only
  split
  · exact hhead
  · exact (hhead.append (.sign " = " (by decide))).append (Expr.endsItself_toSource localTypes h.initial)

theorem Method.NamesOpenNothing.linesAlike {method : Method} (h : method.NamesOpenNothing) (hindent : IsIndent indent)
    (hother : IsIndent otherIndent) :
    LinesAlike (method.sourceLines localTypes indent) (method.sourceLines localTypes otherIndent) := by
  have hparameters : EndsItself (", ".intercalate (method.parameters.map (Parameter.toSource localTypes))) :=
    EndsItself.intercalate (.sign ", " (by decide)) (List.forall_mem_map.mpr fun parameter hparameter =>
      (h.parameters parameter hparameter).endsItself)
  have hwords : EndsItself (declarationHead localTypes method.modifiers method.returnType) :=
    endsItself_declarationHead method.modifiers h.returnType
  have hname := (hwords.append (.sign " " (by decide))).append h.name.endsItself
  have hhead := ((hname.append (.sign "(" (by decide))).append hparameters).append (.sign ") \x7b" (by decide))
  refine List.rel_append (.cons (.same hhead) ?_) (.cons (.same (EndsItself.sign "\x7d" (by decide))) .nil)
  refine forall₂_map_map fun statement hstatement => ?_
  exact .append hindent hother (.same (Statement.endsItself_toSource (h.body statement hstatement)))

theorem ClassDecl.NamesOpenNothing.blocksAlike {decl : ClassDecl} (h : decl.NamesOpenNothing) (hindent : IsIndent indent)
    (hother : IsIndent otherIndent) :
    List.Forall₂ LinesAlike (decl.sourceBlocks localTypes indent) (decl.sourceBlocks localTypes otherIndent) := by
  refine List.rel_append ?_ (forall₂_map_map fun method hmethod => (h.methods method hmethod).linesAlike hindent hother)
  split
  · exact .nil
  · exact .cons (forall₂_map_map fun field hfield => .same (h.fields field hfield).endsItself) .nil

theorem ClassDecl.NamesOpenNothing.linesAlike {decl : ClassDecl} (h : decl.NamesOpenNothing) (hindent : IsIndent indent)
    (hother : IsIndent otherIndent) :
    LinesAlike (decl.sourceLines localTypes indent) (decl.sourceLines localTypes otherIndent) := by
  have hhead : EndsItself (" ".intercalate (decl.modifiers.words ++ ["class", decl.simpleName]) ++ " \x7b") := by
    refine EndsItself.append (EndsItself.intercalate (.sign " " (by decide)) ?_) (.sign " \x7b" (by decide))
    refine List.forall_mem_append.mpr ⟨fun word hword => ?_, List.forall_mem_cons.mpr ⟨.sign "class" (by decide), ?_⟩⟩
    · exact (decl.modifiers.opensNothing_words word hword).endsItself
    · exact List.forall_mem_singleton.mpr h.name.lastPart.endsItself
  have hblocks : List.Forall₂ LinesAlike
      ((decl.sourceBlocks localTypes indent).map fun block =>
        block.map fun line => if line.isEmpty then "" else indent ++ line)
      ((decl.sourceBlocks localTypes otherIndent).map fun block =>
        block.map fun line => if line.isEmpty then "" else otherIndent ++ line) := by
    refine List.rel_map (fun block otherBlock hblock => ?_) (h.blocksAlike hindent hother)
    exact List.rel_map (fun line otherLine hline => hline.indented hindent hother) hblock
  refine List.rel_append (List.rel_append (List.rel_append ?_ (.cons (.same hhead) .nil)) (LinesAlike.blocks hblocks))
    (.cons (.same (EndsItself.sign "\x7d" (by decide))) .nil)
  exact forall₂_map_map fun mark hmark => .same (h.annotations mark hmark).endsItself

namespace CompilationUnit

theorem NamesOpenNothing.linesAlike {unit : CompilationUnit} (h : unit.NamesOpenNothing) (hindent : IsIndent indent)
    (hother : IsIndent otherIndent) : LinesAlike (unit.sourceLines indent) (unit.sourceLines otherIndent) := by
  have hpackage : EndsItself ("package " ++ unit.package.plain) := (OpensNothing.append (by decide) h.package).endsItself
  refine List.rel_append ?_ (LinesAlike.blocks ?_)
  · split
    · exact .cons (.same hpackage) (.cons (.same .nil) .nil)
    · exact .nil
  · exact forall₂_map_map fun decl hdecl => (h.classes decl hdecl).linesAlike hindent hother

/-- Under any two indentations, a unit whose names open nothing is read as the same unit, or refused with the same error. -/
theorem parse_toSource_eq {unit : CompilationUnit} (h : unit.NamesOpenNothing) (hindent : IsIndent indent)
    (hother : IsIndent otherIndent) (name : Scalar) :
    parse (unit.toSource indent) name = parse (unit.toSource otherIndent) name := by
  rw [parse, parse, toSource, toSource, (h.linesAlike hindent hother).tokenize_eq]

end CompilationUnit

end Lines

end GuardedLogging
