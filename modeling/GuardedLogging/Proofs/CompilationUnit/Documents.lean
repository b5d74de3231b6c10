import GuardedLogging.CompilationUnit.Document
import GuardedLogging.Proofs.General.Results

/-!
# Units read back from documents

A document keeps everything of an expression, so reading it gives the expression back. Of a unit it keeps everything but the owners of the fields, which reading takes from the class around them; so a unit comes back as it was if its fields belong to their classes. Every unit that is read from a document is of this kind, whatever else the document holds.
-/

namespace GuardedLogging

namespace Document

variable {entries : List (Key × Document)} {key : String}

/-! ### Asking for a key that is there -/

@[simp] theorem lookup_nil (key : String) : lookup [] key = none := rfl

@[simp] theorem lookup_cons (name key : String) (value : Document) (rest : List (Key × Document)) :
    lookup ((.text name, value) :: rest) key = if name = key then some value else lookup rest key := by
  unfold lookup
  by_cases h : name = key
  · simp [h]
  · simp [h]

theorem required_eq_ok {value : Document} (h : lookup entries key = some value) :
    required entries key = .ok value := by
  rw [required, h]

theorem requiredText_eq_ok {value : String} (h : lookup entries key = some (.text value)) :
    requiredText entries key = .ok value := by
  rw [requiredText, required_eq_ok h]
  rfl

theorem child_eq_ok {value : Document} (h : lookup entries key = some value) :
    child entries key = .ok ⟨value, sizeOf_lt_of_lookup h⟩ := by
  unfold child
  split
  · rename_i other hother
    cases h.symm.trans hother
    rfl
  · rename_i hnone
    cases h.symm.trans hnone

theorem children_eq_ok (part : DocumentPart) {items : List Document} (h : lookup entries key = some (.list items)) :
    ∃ hsize, children part entries key = .ok ⟨items, hsize⟩ := by
  unfold children
  split
  · rename_i hnone
    cases h.symm.trans hnone
  · rename_i others hothers
    cases h.symm.trans hothers
    have hsize : 1 + sizeOf items < sizeOf entries := by simpa using sizeOf_lt_of_lookup h
    exact ⟨by omega, rfl⟩
  · rename_i other hlist hother
    cases h.symm.trans hother
    exact absurd rfl (hlist items)

end Document

open Document

namespace TypeRef

theorem ofDocument_toDocument (type : TypeRef) : ofDocument type.toDocument = .ok type := by
  obtain ⟨name, resolved⟩ := type
  simp only [toDocument, record, List.map, ofDocument, Document.entries, ofEntries, bind, Except.bind]
  rw [requiredText_eq_ok (by simp : _ = some (Document.text name))]
  cases resolved
  · rfl
  · rfl

theorem optionOfDocument_optionToDocument (type : Option TypeRef) :
    optionOfDocument (some (optionToDocument type)) = .ok type := by
  cases type with
  | none => rfl
  | some type =>
    show some <$> ofDocument type.toDocument = _
    rw [ofDocument_toDocument]
    rfl

theorem requiredOfDocument_toDocument (type : TypeRef) : requiredOfDocument type.toDocument = .ok type :=
  ofDocument_toDocument type

end TypeRef

/-! ### Expressions

What an expression is read from: a mapping with the kind of its root and what the kind asks for. Other entries, and the order of the entries, do not matter. -/

namespace Expr

section Kinds

variable {entries : List (Key × Document)} {items : List Document} {first second third : Document}

theorem ofDocument_of_const {value : Scalar} (hkind : lookup entries "type" = some (.text "const"))
    (hvalue : lookup entries "value" = some (.scalar value)) :
    ofDocument (.mapping entries) = .ok (const value) := by
  rw [ofDocument, hkind]
  simp only [Option.getD_some, Document.plain, Scalar.plain, required_eq_ok hvalue, bind, Except.bind]
  rfl

theorem ofDocument_of_var {name : String} (hkind : lookup entries "type" = some (.text "var"))
    (hname : lookup entries "name" = some (.text name)) : ofDocument (.mapping entries) = .ok (var name) := by
  rw [ofDocument, hkind]
  simp only [Option.getD_some, Document.plain, Scalar.plain, requiredText_eq_ok hname, bind, Except.bind]
  rfl

theorem ofDocument_of_class {type : TypeRef} (hkind : lookup entries "type" = some (.text "class"))
    (hclass : lookup entries "class" = some first) (htype : TypeRef.requiredOfDocument first = .ok type) :
    ofDocument (.mapping entries) = .ok (classRef type) := by
  rw [ofDocument, hkind]
  simp only [Option.getD_some, Document.plain, Scalar.plain, required_eq_ok hclass, htype, bind, Except.bind]
  rfl

theorem ofDocument_of_args {arguments : List Expr} (hkind : lookup entries "type" = some (.text "args"))
    (hitems : lookup entries "arguments" = some (.list items)) (harguments : ofDocuments items = .ok arguments) :
    ofDocument (.mapping entries) = .ok (args arguments) := by
  obtain ⟨hsize, hchildren⟩ := children_eq_ok .expression hitems
  rw [ofDocument, hkind]
  simp only [Option.getD_some, Document.plain, Scalar.plain, hchildren, harguments, bind, Except.bind]
  rfl

theorem ofDocument_of_call {receiver : Expr} {method : String} {arguments : List Expr}
    (hkind : lookup entries "type" = some (.text "call")) (hobject : lookup entries "object" = some first)
    (hreceiver : ofDocument first = .ok receiver) (hmethod : lookup entries "method" = some (.text method))
    (hitems : lookup entries "arguments" = some (.list items)) (harguments : ofDocuments items = .ok arguments) :
    ofDocument (.mapping entries) = .ok (call receiver method arguments) := by
  obtain ⟨hsize, hchildren⟩ := children_eq_ok .expression hitems
  rw [ofDocument, hkind]
  simp only [Option.getD_some, Document.plain, Scalar.plain, child_eq_ok hobject, hreceiver,
    requiredText_eq_ok hmethod, hchildren, harguments, bind, Except.bind]
  rfl

theorem ofDocument_of_property {receiver : Expr} {name : String}
    (hkind : lookup entries "type" = some (.text "property")) (hobject : lookup entries "object" = some first)
    (hreceiver : ofDocument first = .ok receiver) (hname : lookup entries "property" = some (.text name)) :
    ofDocument (.mapping entries) = .ok (property receiver name) := by
  rw [ofDocument, hkind]
  simp only [Option.getD_some, Document.plain, Scalar.plain, child_eq_ok hobject, hreceiver,
    requiredText_eq_ok hname, bind, Except.bind]
  rfl

theorem ofDocument_of_bool {inner : Expr} (hkind : lookup entries "type" = some (.text "bool"))
    (hentry : lookup entries "expression" = some first) (hinner : ofDocument first = .ok inner) :
    ofDocument (.mapping entries) = .ok (condition inner) := by
  rw [ofDocument, hkind]
  simp only [Option.getD_some, Document.plain, Scalar.plain, child_eq_ok hentry, hinner, bind, Except.bind]
  rfl

theorem ofDocument_of_not {operand : Expr} (hkind : lookup entries "type" = some (.text "not"))
    (hentry : lookup entries "expression" = some first) (hoperand : ofDocument first = .ok operand) :
    ofDocument (.mapping entries) = .ok (not operand) := by
  rw [ofDocument, hkind]
  simp only [Option.getD_some, Document.plain, Scalar.plain, child_eq_ok hentry, hoperand, bind, Except.bind]
  rfl

theorem ofDocument_of_ternary {test whenTrue whenFalse : Expr}
    (hkind : lookup entries "type" = some (.text "ternary"))
    (hcondition : lookup entries "condition" = some first) (htest : ofDocument first = .ok test)
    (htrue : lookup entries "true" = some second) (hwhenTrue : ofDocument second = .ok whenTrue)
    (hfalse : lookup entries "false" = some third) (hwhenFalse : ofDocument third = .ok whenFalse) :
    ofDocument (.mapping entries) = .ok (ternary test whenTrue whenFalse) := by
  rw [ofDocument, hkind]
  simp only [Option.getD_some, Document.plain, Scalar.plain, child_eq_ok hcondition, htest,
    child_eq_ok htrue, hwhenTrue, child_eq_ok hfalse, hwhenFalse, bind, Except.bind]
  rfl

end Kinds

theorem ofDocuments_toDocuments {exprs : List Expr} (h : ∀ expr ∈ exprs, ofDocument expr.toDocument = .ok expr) :
    ofDocuments (toDocuments exprs) = .ok exprs := by
  induction exprs with
  | nil => rw [toDocuments, ofDocuments]
  | cons expr rest ih =>
    obtain ⟨hexpr, hrest⟩ := List.forall_mem_cons.mp h
    rw [toDocuments, ofDocuments, hexpr, ih hrest]
    rfl

theorem ofDocument_toDocument (expr : Expr) : ofDocument expr.toDocument = .ok expr := by
  induction expr with
  | absent => rw [toDocument, ofDocument]
  | const value =>
    rw [toDocument]
    exact ofDocument_of_const (by simp) (by simp)
  | var name =>
    rw [toDocument]
    exact ofDocument_of_var (by simp) (by simp)
  | classRef type =>
    rw [toDocument]
    exact ofDocument_of_class (by simp) (by simp) (TypeRef.requiredOfDocument_toDocument type)
  | args arguments ih =>
    rw [toDocument]
    exact ofDocument_of_args (by simp) (by simp) (ofDocuments_toDocuments ih)
  | call receiver method arguments hreceiver harguments =>
    rw [toDocument]
    exact ofDocument_of_call (by simp) (by simp) hreceiver (by simp) (by simp) (ofDocuments_toDocuments harguments)
  | property receiver name ih =>
    rw [toDocument]
    exact ofDocument_of_property (by simp) (by simp) ih (by simp)
  | condition inner ih =>
    rw [toDocument]
    exact ofDocument_of_bool (by simp) (by simp) ih
  | not operand ih =>
    rw [toDocument]
    exact ofDocument_of_not (by simp) (by simp) ih
  | ternary test whenTrue whenFalse htest htrue hfalse =>
    rw [toDocument]
    exact ofDocument_of_ternary (by simp) (by simp) htest (by simp) htrue (by simp) hfalse

end Expr

/-! ### Declarations -/

namespace Modifiers

theorem insertName_word (modifiers : Modifiers) (modifier : Modifier) :
    modifiers.insertName modifier.word = .ok (modifiers.insert modifier) := by
  cases modifier <;> rfl

/-- The words of a set of modifiers, in any order, name its members. -/
theorem ofDocuments_words (list : List Modifier) :
    ofDocuments (list.map fun modifier => .text modifier.word) = .ok (ofList list) := by
  unfold ofDocuments ofList
  generalize none = start
  induction list generalizing start with
  | nil => rfl
  | cons modifier rest ih =>
    rw [List.map_cons, List.foldlM_cons, List.foldl_cons, ← ih (start.insert modifier)]
    show (Except.mapError _ (start.insertName modifier.word) >>= _) = _
    rw [insertName_word]
    rfl

theorem ofDocuments_toDocument (modifiers : Modifiers) :
    ofDocuments (modifiers.words.map .text) = .ok modifiers := by
  have hwords : modifiers.words.map Document.text = modifiers.toList.map fun modifier => .text modifier.word :=
    List.map_map ..
  rw [hwords, ofDocuments_words, ofList_toList]

end Modifiers

theorem Annotation.membersOfDocument_mapping (members : List (String × Scalar)) :
    membersOfDocument (some (.mapping (members.map fun member => (.text member.1, .scalar member.2))))
      = .ok members := by
  cases members with
  | nil => rfl
  | cons member rest => exact mapM_map_eq_ok fun _ _ => rfl

theorem Annotation.ofDocument_toDocument (mark : Annotation) : ofDocument mark.toDocument = .ok mark := by
  simp [toDocument, record, ofDocument, Document.entries, requiredText, required, asText, Function.comp_def,
    membersOfDocument_mapping, bind, Except.bind, pure, Except.pure]

theorem Parameter.ofDocument_toDocument (parameter : Parameter) :
    ofDocument parameter.toDocument = .ok parameter := by
  simp [toDocument, record, ofDocument, Document.entries, requiredText, required, asText, bind, Except.bind,
    pure, Except.pure, TypeRef.optionOfDocument_optionToDocument]

theorem Statement.ofDocument_toDocument (statement : Statement) :
    ofDocument statement.toDocument = .ok statement := by
  obtain ⟨returns, expr⟩ := statement
  cases returns <;> simp [toDocument, record, ofDocument, Document.entries, required, bind, Except.bind,
    pure, Except.pure, Expr.ofDocument_toDocument]

theorem Field.ofDocument_toDocument (field : Field) : ofDocument field.owner field.toDocument = .ok field := by
  simp [toDocument, record, ofDocument, Document.entries, requiredText, required, asText, membersOr, members,
    Modifiers.toDocument, Modifiers.ofDocuments_toDocument, TypeRef.optionOfDocument_optionToDocument,
    Expr.ofDocument_toDocument, bind, Except.bind, pure, Except.pure]

theorem Method.ofDocument_toDocument (method : Method) : ofDocument method.toDocument = .ok method := by
  simp [toDocument, record, ofDocument, Document.entries, requiredText, required, asText, membersOr, members,
    Modifiers.toDocument, Modifiers.ofDocuments_toDocument, TypeRef.optionOfDocument_optionToDocument,
    mapM_map_eq_ok fun _ _ => Parameter.ofDocument_toDocument _,
    mapM_map_eq_ok fun _ _ => Statement.ofDocument_toDocument _, bind, Except.bind, pure, Except.pure]

theorem Field.owner_of_ofDocument {owner : String} {document : Document} {field : Field}
    (h : ofDocument owner document = .ok field) : field.owner = owner := by
  unfold ofDocument at h
  obtain ⟨entries, _, h⟩ := bind_eq_ok_iff.mp h
  obtain ⟨name, _, h⟩ := bind_eq_ok_iff.mp h
  obtain ⟨_, _, h⟩ := bind_eq_ok_iff.mp h
  obtain ⟨modifiers, _, h⟩ := bind_eq_ok_iff.mp h
  obtain ⟨type, _, h⟩ := bind_eq_ok_iff.mp h
  obtain ⟨initial, _, h⟩ := bind_eq_ok_iff.mp h
  cases h
  rfl

namespace ClassDecl

/-- Every field belongs to the class that it stands in. -/
def OwnsFields (decl : ClassDecl) : Prop :=
  ∀ field ∈ decl.fields, field.owner = decl.name

theorem ofDocument_toDocument {decl : ClassDecl} (h : decl.OwnsFields) :
    ofDocument decl.toDocument = .ok decl := by
  have hfields : (decl.fields.map Field.toDocument).mapM (Field.ofDocument decl.name) = .ok decl.fields :=
    mapM_map_eq_ok fun field hfield => h field hfield ▸ Field.ofDocument_toDocument field
  simp [toDocument, record, ofDocument, Document.entries, requiredText, required, asText, membersOr, members,
    Modifiers.toDocument, Modifiers.ofDocuments_toDocument, hfields,
    mapM_map_eq_ok fun _ _ => Annotation.ofDocument_toDocument _,
    mapM_map_eq_ok fun _ _ => Method.ofDocument_toDocument _, bind, Except.bind, pure, Except.pure]

theorem ownsFields_of_ofDocument {document : Document} {decl : ClassDecl} (h : ofDocument document = .ok decl) :
    decl.OwnsFields := by
  unfold ofDocument at h
  obtain ⟨entries, _, h⟩ := bind_eq_ok_iff.mp h
  obtain ⟨name, _, h⟩ := bind_eq_ok_iff.mp h
  obtain ⟨_, _, h⟩ := bind_eq_ok_iff.mp h
  obtain ⟨modifiers, _, h⟩ := bind_eq_ok_iff.mp h
  obtain ⟨_, _, h⟩ := bind_eq_ok_iff.mp h
  obtain ⟨annotations, _, h⟩ := bind_eq_ok_iff.mp h
  obtain ⟨_, _, h⟩ := bind_eq_ok_iff.mp h
  obtain ⟨fields, hfields, h⟩ := bind_eq_ok_iff.mp h
  obtain ⟨_, _, h⟩ := bind_eq_ok_iff.mp h
  obtain ⟨methods, _, h⟩ := bind_eq_ok_iff.mp h
  cases h
  exact forall_of_mapM_eq_ok (fun _ _ => Field.owner_of_ofDocument) hfields

end ClassDecl

namespace CompilationUnit

/-- Every field of the unit belongs to the class that it stands in. -/
def OwnsFields (unit : CompilationUnit) : Prop :=
  ∀ decl ∈ unit.classes, decl.OwnsFields

theorem ofDocument_toDocument {unit : CompilationUnit} (h : unit.OwnsFields) :
    ofDocument unit.toDocument = .ok unit := by
  have hclasses : (unit.classes.map ClassDecl.toDocument).mapM ClassDecl.ofDocument = .ok unit.classes :=
    mapM_map_eq_ok fun decl hdecl => ClassDecl.ofDocument_toDocument (h decl hdecl)
  simp [toDocument, record, ofDocument, Document.entries, asScalar, membersOr, members, hclasses, bind, Except.bind,
    pure, Except.pure]

theorem ownsFields_of_ofDocument {document : Document} {unit : CompilationUnit}
    (h : ofDocument document = .ok unit) : unit.OwnsFields := by
  unfold ofDocument at h
  obtain ⟨entries, _, h⟩ := bind_eq_ok_iff.mp h
  obtain ⟨name, _, h⟩ := bind_eq_ok_iff.mp h
  obtain ⟨package, _, h⟩ := bind_eq_ok_iff.mp h
  obtain ⟨_, _, h⟩ := bind_eq_ok_iff.mp h
  obtain ⟨classes, hclasses, h⟩ := bind_eq_ok_iff.mp h
  cases h
  exact forall_of_mapM_eq_ok (fun _ _ => ClassDecl.ownsFields_of_ofDocument) hclasses

end CompilationUnit

end GuardedLogging
