import GuardedLogging.Proofs.CompilationUnit.Documents

/-!
# Units read back from sorted documents

Sorting moves the entries of a mapping, and reading asks for entries by their keys, which are distinct in the document of a unit; so nothing is lost but one thing. The members of an annotation are read in the order in which they stand, and that is then the order of their names.
-/

namespace GuardedLogging

namespace Document

variable {entries others : List (Key × Document)}

/-! ### Asking for a key of a sorted mapping -/

theorem lookup_cons_key (name : Key) (key : String) (value : Document) (rest : List (Key × Document)) :
    lookup ((name, value) :: rest) key = if name = .text key then some value else lookup rest key := by
  unfold lookup
  rw [List.find?_cons]
  by_cases h : name = .text key
  · simp [h]
  · simp [h, beq_false_of_ne h]

/-- With distinct keys the answers are the entries. -/
theorem lookup_eq_some_iff (hkeys : (entries.map Prod.fst).Nodup) {key : String} {value : Document} :
    lookup entries key = some value ↔ (.text key, value) ∈ entries := by
  induction entries with
  | nil => simp
  | cons entry rest ih =>
    obtain ⟨name, document⟩ := entry
    obtain ⟨hnew, hrest⟩ := List.nodup_cons.mp hkeys
    rw [List.mem_cons, ← ih hrest, lookup_cons_key, Prod.mk.injEq]
    by_cases hname : name = .text key
    · subst hname
      have hnone : lookup rest key ≠ some value := fun hfound =>
        hnew (List.mem_map.mpr ⟨_, (ih hrest).mp hfound, rfl⟩)
      simp [hnone, eq_comm]
    · simp [hname, Ne.symm hname]

/-- With distinct keys the order of the entries does not matter. -/
theorem lookup_eq_of_perm (hperm : entries.Perm others) (hkeys : (entries.map Prod.fst).Nodup) (key : String) :
    lookup entries key = lookup others key := by
  have hothers : (others.map Prod.fst).Nodup := (hperm.map Prod.fst).nodup_iff.mp hkeys
  ext value
  rw [lookup_eq_some_iff hkeys, lookup_eq_some_iff hothers]
  exact hperm.mem_iff

theorem sortedItems_eq_map (items : List Document) : sortedItems items = items.map sorted := by
  induction items with
  | nil => rw [sortedItems, List.map_nil]
  | cons item rest ih => rw [sortedItems, List.map_cons, ih]

theorem sortedEntries_eq_map (entries : List (Key × Document)) :
    sortedEntries entries = entries.map fun entry => (entry.1, entry.2.sorted) := by
  induction entries with
  | nil => rw [sortedEntries, List.map_nil]
  | cons entry rest ih => rw [sortedEntries, List.map_cons, ih]

@[simp] theorem sorted_scalar (value : Scalar) : sorted (.scalar value) = .scalar value := by
  rw [sorted]

@[simp] theorem sorted_list (items : List Document) : sorted (.list items) = .list (items.map sorted) := by
  rw [sorted, sortedItems_eq_map]

theorem sorted_record (fields : List (String × Document)) :
    (record fields).sorted
      = .mapping (sortEntries (fields.map fun field => (.text field.1, field.2.sorted))) := by
  rw [record, sorted, sortedEntries_eq_map, List.map_map]
  rfl

theorem lookup_sortEntries {fields : List (String × Document)} (hkeys : (fields.map Prod.fst).Nodup) (key : String) :
    lookup (sortEntries (fields.map fun field => (.text field.1, field.2.sorted))) key
      = (fields.lookup key).map sorted := by
  have hnames : ((fields.map fun field => (Key.text field.1, field.2.sorted)).map Prod.fst).Nodup := by
    rw [List.map_map]
    exact List.pairwise_map.mpr ((List.pairwise_map.mp hkeys).imp fun hne heq => hne (Scalar.text.inj (Key.scalar.inj heq)))
  rw [sortEntries, ← lookup_eq_of_perm (List.mergeSort_perm _ _).symm hnames]
  clear hkeys hnames
  induction fields with
  | nil => rfl
  | cons field rest ih =>
    rw [List.map_cons, lookup_cons, ih, List.lookup_cons]
    by_cases hname : field.1 = key
    · simp [hname]
    · simp [hname, beq_false_of_ne (Ne.symm hname)]

/-- What is read of a sorted mapping is read by asking for keys, and each key is answered with its sorted value. -/
theorem read_sorted_record {α : Type} {read : Document → Except ShapeError α} {fields : List (String × Document)}
    {result : α} (hkeys : (fields.map Prod.fst).Nodup)
    (h : ∀ entries, (∀ key, lookup entries key = (fields.lookup key).map sorted) → read (.mapping entries) = .ok result) :
    read (record fields).sorted = .ok result := by
  rw [sorted_record]
  exact h _ (lookup_sortEntries hkeys)

end Document

open Document

/-! ### Expressions -/

namespace TypeRef

theorem ofDocument_sorted (type : TypeRef) : ofDocument type.toDocument.sorted = .ok type := by
  rw [toDocument]
  refine read_sorted_record (by simp) fun entries hlookup => ?_
  have hname : requiredText entries "name" = .ok type.name := requiredText_eq_ok (by simp [hlookup])
  simp [ofDocument, Document.entries, ofEntries, hname, hlookup, List.lookup_cons, Document.isTrue, Scalar.isTrue, bind,
    Except.bind, pure, Except.pure]

theorem requiredOfDocument_sorted (type : TypeRef) : requiredOfDocument type.toDocument.sorted = .ok type := by
  have htype := ofDocument_sorted type
  rw [toDocument, sorted_record] at htype ⊢
  exact htype

theorem optionOfDocument_sorted (type : Option TypeRef) :
    optionOfDocument (some (optionToDocument type).sorted) = .ok type := by
  cases type with
  | none =>
    rw [optionToDocument, sorted_scalar]
    rfl
  | some type =>
    have htype := ofDocument_sorted type
    rw [optionToDocument]
    rw [toDocument, sorted_record] at htype ⊢
    show some <$> ofDocument (.mapping _) = _
    rw [htype]
    rfl

end TypeRef

namespace Expr

theorem ofDocuments_sorted {exprs : List Expr}
    (h : ∀ expr ∈ exprs, ofDocument expr.toDocument.sorted = .ok expr) :
    ofDocuments ((toDocuments exprs).map sorted) = .ok exprs := by
  induction exprs with
  | nil => rw [toDocuments, List.map_nil, ofDocuments]
  | cons expr rest ih =>
    obtain ⟨hexpr, hrest⟩ := List.forall_mem_cons.mp h
    rw [toDocuments, List.map_cons, ofDocuments, hexpr, ih hrest]
    rfl

theorem ofDocument_sorted (expr : Expr) : ofDocument expr.toDocument.sorted = .ok expr := by
  induction expr with
  | absent => rw [toDocument, sorted_scalar, ofDocument]
  | const value =>
    rw [toDocument]
    refine read_sorted_record (by simp) fun entries hlookup => ?_
    exact ofDocument_of_const (by simp [hlookup]) (by simp [hlookup, List.lookup_cons])
  | var name =>
    rw [toDocument]
    refine read_sorted_record (by simp) fun entries hlookup => ?_
    exact ofDocument_of_var (by simp [hlookup]) (by simp [hlookup, List.lookup_cons])
  | classRef type =>
    rw [toDocument]
    refine read_sorted_record (by simp) fun entries hlookup => ?_
    exact ofDocument_of_class (by simp [hlookup]) (by simp [hlookup, List.lookup_cons])
      (TypeRef.requiredOfDocument_sorted type)
  | args arguments ih =>
    rw [toDocument]
    refine read_sorted_record (by simp) fun entries hlookup => ?_
    exact ofDocument_of_args (by simp [hlookup]) (by simp [hlookup, List.lookup_cons])
      (ofDocuments_sorted ih)
  | call receiver method arguments hreceiver harguments =>
    rw [toDocument]
    refine read_sorted_record (by simp) fun entries hlookup => ?_
    exact ofDocument_of_call (by simp [hlookup]) (by simp [hlookup, List.lookup_cons]) hreceiver
      (by simp [hlookup, List.lookup_cons]) (by simp [hlookup, List.lookup_cons]) (ofDocuments_sorted harguments)
  | property receiver name ih =>
    rw [toDocument]
    refine read_sorted_record (by simp) fun entries hlookup => ?_
    exact ofDocument_of_property (by simp [hlookup]) (by simp [hlookup, List.lookup_cons]) ih
      (by simp [hlookup, List.lookup_cons])
  | condition inner ih =>
    rw [toDocument]
    refine read_sorted_record (by simp) fun entries hlookup => ?_
    exact ofDocument_of_bool (by simp [hlookup]) (by simp [hlookup, List.lookup_cons]) ih
  | not operand ih =>
    rw [toDocument]
    refine read_sorted_record (by simp) fun entries hlookup => ?_
    exact ofDocument_of_not (by simp [hlookup]) (by simp [hlookup, List.lookup_cons]) ih
  | ternary test whenTrue whenFalse htest htrue hfalse =>
    rw [toDocument]
    refine read_sorted_record (by simp) fun entries hlookup => ?_
    exact ofDocument_of_ternary (by simp [hlookup]) (by simp [hlookup, List.lookup_cons]) htest
      (by simp [hlookup, List.lookup_cons]) htrue (by simp [hlookup, List.lookup_cons]) hfalse

end Expr

/-! ### Declarations -/

theorem Modifiers.sorted_toDocument (modifiers : Modifiers) :
    modifiers.toDocument.sorted = .list (modifiers.words.map .text) := by
  rw [toDocument, sorted_list, List.map_map]
  exact congrArg Document.list (List.map_congr_left fun word _ => sorted_scalar (.text word))

/-- The annotation with its members in the order of their names. -/
def Annotation.ordered (mark : Annotation) : Annotation :=
  { mark with members := mark.members.mergeSort fun left right => left.1 ≤ right.1 }

theorem Annotation.ofDocument_sorted (mark : Annotation) : ofDocument mark.toDocument.sorted = .ok mark.ordered := by
  have hmembers : (record (mark.members.map fun member => (member.1, .scalar member.2))).sorted
      = .mapping (mark.ordered.members.map fun member => (.text member.1, .scalar member.2)) := by
    simp only [sorted_record, List.map_map, Function.comp_def, sorted_scalar, sortEntries]
    rw [ordered, List.map_mergeSort]
    exact fun _ _ _ _ => rfl
  rw [toDocument]
  refine read_sorted_record (by simp) fun entries hlookup => ?_
  simp [ofDocument, Document.entries, requiredText, required, asText, hlookup, List.lookup_cons, hmembers,
    membersOfDocument_mapping, bind, Except.bind, pure, Except.pure]
  rfl

theorem Parameter.ofDocument_sorted (parameter : Parameter) :
    ofDocument parameter.toDocument.sorted = .ok parameter := by
  rw [toDocument]
  refine read_sorted_record (by simp) fun entries hlookup => ?_
  simp [ofDocument, Document.entries, requiredText, required, asText, hlookup, List.lookup_cons,
    TypeRef.optionOfDocument_sorted, bind, Except.bind, pure, Except.pure]

theorem Statement.ofDocument_sorted (statement : Statement) :
    ofDocument statement.toDocument.sorted = .ok statement := by
  obtain ⟨returns, expr⟩ := statement
  rw [toDocument]
  refine read_sorted_record (by simp) fun entries hlookup => ?_
  cases returns <;> simp [ofDocument, Document.entries, required, hlookup, List.lookup_cons,
    Expr.ofDocument_sorted, bind, Except.bind, pure, Except.pure]

theorem Field.ofDocument_sorted (field : Field) : ofDocument field.owner field.toDocument.sorted = .ok field := by
  rw [toDocument]
  refine read_sorted_record (by simp) fun entries hlookup => ?_
  simp [ofDocument, Document.entries, requiredText, required, asText, membersOr, members, hlookup, List.lookup_cons,
    Modifiers.sorted_toDocument, Modifiers.ofDocuments_toDocument,
    TypeRef.optionOfDocument_sorted, Expr.ofDocument_sorted, bind, Except.bind, pure, Except.pure]

theorem Method.ofDocument_sorted (method : Method) : ofDocument method.toDocument.sorted = .ok method := by
  rw [toDocument]
  refine read_sorted_record (by simp) fun entries hlookup => ?_
  have hparameters : (method.parameters.map (sorted ∘ Parameter.toDocument)).mapM Parameter.ofDocument
      = .ok method.parameters := mapM_map_eq_ok fun _ _ => Parameter.ofDocument_sorted _
  have hbody : (method.body.map (sorted ∘ Statement.toDocument)).mapM Statement.ofDocument
      = .ok method.body := mapM_map_eq_ok fun _ _ => Statement.ofDocument_sorted _
  simp [ofDocument, Document.entries, requiredText, required, asText, membersOr, members, hlookup, List.lookup_cons,
    Modifiers.sorted_toDocument, Modifiers.ofDocuments_toDocument,
    TypeRef.optionOfDocument_sorted, hparameters, hbody, bind, Except.bind, pure, Except.pure]

namespace ClassDecl

/-- The class with the members of each annotation in the order of their names. -/
def ordered (decl : ClassDecl) : ClassDecl :=
  { decl with annotations := decl.annotations.map Annotation.ordered }

theorem ofDocument_sorted {decl : ClassDecl} (h : decl.OwnsFields) :
    ofDocument decl.toDocument.sorted = .ok decl.ordered := by
  rw [toDocument]
  refine read_sorted_record (by simp) fun entries hlookup => ?_
  have hannotations : (decl.annotations.map (sorted ∘ Annotation.toDocument)).mapM Annotation.ofDocument
      = .ok (decl.annotations.map Annotation.ordered) := mapM_map_eq_map fun _ _ => Annotation.ofDocument_sorted _
  have hfields : (decl.fields.map (sorted ∘ Field.toDocument)).mapM (Field.ofDocument decl.name) = .ok decl.fields :=
    mapM_map_eq_ok fun field hfield => h field hfield ▸ Field.ofDocument_sorted field
  have hmethods : (decl.methods.map (sorted ∘ Method.toDocument)).mapM Method.ofDocument = .ok decl.methods :=
    mapM_map_eq_ok fun _ _ => Method.ofDocument_sorted _
  simp [ofDocument, Document.entries, requiredText, required, asText, membersOr, members, hlookup, List.lookup_cons,
    Modifiers.sorted_toDocument, Modifiers.ofDocuments_toDocument, hannotations, hfields, hmethods, ordered, bind,
    Except.bind, pure, Except.pure]

end ClassDecl

namespace CompilationUnit

/-- The unit with the members of each annotation in the order of their names. -/
def ordered (unit : CompilationUnit) : CompilationUnit :=
  { unit with classes := unit.classes.map ClassDecl.ordered }

/-- A unit whose fields belong to their classes comes back from its sorted document, but for the order of the members of its annotations. -/
theorem ofDocument_sorted {unit : CompilationUnit} (h : unit.OwnsFields) :
    ofDocument unit.toDocument.sorted = .ok unit.ordered := by
  rw [toDocument]
  refine read_sorted_record (by simp) fun entries hlookup => ?_
  have hclasses : (unit.classes.map (sorted ∘ ClassDecl.toDocument)).mapM ClassDecl.ofDocument
      = .ok (unit.classes.map ClassDecl.ordered) :=
    mapM_map_eq_map fun decl hdecl => ClassDecl.ofDocument_sorted (h decl hdecl)
  simp [ofDocument, Document.entries, asScalar, membersOr, members, hlookup, List.lookup_cons, hclasses, ordered, bind,
    Except.bind, pure, Except.pure]

end CompilationUnit

end GuardedLogging
