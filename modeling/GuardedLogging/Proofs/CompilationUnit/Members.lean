import GuardedLogging.Proofs.CompilationUnit.Methods

/-!
# Members are read back

A member is a method if a parenthesis follows its name, and a field otherwise. A field without an initial value ends with its name, so no expression may follow it; what follows is another member or the end of the class.
-/

namespace GuardedLogging

open Cursor

variable {cut : Scan.Cutting} {scope : NameScope} {localTypes : List String} {lastLine : Nat}
  {tokens rest : List Token}

namespace Member

theorem gives_parseInitial_iff {expr : Expr} :
    Gives (parseInitial lastLine tokens) expr rest ↔
      (∃ line after, tokens = ⟨.op '=', line⟩ :: after ∧
        Gives (Expr.parseTernary lastLine after) expr rest) ∨
      (symbol? '=' tokens = none ∧ expr = .absent ∧ rest = tokens) := by
  refine iff_symbol_or ?_ fun hnone => ?_
  · rintro line after rfl
    rw [parseInitial]
    simp only [symbol?_cons, Step.next, Gives.bind_iff, Gives.pure_iff, Step.optional_value,
      Step.optional_rest, Step.after_value, Step.after_rest]
    constructor
    · rintro ⟨_, _, hexpr, rfl, rfl⟩
      exact hexpr
    · exact fun hexpr => ⟨expr, rest, hexpr, rfl, rfl⟩
  · rw [parseInitial, hnone]
    exact Gives.stay_iff

theorem gives_parseField_iff {field : Field} {member : Member} :
    Gives (parseField lastLine field tokens) member rest ↔
      ∃ initial middle, Gives (parseInitial lastLine tokens) initial middle ∧
        rest = dropSemicolons middle ∧ member = .field { field with initial } := by
  rw [parseField]
  simp only [Gives.bind_iff, Gives.pure_iff, Step.map_value, Step.map_rest]
  constructor
  · rintro ⟨initial, middle, hinitial, rfl, rfl⟩
    exact ⟨initial, middle, hinitial, rfl, rfl⟩
  · rintro ⟨initial, middle, hinitial, rfl, rfl⟩
    exact ⟨initial, middle, hinitial, rfl, rfl⟩

theorem gives_parse_iff {className : String} {fields : List Field} {member : Member} :
    Gives (parse scope lastLine className fields tokens) member rest ↔
      symbol? '@' tokens = none ∧ ∃ modifiers afterModifiers type name nameLine afterName,
        Gives (Modifiers.parse .none tokens) modifiers afterModifiers ∧
        Gives (parseType scope lastLine afterModifiers) type (⟨.word name, nameLine⟩ :: afterName) ∧
        isKeyword name = false ∧
        ((∃ line inside, afterName = ⟨.op '(', line⟩ :: inside ∧
            Gives (parseMethod scope lastLine name modifiers type inside) member rest) ∨
          (symbol? '(' afterName = none ∧ name ∉ fields.map (·.name) ∧
            Gives (parseField lastLine { name, modifiers, type, owner := className } afterName) member
              rest)) := by
  rw [parse]
  cases hsign : startsWith '@' tokens with
  | true =>
    have hsome : symbol? '@' tokens ≠ none := fun hnone => by
      rw [startsWith_eq_false_iff.mpr hnone] at hsign
      cases hsign
    simp [hsome]
  | false =>
    simp only [Bool.false_eq_true, if_false, startsWith_eq_false_iff.mp hsign, true_and]
    constructor
    · intro h
      obtain ⟨modifiers, afterModifiers, hmodifiers, hnext⟩ := Gives.bind_iff.mp h
      obtain ⟨type, _, htype, hmore⟩ := Gives.bind_iff.mp hnext
      obtain ⟨name, afterName, hname, hmember⟩ := Gives.bind_iff.mp hmore
      obtain ⟨nameLine, rfl, hkeyword⟩ := gives_identifier_iff.mp hname
      refine ⟨modifiers, afterModifiers, type, name, nameLine, afterName, hmodifiers, htype, hkeyword, ?_⟩
      rcases eq_cons_or_symbol?_eq_none '(' afterName with ⟨line, inside, rfl⟩ | hnone
      · simp only [symbol?_cons, Step.next, Gives.bind_iff, Gives.pure_iff, Step.after_value,
          Step.after_rest, Step.afterOptional_value, Step.afterOptional_rest] at hmember
        obtain ⟨_, _, hmethod, rfl, rfl⟩ := hmember
        exact .inl ⟨line, inside, rfl, hmethod⟩
      · cases hany : fields.any (·.name == name) with
        | true =>
          simp only [hnone, hany, if_true] at hmember
          exact (Gives.fail_iff.mp hmember).elim
        | false =>
          simp only [hnone, hany, Bool.false_eq_true, if_false, Gives.bind_iff, Gives.pure_iff,
            Step.after_value, Step.after_rest, Step.afterOptional_value, Step.afterOptional_rest,
            Step.weaken_value, Step.weaken_rest] at hmember
          obtain ⟨_, _, hfield, rfl, rfl⟩ := hmember
          exact .inr ⟨hnone, any_name_eq_false_iff.mp hany, hfield⟩
    · rintro ⟨modifiers, afterModifiers, type, name, nameLine, afterName, hmodifiers, htype, hkeyword,
        hmember⟩
      refine Gives.bind_iff.mpr ⟨modifiers, afterModifiers, hmodifiers, ?_⟩
      refine Gives.bind_iff.mpr ⟨type, _, htype, ?_⟩
      refine Gives.bind_iff.mpr ⟨name, afterName, gives_identifier_iff.mpr ⟨nameLine, rfl, hkeyword⟩, ?_⟩
      rcases hmember with ⟨line, inside, rfl, hmethod⟩ | ⟨hnone, hnew, hfield⟩
      · simp only [symbol?_cons, Step.next, Gives.bind_iff, Gives.pure_iff, Step.after_value,
          Step.after_rest, Step.afterOptional_value, Step.afterOptional_rest]
        exact ⟨member, rest, hmethod, rfl, rfl⟩
      · have hany : fields.any (·.name == name) = false := any_name_eq_false_iff.mpr hnew
        simp only [hnone, hany, Bool.false_eq_true, if_false, Gives.bind_iff, Gives.pure_iff,
          Step.after_value, Step.after_rest, Step.afterOptional_value, Step.afterOptional_rest,
          Step.weaken_value, Step.weaken_rest]
        exact ⟨member, rest, hfield, rfl, rfl⟩

end Member

/-! ### Fields -/

theorem Expr.eq_absent_of_isAbsent {expr : Expr} (h : expr.isAbsent = true) : expr = .absent := by
  cases expr with
  | absent => rfl
  | _ => cases h

namespace Field

/-- A source can say the field of this class if it can say its type and its initial value. -/
structure IsWritten (types : TypeRef → Prop) (exprs : Expr → Prop) (owner : String) (field : Field) :
    Prop where
  name : isName field.name = true
  type : ∀ known ∈ field.type, types known
  initial : field.initial = .absent ∨ exprs field.initial
  owner : field.owner = owner

theorem IsWritten.imp {types otherTypes : TypeRef → Prop} {exprs otherExprs : Expr → Prop}
    {owner : String} {field : Field} (h : field.IsWritten types exprs owner)
    (htype : ∀ known ∈ field.type, types known → otherTypes known)
    (hinitial : ¬field.initial.isAbsent = true → exprs field.initial → otherExprs field.initial) :
    field.IsWritten otherTypes otherExprs owner where
  name := h.name
  type := fun known hknown => htype known hknown (h.type known hknown)
  initial := by
    by_cases habsent : field.initial.isAbsent = true
    · exact .inl (Expr.eq_absent_of_isAbsent habsent)
    · exact h.initial.imp_right (hinitial habsent)
  owner := h.owner

/-- The field as it is read in the scope. -/
def reread (scope : NameScope) (localTypes : List String) (field : Field) : Field :=
  { field with
    type := field.type.map (TypeRef.reread scope localTypes)
    initial := field.initial.reread localTypes }

/-- The field as it is read if its type means itself in the scope and no number changes. -/
def asRead (localTypes : List String) (field : Field) : Field :=
  { field with type := field.type.map TypeRef.asRead, initial := field.initial.asRead localTypes }

theorem asRead_of_isParsed {field : Field} {owner : String}
    (h : field.IsWritten TypeRef.IsParsed Expr.IsParsed owner) : field.asRead localTypes = field := by
  have hinitial : field.initial.asRead localTypes = field.initial := by
    rcases h.initial with habsent | hparsed
    · rw [habsent]
      rfl
    · exact Expr.asRead_of_isParsed localTypes hparsed
  rw [asRead, TypeRef.map_asRead_of_isParsed h.type, hinitial]

theorem reread_eq {field : Field} {owner : String}
    (h : field.IsWritten (TypeRef.IsReadBack scope localTypes) (Expr.IsExact localTypes) owner) :
    field.reread scope localTypes = field.asRead localTypes := by
  have hinitial : field.initial.reread localTypes = field.initial.asRead localTypes := by
    rcases h.initial with habsent | hexact
    · rw [habsent]
      rfl
    · exact Expr.reread_eq_asRead hexact
  rw [reread, asRead, TypeRef.map_reread_eq h.type, hinitial]

/-- The lexemes of an initial value with the sign in front of it, or none. -/
def initialLexemes (localTypes : List String) (field : Field) : List Lexeme :=
  if field.initial.isAbsent then [] else .op '=' :: field.initial.lexemes localTypes

/-- The lexemes of a field as it is written. -/
def lexemes (localTypes : List String) (field : Field) : List Lexeme :=
  headLexemes localTypes field.modifiers field.type
    ++ .word field.name :: field.initialLexemes localTypes

theorem IsWritten.exprs_initial {field : Field} {owner : String} {types : TypeRef → Prop}
    {exprs : Expr → Prop} (h : field.IsWritten types exprs owner)
    (habsent : ¬field.initial.isAbsent = true) : exprs field.initial := by
  rcases h.initial with hinitial | hexprs
  · rw [hinitial] at habsent
    exact absurd rfl habsent
  · exact hexprs

theorem spells_toSource {field : Field} {owner : String}
    (h : field.IsWritten (TypeRef.IsSaid localTypes) (Expr.IsSpelled cut localTypes) owner) :
    Spells cut (field.toSource localTypes) (field.lexemes localTypes) := by
  intro rest next hbreaks tail
  have hhead : Spells cut (declarationHead localTypes field.modifiers field.type)
      (headLexemes localTypes field.modifiers field.type) := spells_declarationHead h.type
  have hname := isWord_of_isName h.name
  unfold toSource lexemes initialLexemes
  split
  · simp only [String.toList_append, String.reduceToList, List.append_assoc, List.cons_append,
      List.nil_append]
    exact hhead _ _ (Scan.breaks_blank (by decide) _) (Scan.cut_blank (by decide)
      (Scan.cut_word hname hbreaks tail))
  · rename_i habsent
    have hinitial := Expr.spells_toSource (h.exprs_initial habsent)
    simp only [String.toList_append, String.reduceToList, List.append_assoc, List.cons_append,
      List.nil_append]
    exact hhead _ _ (Scan.breaks_blank (by decide) _) (Scan.cut_blank (by decide)
      (Scan.cut_word hname (Scan.breaks_blank (by decide) _) (Scan.cut_blank (by decide)
        (Scan.cut_symbol (by decide) (Scan.cut_blank (by decide) (hinitial _ _ hbreaks tail))))))

theorem reads_parseInitial {field : Field} {owner : String} {types : TypeRef → Prop}
    (h : field.IsWritten types (Expr.IsWritten localTypes) owner) {after : List Lexeme}
    (hends : Expr.Ends true after) (hsign : NotNext '=' after) :
    Reads (Member.parseInitial lastLine) (field.initialLexemes localTypes ++ after)
      (field.initial.reread localTypes) after := by
  intro tokens htokens
  unfold initialLexemes at htokens
  split at htokens
  · rename_i habsent
    refine ⟨tokens, Member.gives_parseInitial_iff.mpr (.inr ⟨?_, ?_, rfl⟩), htokens⟩
    · exact hsign.symbol?_eq_none htokens
    · rw [Expr.eq_absent_of_isAbsent habsent]
      rfl
  · rename_i habsent
    obtain ⟨line, inside, rfl, hinside⟩ := exists_of_map_lexeme_eq_cons htokens
    obtain ⟨rest, hexpr, hrest⟩ :=
      Expr.reads_lexemes (h.exprs_initial habsent) hends.weaken inside hinside
    exact ⟨rest, Member.gives_parseInitial_iff.mpr (.inl ⟨line, inside, rfl, hexpr⟩), hrest⟩

end Field

/-! ### Members -/

namespace Member

/-- What may stand behind a member: a word, or the end of the class. -/
structure Follows (after : List Lexeme) : Prop where
  ends : Expr.Ends true after
  sign : NotNext '=' after
  semicolon : NotNext ';' after

theorem Follows.word (word : String) (after : List Lexeme) : Follows (.word word :: after) :=
  ⟨⟨notNext_word _ _ _, fun _ => notNext_word _ _ _, notNext_word _ _ _⟩, notNext_word _ _ _, notNext_word _ _ _⟩

theorem Follows.close (after : List Lexeme) : Follows (.op '\x7d' :: after) :=
  ⟨Expr.ends_symbol (by decide) (by decide) (by decide) true after, notNext_symbol (by decide) after,
    notNext_symbol (by decide) after⟩

theorem Follows.head {modifiers : Modifiers} {type : Option TypeRef}
    (h : ∀ known ∈ type, TypeRef.IsSaid localTypes known) (after : List Lexeme) :
    Follows (headLexemes localTypes modifiers type ++ after) :=
  ⟨⟨notNext_headLexemes h _ _, fun _ => notNext_headLexemes h _ _, notNext_headLexemes h _ _⟩,
    notNext_headLexemes h _ _, notNext_headLexemes h _ _⟩

theorem reads_field {className : String} {fields : List Field} {field : Field}
    (h : field.IsWritten (TypeRef.IsSaid localTypes) (Expr.IsWritten localTypes) className)
    (hnew : field.name ∉ fields.map (·.name)) {after : List Lexeme} (hafter : Follows after) :
    Reads (parse scope lastLine className fields) (field.lexemes localTypes ++ after)
      (.field (field.reread scope localTypes)) after := by
  intro tokens htokens
  rw [Field.lexemes, List.append_assoc, List.cons_append] at htokens
  obtain ⟨afterModifiers, nameLine, afterName, hmodifiers, htype, hname⟩ := reads_head h.type htokens
  obtain ⟨rest, hinitial, hrest⟩ := Field.reads_parseInitial h hafter.ends hafter.sign afterName hname
  have hopen : NotNext '(' (field.initialLexemes localTypes ++ after) := by
    unfold Field.initialLexemes
    split
    · exact hafter.ends.call rfl
    · exact notNext_symbol (by decide) _
  have hsign : symbol? '@' tokens = none := (notNext_headLexemes h.type '@' _).symbol?_eq_none htokens
  have hfield : { field with
      type := field.type.map (TypeRef.reread scope localTypes),
      initial := field.initial.reread localTypes, owner := className }
      = field.reread scope localTypes := by
    rw [Field.reread, ← h.owner]
  refine ⟨rest, gives_parse_iff.mpr ⟨hsign, _, afterModifiers, _, field.name, nameLine, afterName,
    hmodifiers, htype, isKeyword_of_isName h.name, .inr ⟨hopen.symbol?_eq_none hname, hnew, ?_⟩⟩, hrest⟩
  refine gives_parseField_iff.mpr ⟨_, rest, hinitial, ?_, congrArg Member.field hfield.symm⟩
  exact (hafter.semicolon.dropSemicolons_eq hrest).symm

theorem gives_method_iff {className : String} {fields : List Field} {method : Method}
    (h : method.IsWritten (TypeRef.IsSaid localTypes) (Expr.IsWritten localTypes)) {after : List Lexeme}
    (htokens : tokens.map Token.lexeme = method.lexemes localTypes ++ after) :
    ∃ inside, inside.map Token.lexeme
        = method.body.flatMap (Statement.lexemes localTypes) ++ .op '\x7d' :: after ∧
      ∀ member rest, Gives (parse scope lastLine className fields tokens) member rest ↔
        ∃ body, Gives (Statement.parseBody lastLine method.name inside) body rest ∧
          member = .method { method.reread scope localTypes with body } := by
  rw [Method.lexemes, List.append_assoc, List.cons_append] at htokens
  have hsign : symbol? '@' tokens = none :=
    (notNext_headLexemes h.returnType '@' _).symbol?_eq_none htokens
  obtain ⟨afterModifiers, nameLine, afterName, hmodifiers, htype, hname⟩ :=
    reads_head h.returnType htokens
  rw [Method.tailLexemes, List.cons_append, List.append_assoc, List.cons_append, List.cons_append,
    List.append_assoc] at hname
  obtain ⟨line, tail, rfl, htail⟩ := exists_of_map_lexeme_eq_cons hname
  obtain ⟨inside, hinside, hmethod⟩ := Method.gives_parseMethod_iff_of_lexemes h htail
  refine ⟨inside, hinside, fun member rest => (Iff.trans ?_ (hmethod member rest))⟩
  rw [gives_parse_iff]
  constructor
  · rintro ⟨_, _, _, _, _, _, _, hfound, hother, _, hmember⟩
    obtain ⟨rfl, rfl⟩ := hmodifiers.unique hfound
    obtain ⟨rfl, hcons⟩ := htype.unique hother
    cases hcons
    rcases hmember with ⟨_, _, hcons, hmember⟩ | ⟨hnone, _⟩
    · cases hcons
      exact hmember
    · rw [symbol?_cons] at hnone
      cases hnone
  · intro hmember
    exact ⟨hsign, _, afterModifiers, _, method.name, nameLine, _, hmodifiers, htype,
      isKeyword_of_isName h.name, .inl ⟨line, tail, rfl, hmember⟩⟩

theorem reads_method {className : String} {fields : List Field} {method : Method}
    (h : method.IsWritten (TypeRef.IsSaid localTypes) (Expr.IsWritten localTypes))
    (hapart : method.KeepsApart localTypes) (after : List Lexeme) :
    Reads (parse scope lastLine className fields) (method.lexemes localTypes ++ after)
      (.method (method.reread scope localTypes)) after := by
  intro tokens htokens
  obtain ⟨inside, hinside, hgives⟩ := gives_method_iff h htokens
  obtain ⟨rest, hbody, hrest⟩ := Statement.reads_parseBody h.body hapart after inside hinside
  exact ⟨rest, (hgives _ rest).mpr ⟨_, hbody, rfl⟩, hrest⟩

theorem leaves_of_parseField {field : Field} {member : Member}
    (h : Gives (parseField lastLine field tokens) member rest) : Leaves tokens rest := by
  obtain ⟨initial, middle, hinitial, rfl, _⟩ := gives_parseField_iff.mp h
  rcases gives_parseInitial_iff.mp hinitial with ⟨line, after, rfl, hexpr⟩ | ⟨_, _, rfl⟩
  · exact ((Expr.leaves_of_parseTernary hexpr).cons _).dropSemicolons
  · exact (Leaves.refl _).dropSemicolons

theorem leaves_of_parse {className : String} {fields : List Field} {member : Member}
    (h : Gives (parse scope lastLine className fields tokens) member rest) : Leaves tokens rest := by
  obtain ⟨_, modifiers, afterModifiers, type, name, nameLine, afterName, hmodifiers, htype, _, hmember⟩ :=
    gives_parse_iff.mp h
  have hfront := (Modifiers.leaves_of_parse hmodifiers).trans (leaves_of_parseType htype).tail
  rcases hmember with ⟨line, inside, rfl, hmethod⟩ | ⟨_, _, hfield⟩
  · exact hfront.tail.trans (Method.leaves_of_parseMethod hmethod)
  · exact hfront.trans (leaves_of_parseField hfield)

theorem isParsed_of_parse {className : String} {fields : List Field} {member : Member}
    (hscope : scope.IsWritten) (hwords : AreWords (tokens.map Token.lexeme))
    (h : Gives (parse scope lastLine className fields tokens) member rest) :
    (∃ field : Field, member = .field field ∧ field.name ∉ fields.map (·.name) ∧
        field.IsWritten TypeRef.IsParsed Expr.IsParsed className) ∨
      (∃ method : Method, member = .method method ∧
        method.IsWritten TypeRef.IsParsed Expr.IsParsed) := by
  obtain ⟨_, modifiers, afterModifiers, type, name, nameLine, afterName, hmodifiers, htype, hkeyword,
    hmember⟩ := gives_parse_iff.mp h
  have hmiddle := (Modifiers.leaves_of_parse hmodifiers).areWords hwords
  have hknown := isParsed_of_parseType hscope hmiddle htype
  have hafter := (leaves_of_parseType htype).areWords hmiddle
  have hname : isName name = true := hafter.isName_head hkeyword
  rcases hmember with ⟨line, inside, rfl, hmethod⟩ | ⟨_, hnew, hfield⟩
  · exact .inr (Method.isParsed_of_parseMethod hscope hname hknown hafter.tail.tail hmethod)
  · obtain ⟨initial, middle, hinitial, rfl, rfl⟩ := gives_parseField_iff.mp hfield
    rcases gives_parseInitial_iff.mp hinitial with ⟨line, after, rfl, hexpr⟩ | ⟨_, rfl, rfl⟩
    · have hparsed := Expr.isParsed_of_gives hafter.tail.tail hexpr
      exact .inl ⟨_, rfl, hnew, ⟨hname, hknown, .inr hparsed, rfl⟩⟩
    · exact .inl ⟨_, rfl, hnew, ⟨hname, hknown, .inl rfl, rfl⟩⟩

end Member

end GuardedLogging
