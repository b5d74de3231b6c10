import GuardedLogging.CompilationUnit.Parse
import GuardedLogging.CompilationUnit.Source
import GuardedLogging.Proofs.CompilationUnit.Names
import GuardedLogging.Proofs.Expr.Parsed

/-!
# Annotations are read back

A written annotation shows its members in one of three ways, and each is read as the same members, numbers with a fraction apart. An annotation that was read can be written.
-/

namespace GuardedLogging

open Cursor

variable {lastLine : Nat} {tokens rest : List Token}

namespace Annotation

theorem gives_parseValue_iff {value : Scalar} :
    Gives (parseValue lastLine tokens) value rest ↔
      (∃ lexeme line, tokens = ⟨lexeme, line⟩ :: rest ∧ Expr.Leaf lexeme (.const value)) ∨
      (∃ name, Gives (dottedName lastLine tokens) name rest ∧ value = .text name) := by
  constructor
  · intro h
    unfold parseValue at h
    split at h
    · rename_i text line after
      obtain ⟨rfl, rfl⟩ := Gives.ok_iff.mp h
      exact .inl ⟨_, line, rfl, .literal text⟩
    · rename_i text line after
      obtain ⟨rfl, rfl⟩ := Gives.ok_iff.mp h
      exact .inl ⟨_, line, rfl, .number text⟩
    · rename_i word line after
      split at h
      · rename_i hword
        subst hword
        obtain ⟨rfl, rfl⟩ := Gives.ok_iff.mp h
        exact .inl ⟨_, line, rfl, .trueWord⟩
      · split at h
        · rename_i hword
          subst hword
          obtain ⟨rfl, rfl⟩ := Gives.ok_iff.mp h
          exact .inl ⟨_, line, rfl, .falseWord⟩
        · split at h
          · rename_i hword
            subst hword
            obtain ⟨rfl, rfl⟩ := Gives.ok_iff.mp h
            exact .inl ⟨_, line, rfl, .nullWord⟩
          · obtain ⟨name, after, hname, hvalue⟩ := Gives.bind_iff.mp h
            obtain ⟨rfl, rfl⟩ := Gives.pure_iff.mp hvalue
            exact .inr ⟨name, hname, rfl⟩
    · exact (Gives.fail_iff.mp h).elim
  · rintro (⟨lexeme, line, rfl, hleaf⟩ | ⟨name, hname, rfl⟩)
    · cases hleaf <;> simp [parseValue]
    · obtain ⟨first, middle, hfirst, _⟩ := gives_dottedName_iff.mp hname
      obtain ⟨line, rfl, hkeyword⟩ := gives_identifier_iff.mp hfirst
      have hnull : first ≠ "null" := ne_of_isKeyword hkeyword (by decide)
      have htrue : first ≠ "true" := ne_of_isKeyword hkeyword (by decide)
      have hfalse : first ≠ "false" := ne_of_isKeyword hkeyword (by decide)
      rw [parseValue, if_neg htrue, if_neg hfalse, if_neg hnull, Gives.bind_iff]
      exact ⟨name, rest, hname, Gives.pure_iff.mpr ⟨rfl, rfl⟩⟩

theorem gives_parseMembers_iff {earlier members : List (String × Scalar)} :
    Gives (parseMembers lastLine earlier tokens) members rest ↔
      ∃ nameLine signLine name value afterSign afterValue,
        tokens = ⟨.word name, nameLine⟩ :: ⟨.op '=', signLine⟩ :: afterSign ∧
        isKeyword name = false ∧ earlier.lookup name = none ∧
        Gives (parseValue lastLine afterSign) value afterValue ∧
        ((∃ line afterComma, afterValue = ⟨.op ',', line⟩ :: afterComma ∧
            Gives (parseMembers lastLine (earlier ++ [(name, value)]) afterComma) members rest) ∨
          (∃ line, afterValue = ⟨.op ')', line⟩ :: rest ∧ members = earlier ++ [(name, value)])) := by
  rw [parseMembers, Gives.bind_iff]
  constructor
  · rintro ⟨name, afterName, hname, hnext⟩
    obtain ⟨nameLine, rfl, hkeyword⟩ := gives_identifier_iff.mp hname
    obtain ⟨⟨⟩, afterSign, hsign, hmember⟩ := Gives.bind_iff.mp hnext
    obtain ⟨signLine, rfl⟩ := gives_symbol_iff.mp hsign
    cases hlookup : earlier.lookup name with
    | some found =>
      simp only [hlookup, Option.isSome_some, if_true] at hmember
      exact (Gives.fail_iff.mp hmember).elim
    | none =>
      simp only [hlookup, Option.isSome_none, Bool.false_eq_true, if_false] at hmember
      obtain ⟨value, afterValue, hvalue, hrest⟩ := Gives.bind_iff.mp hmember
      refine ⟨nameLine, signLine, name, value, afterSign, afterValue, rfl, hkeyword, hlookup, hvalue, ?_⟩
      rcases eq_cons_or_symbol?_eq_none ',' afterValue with ⟨line, afterComma, rfl⟩ | hnone
      · simp only [symbol?_cons, Step.next, Gives.bind_iff, Gives.pure_iff, Step.after_value,
          Step.after_rest] at hrest
        obtain ⟨others, _, hothers, rfl, rfl⟩ := hrest
        exact .inl ⟨line, afterComma, rfl, hothers⟩
      · simp only [hnone, Gives.bind_iff, Gives.pure_iff, Step.after_value, Step.after_rest,
          Step.map_value, Step.map_rest] at hrest
        obtain ⟨⟨⟩, _, hclose, rfl, rfl⟩ := hrest
        obtain ⟨line, rfl⟩ := gives_symbol_iff.mp hclose
        exact .inr ⟨line, rfl, rfl⟩
  · rintro ⟨nameLine, signLine, name, value, afterSign, afterValue, rfl, hkeyword, hlookup, hvalue,
      hrest⟩
    refine ⟨name, _, gives_identifier_iff.mpr ⟨nameLine, rfl, hkeyword⟩, ?_⟩
    refine Gives.bind_iff.mpr ⟨(), afterSign, gives_symbol_iff.mpr ⟨signLine, rfl⟩, ?_⟩
    simp only [hlookup, Option.isSome_none, Bool.false_eq_true, if_false]
    refine Gives.bind_iff.mpr ⟨value, afterValue, hvalue, ?_⟩
    rcases hrest with ⟨line, afterComma, rfl, hothers⟩ | ⟨line, rfl, rfl⟩
    · simp only [symbol?_cons, Step.next, Gives.bind_iff, Gives.pure_iff, Step.after_value,
        Step.after_rest]
      exact ⟨members, rest, hothers, rfl, rfl⟩
    · have hnone : symbol? ',' (⟨.op ')', line⟩ :: rest) = none := rfl
      simp only [hnone, Gives.bind_iff, Gives.pure_iff, Step.after_value, Step.after_rest,
        Step.map_value, Step.map_rest]
      exact ⟨(), rest, gives_symbol_iff.mpr ⟨line, rfl⟩, trivial, rfl⟩

theorem gives_parseArguments_iff {members : List (String × Scalar)} :
    Gives (parseArguments lastLine tokens) members rest ↔
      (∃ line, tokens = ⟨.op ')', line⟩ :: rest ∧ members = []) ∨
      (symbol? ')' tokens = none ∧
        ((startsNamed tokens = true ∧ Gives (parseMembers lastLine [] tokens) members rest) ∨
          (startsNamed tokens = false ∧ ∃ value line,
            Gives (parseValue lastLine tokens) value (⟨.op ')', line⟩ :: rest) ∧
            members = [("value", value)]))) := by
  rw [parseArguments]
  refine gives_closing_iff.trans (or_congr_right (and_congr_right fun _ => ?_))
  cases hnamed : startsNamed tokens with
  | true => simp
  | false =>
    simp only [Bool.false_eq_true, if_false, Gives.bind_iff, Gives.pure_iff, Step.after_value,
      Step.after_rest, Step.map_value, Step.map_rest, false_and, false_or, true_and]
    constructor
    · rintro ⟨value, _, hvalue, ⟨⟩, _, hsymbol, rfl, rfl⟩
      obtain ⟨line, rfl⟩ := gives_symbol_iff.mp hsymbol
      exact ⟨value, line, hvalue, rfl⟩
    · rintro ⟨value, line, hvalue, rfl⟩
      exact ⟨value, _, hvalue, (), rest, gives_symbol_iff.mpr ⟨line, rfl⟩, rfl, rfl⟩

theorem gives_parse_iff {mark : Annotation} :
    Gives (parse lastLine tokens) mark rest ↔
      ∃ name afterName, Gives (dottedName lastLine tokens) name afterName ∧
        ((symbol? '(' afterName = none ∧ mark = ⟨name, []⟩ ∧ rest = afterName) ∨
          ∃ line inside members, afterName = ⟨.op '(', line⟩ :: inside ∧
            Gives (parseArguments lastLine inside) members rest ∧ mark = ⟨name, members⟩) := by
  rw [parse, Gives.bind_iff]
  constructor
  · rintro ⟨name, afterName, hname, hnext⟩
    refine ⟨name, afterName, hname, ?_⟩
    rcases eq_cons_or_symbol?_eq_none '(' afterName with ⟨line, inside, rfl⟩ | hnone
    · simp only [symbol?_cons, Step.next, Gives.bind_iff, Gives.pure_iff, Step.after_value,
        Step.after_rest, Step.map_value, Step.map_rest] at hnext
      obtain ⟨members, _, hmembers, rfl, rfl⟩ := hnext
      exact .inr ⟨line, inside, members, rfl, hmembers, rfl⟩
    · simp only [hnone, Gives.pure_iff] at hnext
      obtain ⟨rfl, rfl⟩ := hnext
      exact .inl ⟨hnone, rfl, rfl⟩
  · rintro ⟨name, afterName, hname, ⟨hnone, rfl, rfl⟩ | ⟨line, inside, members, rfl, hmembers, rfl⟩⟩
    · refine ⟨name, _, hname, ?_⟩
      simp only [hnone, Gives.pure_iff, and_self]
    · refine ⟨name, _, hname, ?_⟩
      simp only [symbol?_cons, Step.next, Gives.bind_iff, Gives.pure_iff, Step.after_value,
        Step.after_rest, Step.map_value, Step.map_rest]
      exact ⟨members, rest, hmembers, rfl, rfl⟩

theorem gives_parseAll_iff {marks : List Annotation} :
    Gives (parseAll lastLine tokens) marks rest ↔
      (∃ line after, tokens = ⟨.op '@', line⟩ :: after ∧ ∃ first middle others,
        Gives (parse lastLine after) first middle ∧
        Gives (parseAll lastLine middle) others rest ∧ marks = first :: others) ∨
      (symbol? '@' tokens = none ∧ marks = [] ∧ rest = tokens) := by
  refine iff_symbol_or ?_ fun hnone => ?_
  · rintro line after rfl
    rw [parseAll]
    simp only [symbol?_cons, Step.next, Gives.bind_iff, Gives.pure_iff, Step.optional_value,
      Step.optional_rest, Step.after_value, Step.after_rest, Step.weaken_value, Step.weaken_rest,
      Step.map_value, Step.map_rest]
    constructor
    · rintro ⟨first, middle, hfirst, others, _, hothers, rfl, rfl⟩
      exact ⟨first, middle, others, hfirst, hothers, rfl⟩
    · rintro ⟨first, middle, others, hfirst, hothers, rfl⟩
      exact ⟨first, middle, hfirst, others, rest, hothers, rfl, rfl⟩
  · rw [parseAll, hnone]
    exact Gives.stay_iff

/-! ### What readers leave -/

theorem leaves_of_parseValue {value : Scalar} (h : Gives (parseValue lastLine tokens) value rest) :
    Leaves tokens rest := by
  rcases gives_parseValue_iff.mp h with ⟨lexeme, line, rfl, _⟩ | ⟨name, hname, _⟩
  · exact (Leaves.refl rest).cons _
  · exact leaves_of_dottedName hname

theorem leaves_of_parseMembers {earlier members : List (String × Scalar)}
    (h : Gives (parseMembers lastLine earlier tokens) members rest) : Leaves tokens rest := by
  induction hlength : tokens.length using Nat.strongRecOn generalizing tokens earlier with
  | ind length ih =>
    obtain ⟨nameLine, signLine, name, value, afterSign, afterValue, rfl, _, _, hvalue, hothers⟩ :=
      gives_parseMembers_iff.mp h
    have hfront := ((leaves_of_parseValue hvalue).cons ⟨.op '=', signLine⟩).cons ⟨.word name, nameLine⟩
    rcases hothers with ⟨line, afterComma, rfl, hothers⟩ | ⟨line, rfl, _⟩
    · have hshorter := hvalue.shorter
      simp only [List.length_cons] at hshorter hlength
      exact hfront.tail.trans (ih _ (by omega) hothers rfl)
    · exact hfront.tail

theorem leaves_of_parseArguments {members : List (String × Scalar)}
    (h : Gives (parseArguments lastLine tokens) members rest) : Leaves tokens rest := by
  rcases gives_parseArguments_iff.mp h with ⟨line, rfl, _⟩ | ⟨_, ⟨_, hmembers⟩ | ⟨_, value, line, hvalue, _⟩⟩
  · exact (Leaves.refl rest).cons _
  · exact leaves_of_parseMembers hmembers
  · exact (leaves_of_parseValue hvalue).tail

theorem leaves_of_parse {mark : Annotation} (h : Gives (parse lastLine tokens) mark rest) : Leaves tokens rest := by
  obtain ⟨name, afterName, hname, ⟨_, _, rfl⟩ | ⟨line, inside, members, rfl, hmembers, _⟩⟩ := gives_parse_iff.mp h
  · exact leaves_of_dottedName hname
  · exact (leaves_of_dottedName hname).tail.trans (leaves_of_parseArguments hmembers)

theorem leaves_of_parseAll {marks : List Annotation} (h : Gives (parseAll lastLine tokens) marks rest) :
    Leaves tokens rest := by
  induction hlength : tokens.length using Nat.strongRecOn generalizing tokens marks with
  | ind length ih =>
    rcases gives_parseAll_iff.mp h with ⟨line, after, rfl, first, middle, others, hfirst, hothers, _⟩ | ⟨_, _, rfl⟩
    · have hshorter := hfirst.shorter
      simp only [List.length_cons] at hlength
      exact ((leaves_of_parse hfirst).cons _).trans (ih _ (by omega) hothers rfl)
    · exact .refl _

/-! ### What can be written -/

/-- A source can say the annotation. -/
structure IsWritten (mark : Annotation) : Prop where
  name : isDottedName mark.name = true
  members : ∀ member ∈ mark.members, isName member.1 = true ∧ member.2.isWritten = true
  distinct : (mark.members.map Prod.fst).Nodup

/-- No member is a number with a fraction. -/
def HasIntegersOnly (mark : Annotation) : Prop :=
  ∀ member ∈ mark.members, member.2.isReal = false

instance (mark : Annotation) : Decidable mark.HasIntegersOnly :=
  inferInstanceAs (Decidable (∀ member ∈ mark.members, member.2.isReal = false))

theorem isWritten_of_parseValue {value : Scalar} (hwords : AreWords (tokens.map Token.lexeme))
    (h : Gives (parseValue lastLine tokens) value rest) : value.isWritten = true := by
  rcases gives_parseValue_iff.mp h with ⟨lexeme, line, rfl, hleaf⟩ | ⟨name, hname, rfl⟩
  · have hsplit : AreWords ([lexeme] ++ rest.map Token.lexeme) := hwords
    obtain ⟨hfirst, _⟩ := AreWords.append_iff.mp hsplit
    exact (hleaf.isParsed hfirst).node
  · rfl

theorem isWritten_of_parseMembers {earlier members : List (String × Scalar)}
    (hwords : AreWords (tokens.map Token.lexeme))
    (hearlier : ∀ member ∈ earlier, isName member.1 = true ∧ member.2.isWritten = true)
    (hdistinct : (earlier.map Prod.fst).Nodup)
    (h : Gives (parseMembers lastLine earlier tokens) members rest) :
    (∀ member ∈ members, isName member.1 = true ∧ member.2.isWritten = true) ∧
      (members.map Prod.fst).Nodup := by
  induction hlength : tokens.length using Nat.strongRecOn generalizing tokens earlier with
  | ind length ih =>
    obtain ⟨nameLine, signLine, name, value, afterSign, afterValue, rfl, hkeyword, hlookup, hvalue,
      hrest⟩ := gives_parseMembers_iff.mp h
    have hwritten := isWritten_of_parseValue hwords.tail.tail hvalue
    have hname : isName name = true := hwords.isName_head hkeyword
    have hmembers : ∀ member ∈ earlier ++ [(name, value)],
        isName member.1 = true ∧ member.2.isWritten = true :=
      List.forall_mem_append.mpr ⟨hearlier, List.forall_mem_singleton.mpr ⟨hname, hwritten⟩⟩
    have hnodup : ((earlier ++ [(name, value)]).map Prod.fst).Nodup :=
      nodup_map_append_singleton hdistinct (lookup_eq_none_iff_not_mem.mp hlookup)
    rcases hrest with ⟨line, afterComma, rfl, hothers⟩ | ⟨line, rfl, rfl⟩
    · have hafter := (leaves_of_parseValue hvalue).areWords hwords.tail.tail
      have hshorter := hvalue.shorter
      simp only [List.length_cons] at hlength hshorter
      exact ih afterComma.length (by omega) hafter.tail hmembers hnodup hothers rfl
    · exact ⟨hmembers, hnodup⟩

theorem isWritten_of_gives {mark : Annotation} (hwords : AreWords (tokens.map Token.lexeme))
    (h : Gives (parse lastLine tokens) mark rest) : mark.IsWritten := by
  obtain ⟨name, afterName, hname, hrest⟩ := gives_parse_iff.mp h
  have hdotted := isDottedName_of_gives hwords hname
  have hafter := (leaves_of_dottedName hname).areWords hwords
  rcases hrest with ⟨_, rfl, rfl⟩ | ⟨line, inside, members, rfl, harguments, rfl⟩
  · exact ⟨hdotted, nofun, List.nodup_nil⟩
  · rcases gives_parseArguments_iff.mp harguments with
      ⟨closeLine, rfl, rfl⟩ | ⟨_, ⟨_, hmembers⟩ | ⟨_, value, closeLine, hvalue, rfl⟩⟩
    · exact ⟨hdotted, nofun, List.nodup_nil⟩
    · obtain ⟨hwritten, hdistinct⟩ :=
        isWritten_of_parseMembers hafter.tail (List.forall_mem_nil _) List.nodup_nil hmembers
      exact ⟨hdotted, hwritten, hdistinct⟩
    · have hwritten := isWritten_of_parseValue hafter.tail hvalue
      have hname : isName "value" = true := by decide
      exact ⟨hdotted, List.forall_mem_singleton.mpr ⟨hname, hwritten⟩, List.nodup_singleton _⟩

theorem isWritten_of_parseAll {marks : List Annotation} (hwords : AreWords (tokens.map Token.lexeme))
    (h : Gives (parseAll lastLine tokens) marks rest) : ∀ mark ∈ marks, mark.IsWritten := by
  induction hlength : tokens.length using Nat.strongRecOn generalizing tokens marks with
  | ind length ih =>
    rcases gives_parseAll_iff.mp h with
      ⟨line, after, rfl, first, middle, others, hfirst, hothers, rfl⟩ | ⟨_, rfl, rfl⟩
    · have hshorter := hfirst.shorter
      simp only [List.length_cons] at hlength
      have hmiddle := (leaves_of_parse hfirst).areWords hwords.tail
      have hall := ih middle.length (by omega) hmiddle hothers rfl
      exact List.forall_mem_cons.mpr ⟨isWritten_of_gives hwords.tail hfirst, hall⟩
    · nofun

/-! ### Writing -/

def memberLexemes (member : String × Scalar) : List Lexeme :=
  [.word member.1, .op '=', member.2.lexeme]

/-- The lexemes of the members as they are written. -/
def argumentLexemes : List (String × Scalar) → List Lexeme
  | [] => []
  | [("value", value)] => [.op '(', value.lexeme, .op ')']
  | members => .op '(' :: ([.op ','].intercalate (members.map memberLexemes) ++ [.op ')'])

/-- The lexemes of an annotation as it is written. -/
def lexemes (mark : Annotation) : List Lexeme :=
  .op '@' :: (dottedLexemes mark.name ++ argumentLexemes mark.members)

/-- The members of the annotation are spelled. -/
def IsSpelled (cut : Scan.Cutting) (mark : Annotation) : Prop :=
  ∀ member ∈ mark.members, member.2.IsSpelled cut

theorem isSpelled_of_hasIntegersOnly {cut : Scan.Cutting} {mark : Annotation} (h : mark.IsWritten)
    (hintegers : mark.HasIntegersOnly) : mark.IsSpelled cut :=
  fun member hmember =>
    Scalar.isSpelled_of_not_isReal (h.members member hmember).2 (hintegers member hmember)

section Spelling

variable {cut : Scan.Cutting}

theorem spells_memberToSource {member : String × Scalar} (hname : isName member.1 = true)
    (hvalue : member.2.IsSpelled cut) : Spells cut (memberToSource member) (memberLexemes member) := by
  intro rest next hbreaks tail
  rw [memberToSource]
  simp only [String.toList_append, String.reduceToList, List.append_assoc, List.cons_append,
    List.nil_append]
  exact Scan.cut_word (isWord_of_isName hname) (Scan.breaks_blank (by decide) _)
    (Scan.cut_blank (by decide) (Scan.cut_symbol (by decide) (Scan.cut_blank (by decide)
      (hvalue _ _ hbreaks tail))))

theorem spells_toSource {mark : Annotation} (h : mark.IsWritten) (hspelled : mark.IsSpelled cut) :
    Spells cut mark.toSource mark.lexemes := by
  intro rest next hbreaks tail
  have hname : Spells cut mark.name (dottedLexemes mark.name) := spells_dottedName h.name
  have hinside : Scan.Breaks (')' :: rest) := Scan.breaks_symbol (by decide) (by decide) rest
  obtain ⟨name, members⟩ := mark
  unfold toSource lexemes argumentLexemes
  simp only
  split
  · simp only [String.toList_append, String.reduceToList, List.append_assoc, List.cons_append,
      List.nil_append]
    exact Scan.cut_symbol (by decide) (hname _ _ hbreaks tail)
  · have hvalue := hspelled _ List.mem_cons_self
    simp only [String.toList_append, String.reduceToList, List.append_assoc, List.cons_append,
      List.nil_append]
    exact Scan.cut_symbol (by decide) (hname _ _ (Scan.breaks_symbol (by decide) (by decide) _)
      (Scan.cut_symbol (by decide) (hvalue _ _ hinside
        (Scan.cut_symbol (by decide) tail))))
  · have hmembers : Spells cut (", ".intercalate (members.map memberToSource))
        ([.op ','].intercalate (members.map memberLexemes)) :=
      spells_intercalate fun member hmember =>
        spells_memberToSource (h.members member hmember).1 (hspelled member hmember)
    simp only [String.toList_append, String.reduceToList, List.append_assoc, List.cons_append,
      List.nil_append]
    exact Scan.cut_symbol (by decide) (hname _ _ (Scan.breaks_symbol (by decide) (by decide) _)
      (Scan.cut_symbol (by decide) (hmembers _ _ hinside (Scan.cut_symbol (by decide) tail))))

end Spelling

/-! ### Reading -/

end Annotation

/-- What a written scalar is read as: a number with a fraction as the number nearest to its digits, and what is no finite number as the word it is written as. -/
def Scalar.reread : Scalar → Scalar
  | real (.finite negative significand exponent) =>
    Literal.numberValue (realLayout.render (.finite negative significand exponent)).toList
  | real value => text (realLayout.render value)
  | value => value

theorem Scalar.reread_of_not_isReal {value : Scalar} (h : value.isReal = false) : value.reread = value := by
  cases value with
  | real value => cases h
  | _ => rfl

theorem Expr.ofScalar_cases (value : Scalar) : ofScalar value = const value.reread ∨
    ∃ name, ofScalar value = var name ∧ value.reread = .text name := by
  cases value with
  | real value =>
    cases value with
    | finite negative significand exponent => exact .inl rfl
    | _ => exact .inr ⟨_, rfl, rfl⟩
  | _ => exact .inl rfl

namespace Annotation

/-- The annotation as it is read. -/
def reread (mark : Annotation) : Annotation :=
  { mark with members := mark.members.map fun member => (member.1, member.2.reread) }

theorem reread_of_hasIntegersOnly {mark : Annotation} (h : mark.HasIntegersOnly) : mark.reread = mark := by
  have hmembers : mark.members.map (fun member => (member.1, member.2.reread)) = mark.members :=
    map_eq_self_of_forall fun member hmember =>
      Prod.ext rfl (Scalar.reread_of_not_isReal (h member hmember))
  rw [reread, hmembers]

theorem reads_parseValue {value : Scalar} (h : value.isWritten = true) {after : List Lexeme}
    (hdot : NotNext '.' after) :
    Reads (parseValue lastLine) (value.lexeme :: after) value.reread after := by
  intro tokens htokens
  obtain ⟨line, rest, rfl, hrest⟩ := exists_of_map_lexeme_eq_cons htokens
  have hleaf := Expr.leaf_of_scalar h
  rcases Expr.ofScalar_cases value with hconst | ⟨name, hname, htext⟩
  · rw [hconst] at hleaf
    exact ⟨rest, gives_parseValue_iff.mpr (.inl ⟨_, line, rfl, hleaf⟩), hrest⟩
  · rw [hname] at hleaf
    have hnone : rest.map Token.lexeme = partLexemes [] ++ after := hrest
    obtain ⟨hparts, hafter⟩ := nameParts_of_lexemes hdot hnone
    refine ⟨_, gives_parseValue_iff.mpr (.inr ⟨name, gives_dottedName_iff.mpr ?_, htext⟩), hafter⟩
    generalize value.lexeme = lexeme at hleaf
    cases hleaf with
    | name hkeyword =>
      refine ⟨name, rest, gives_identifier_iff.mpr ⟨line, rfl, hkeyword⟩, ?_, rfl⟩
      rw [hparts]
      simp

theorem reads_parseMembers {earlier members : List (String × Scalar)} (hne : members ≠ [])
    (h : ∀ member ∈ members, isName member.1 = true ∧ member.2.isWritten = true)
    (hdistinct : (earlier.map Prod.fst ++ members.map Prod.fst).Nodup) (after : List Lexeme) :
    Reads (parseMembers lastLine earlier)
      ([.op ','].intercalate (members.map memberLexemes) ++ .op ')' :: after)
      (earlier ++ members.map fun member => (member.1, member.2.reread)) after := by
  induction members generalizing earlier with
  | nil => exact absurd rfl hne
  | cons member members ih =>
    intro tokens htokens
    obtain ⟨⟨hname, hvalue⟩, hmembers⟩ := List.forall_mem_cons.mp h
    have hlookup : earlier.lookup member.1 = none := by
      rw [lookup_eq_none_iff_not_mem]
      exact fun hmem => (List.nodup_append.mp hdistinct).2.2 _ hmem _ List.mem_cons_self rfl
    rw [List.map_cons, intercalate_singleton_cons, List.append_assoc] at htokens
    obtain ⟨nameLine, _, rfl, hsign⟩ := exists_of_map_lexeme_eq_cons htokens
    obtain ⟨signLine, afterSign, rfl, hafterSign⟩ := exists_of_map_lexeme_eq_cons hsign
    cases members with
    | nil =>
      obtain ⟨_, hgives, hafter⟩ := reads_parseValue hvalue (notNext_symbol (by decide) _) afterSign hafterSign
      obtain ⟨line, rest, rfl, hrest⟩ := exists_of_map_lexeme_eq_cons hafter
      refine ⟨rest, gives_parseMembers_iff.mpr ?_, hrest⟩
      exact ⟨nameLine, signLine, member.1, member.2.reread, afterSign, _, rfl, isKeyword_of_isName hname,
        hlookup, hgives, .inr ⟨line, rfl, rfl⟩⟩
    | cons second members =>
      rw [List.map_cons, List.flatMap_cons, List.cons_append, List.cons_append] at hafterSign
      obtain ⟨_, hgives, hafter⟩ := reads_parseValue hvalue (notNext_symbol (by decide) _) afterSign hafterSign
      obtain ⟨line, afterComma, rfl, hothers⟩ := exists_of_map_lexeme_eq_cons hafter
      rw [← intercalate_singleton_cons, ← List.map_cons] at hothers
      have hmoved : ((earlier ++ [(member.1, member.2.reread)]).map Prod.fst
          ++ (second :: members).map Prod.fst).Nodup := by
        rw [List.map_append, List.append_assoc]
        exact hdistinct
      obtain ⟨rest, hread, hrest⟩ :=
        ih (List.cons_ne_nil _ _) hmembers hmoved afterComma hothers
      rw [List.map_cons, List.append_cons]
      refine ⟨rest, gives_parseMembers_iff.mpr ?_, hrest⟩
      exact ⟨nameLine, signLine, member.1, member.2.reread, afterSign, _, rfl, isKeyword_of_isName hname,
        hlookup, hgives, .inl ⟨line, afterComma, rfl, hread⟩⟩

theorem symbol?_close_of_scalar (value : Scalar) (line : Nat) (rest : List Token) :
    symbol? ')' (⟨value.lexeme, line⟩ :: rest) = none := by
  cases value with
  | bool value => cases value <;> rfl
  | real value => cases value <;> rfl
  | _ => rfl

theorem startsNamed_of_scalar (value : Scalar) (line closeLine : Nat) (rest : List Token) :
    startsNamed (⟨value.lexeme, line⟩ :: ⟨.op ')', closeLine⟩ :: rest) = false := by
  cases value with
  | bool value => cases value <;> rfl
  | real value => cases value <;> rfl
  | _ => rfl

theorem reads_parse {mark : Annotation} (h : mark.IsWritten) {after : List Lexeme}
    (hdot : NotNext '.' after) (hopen : NotNext '(' after) :
    Reads (parse lastLine) (dottedLexemes mark.name ++ argumentLexemes mark.members ++ after) mark.reread
      after := by
  intro tokens htokens
  obtain ⟨name, members⟩ := mark
  rw [List.append_assoc] at htokens
  unfold argumentLexemes at htokens
  simp only at htokens
  split at htokens
  · obtain ⟨rest, hname, hrest⟩ := reads_dottedName h.name hdot tokens htokens
    refine ⟨rest, gives_parse_iff.mpr ⟨name, rest, hname, .inl ⟨?_, rfl, rfl⟩⟩, hrest⟩
    exact hopen.symbol?_eq_none hrest
  · rename_i value
    obtain ⟨_, hwritten⟩ := h.members _ List.mem_cons_self
    obtain ⟨_, hname, hafter⟩ := reads_dottedName h.name (notNext_symbol (by decide) _) tokens htokens
    obtain ⟨openLine, inside, rfl, hinside⟩ := exists_of_map_lexeme_eq_cons hafter
    obtain ⟨afterValue, hvalue, hclose⟩ := reads_parseValue hwritten (notNext_symbol (by decide) _) inside hinside
    obtain ⟨closeLine, rest, rfl, hrest⟩ := exists_of_map_lexeme_eq_cons hclose
    obtain ⟨line, _, rfl, htail⟩ := exists_of_map_lexeme_eq_cons hinside
    obtain ⟨otherLine, _, rfl, _⟩ := exists_of_map_lexeme_eq_cons htail
    have harguments := gives_parseArguments_iff.mpr (.inr ⟨symbol?_close_of_scalar value line _,
      .inr ⟨startsNamed_of_scalar value line otherLine _, value.reread, closeLine, hvalue, rfl⟩⟩)
    exact ⟨rest, gives_parse_iff.mpr ⟨name, _, hname, .inr ⟨openLine, _, _, rfl, harguments, rfl⟩⟩, hrest⟩
  · rename_i hnil _
    rw [List.cons_append, List.append_assoc] at htokens
    obtain ⟨_, hname, hafter⟩ := reads_dottedName h.name (notNext_symbol (by decide) _) tokens htokens
    obtain ⟨openLine, inside, rfl, hinside⟩ := exists_of_map_lexeme_eq_cons hafter
    have hdistinct : (([] : List (String × Scalar)).map Prod.fst ++ members.map Prod.fst).Nodup :=
      h.distinct
    obtain ⟨rest, hmembers, hrest⟩ :=
      reads_parseMembers hnil h.members hdistinct after inside hinside
    obtain ⟨nameLine, signLine, name, value, afterSign, _, rfl, _⟩ := gives_parseMembers_iff.mp hmembers
    have harguments := gives_parseArguments_iff.mpr (.inr ⟨rfl, .inl ⟨rfl, hmembers⟩⟩)
    exact ⟨rest, gives_parse_iff.mpr ⟨_, _, hname, .inr ⟨openLine, _, _, rfl, harguments, rfl⟩⟩, hrest⟩

theorem reads_parseAll {marks : List Annotation} (h : ∀ mark ∈ marks, mark.IsWritten)
    {after : List Lexeme} (hdot : NotNext '.' after) (hopen : NotNext '(' after)
    (hsign : NotNext '@' after) :
    Reads (parseAll lastLine) (marks.flatMap lexemes ++ after) (marks.map reread) after := by
  induction marks with
  | nil =>
    intro tokens htokens
    refine ⟨tokens, gives_parseAll_iff.mpr (.inr ⟨?_, rfl, rfl⟩), htokens⟩
    exact hsign.symbol?_eq_none htokens
  | cons mark marks ih =>
    intro tokens htokens
    obtain ⟨hmark, hmarks⟩ := List.forall_mem_cons.mp h
    have hnext : ∀ symbol, symbol ≠ '@' → NotNext symbol after →
        NotNext symbol (marks.flatMap lexemes ++ after) := by
      intro symbol hsymbol hafter
      cases marks with
      | nil => exact hafter
      | cons second marks => exact notNext_symbol hsymbol.symm _
    rw [List.flatMap_cons, List.append_assoc] at htokens
    obtain ⟨line, inside, rfl, hinside⟩ := exists_of_map_lexeme_eq_cons htokens
    obtain ⟨middle, hfirst, hmiddle⟩ := reads_parse hmark (hnext '.' (by decide) hdot)
      (hnext '(' (by decide) hopen) inside hinside
    obtain ⟨rest, hothers, hrest⟩ := ih hmarks middle hmiddle
    exact ⟨rest, gives_parseAll_iff.mpr
      (.inl ⟨line, inside, rfl, mark.reread, middle, marks.map reread, hfirst, hothers, rfl⟩), hrest⟩

end Annotation

end GuardedLogging
