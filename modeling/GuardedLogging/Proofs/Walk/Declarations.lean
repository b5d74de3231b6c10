import GuardedLogging.CompilationUnit.Parse
import GuardedLogging.Proofs.Walk.Expr

/-!
# Walks through the parts of a class

The walks beside the readers of annotations, modifiers, parameters, statements and members. Whether an annotation names its members, and whether a parameter has a type, is seen at two positions; the second is only looked at when the first holds a word, so the end of the source is not passed there either.
-/

namespace GuardedLogging

open Cursor
open Annotation (startsNamed parseValue parseMembers parseArguments parseAll)

namespace Lexemes

section Walks

variable (lexemes : Lexemes)

/-- Whether a word stands at a position. -/
def meetsWord (position : Nat) : Walk Bool := do
  match ← look lexemes position with
  | some (.word _) => return true
  | _ => return false

def annotationValue (position : Nat) : Walk (Scalar × Nat) := do
  match ← look lexemes position with
  | some (.literal text) => return (.text (String.ofList (Literal.unquote text.toList)), position + 1)
  | some (.number text) => return (Literal.numberValue text.toList, position + 1)
  | some (.word word) =>
    if word = "true" then return (.bool true, position + 1)
    else if word = "false" then return (.bool false, position + 1)
    else if word = "null" then return (.null, position + 1)
    else
      let (name, position) ← dottedName lexemes position
      return (.text name, position)
  | other => refuse lexemes position (.annotationValue ((other.map Lexeme.text).getD ""))

def annotationMembers (lexemes : Lexemes) (earlier : List (String × Scalar)) (position : Nat) : Walk (List (String × Scalar) × Nat) := do
  let (name, position) ← identifier lexemes position
  let position ← symbol lexemes '=' position
  if (earlier.lookup name).isSome then refuse lexemes position (.duplicateMember name)
  else
    let (value, position) ← annotationValue lexemes position
    let members := earlier ++ [(name, value)]
    if ← meets lexemes (.op ',') position then lexemes |>.annotationMembers members (position + 1)
    else
      let position ← symbol lexemes ')' position
      return (members, position)
partial_fixpoint

/-- Whether a member stands at a position that is given with its name. -/
def namesMember (position : Nat) : Walk Bool := do
  if ← meetsWord lexemes position then meets lexemes (.op '=') (position + 1) else return false

def annotationArguments (position : Nat) : Walk (List (String × Scalar) × Nat) := do
  if ← meets lexemes (.op ')') position then return ([], position + 1)
  else if ← namesMember lexemes position then annotationMembers lexemes [] position
  else
    let (value, position) ← annotationValue lexemes position
    let position ← symbol lexemes ')' position
    return ([("value", value)], position)

/-- An annotation with its leading sign. -/
def annotation (position : Nat) : Walk <| Annotation × Nat := do
  let position ← symbol lexemes '@' position
  let (name, position) ← dottedName lexemes position
  if ← meets lexemes (.op '(') position then
    let (members, position) ← annotationArguments lexemes (position + 1)
    return (⟨name, members⟩, position)
  else return (⟨name, []⟩, position)

def annotations (lexemes : Lexemes) (position : Nat) : Walk (List Annotation × Nat) := do
  if ← meets lexemes (.op '@') position then
    let (first, position) ← annotation lexemes position
    let (others, position) ← lexemes |>.annotations position
    return (first :: others, position)
  else return ([], position)
partial_fixpoint

def modifiers (lexemes : Lexemes) (earlier : Modifiers) (position : Nat) : Walk (Modifiers × Nat) := do
  match ← look lexemes position with
  | some (.word word) =>
    match Modifier.ofWord? word with
    | some modifier =>
      if earlier.contains modifier then refuse lexemes position (.repeatedModifier word)
      else lexemes |>.modifiers (earlier.insert modifier) (position + 1)
    | none => return (earlier, position)
  | _ => return (earlier, position)
partial_fixpoint

/-- Whether a type stands at a position: a word in front of another, or one with a dot behind it. -/
def meetsType (position : Nat) : Walk Bool := do
  if ← meetsWord lexemes position then
    if ← meetsWord lexemes (position + 1) then return true else meets lexemes (.op '.') (position + 1)
  else return false

def typeName (scope : NameScope) (position : Nat) : Walk (Option TypeRef × Nat) := do
  let (name, position) ← dottedName lexemes position
  return (some (scope.typeRef name), position)

def parameterType (scope : NameScope) (position : Nat) : Walk (Option TypeRef × Nat) := do
  if ← meets lexemes (.word "def") position then return (none, position + 1)
  else if ← meetsType lexemes position then typeName lexemes scope position
  else return (none, position)

def parameterList (lexemes : Lexemes) (scope : NameScope) (earlier : List Parameter) (position : Nat) : Walk (List Parameter × Nat) := do
  let (type, position) ← parameterType lexemes scope position
  let (name, position) ← identifier lexemes position
  if earlier.any (·.name == name) then refuse lexemes position (.duplicateParameter name)
  else
    let parameters := earlier ++ [⟨name, type⟩]
    if ← meets lexemes (.op ',') position then lexemes |>.parameterList scope parameters (position + 1)
    else
      let position ← symbol lexemes ')' position
      return (parameters, position)
partial_fixpoint

/-- The parameters of a method with the parentheses around them. -/
def parameters (scope : NameScope) (position : Nat) : Walk (List Parameter × Nat) := do
  let position ← symbol lexemes '(' position
  if ← meets lexemes (.op ')') position then return ([], position + 1)
  else parameterList lexemes scope [] position

def statementExpr (position : Nat) : Walk (Statement × Nat) := do
  if ← meets lexemes (.word "return") position then
    let (expr, position) ← ternary lexemes (position + 1)
    return (⟨true, expr⟩, position)
  else
    let (expr, position) ← ternary lexemes position
    return (⟨false, expr⟩, position)

def statement (position : Nat) : Walk (Statement × Nat) := pastSemicolons lexemes (statementExpr lexemes position)

def body (lexemes : Lexemes) (methodName : String) (position : Nat) : Walk (List Statement × Nat) := do
  if ← meets lexemes (.op '\x7d') position then return ([], position + 1)
  else if (← look lexemes position).isNone then refuse lexemes position (.unclosedMethod methodName)
  else
    let (first, position) ← statement lexemes position
    let (others, position) ← lexemes |>.body methodName position
    return (first :: others, position)
partial_fixpoint

def memberType (scope : NameScope) (position : Nat) : Walk (Option TypeRef × Nat) := do
  if ← meets lexemes (.word "def") position then return (none, position + 1)
  else typeName lexemes scope position

/-- The rest of a method, from its opening parenthesis on. -/
def method (scope : NameScope) (name : String) (modifiers : Modifiers) (returnType : Option TypeRef)
    (position : Nat) : Walk (Member × Nat) := do
  let (parameters, position) ← parameters lexemes scope position
  let position ← symbol lexemes '\x7b' position
  let position ← skipSemicolons lexemes position
  let (body, position) ← body lexemes name position
  return (.method { name, modifiers, returnType, parameters, body }, position)

def initial (position : Nat) : Walk (Expr × Nat) := do
  if ← meets lexemes (.op '=') position then ternary lexemes (position + 1) else return (Expr.absent, position)

/-- The rest of a field, from behind its name on. -/
def field (field : Field) (position : Nat) : Walk (Member × Nat) := do
  let (initial, position) ← initial lexemes position
  return (.field { field with initial }, ← skipSemicolons lexemes position)

/-- One member of the class, in front of which `fields` are declared. A field that is declared twice is reported where its name stands. -/
def member (scope : NameScope) (className : String) (fields : List Field) (position : Nat) : Walk (Member × Nat) := do
  if ← meets lexemes (.op '@') position then refuse lexemes position .annotationInsideClass
  else
    let (modifiers, position) ← modifiers lexemes .none position
    let (type, namePosition) ← memberType lexemes scope position
    let (name, position) ← identifier lexemes namePosition
    if ← meets lexemes (.op '(') position then method lexemes scope name modifiers type position
    else if fields.any (·.name == name) then refuse lexemes namePosition (.duplicateField name className)
    else field lexemes { name, modifiers, type, owner := className } position

end Walks

end Lexemes

namespace TokenList.IsRest

variable {list : TokenList} {position : Nat} {rest : List Token}

theorem meets_op (h : list.IsRest position rest) (symbol : Char) :
    Lexemes.meets list.lexemes (.op symbol) position = pure (startsWith symbol rest) := by
  rw [h.meets]
  cases rest with
  | nil => rfl
  | cons token after => rfl

theorem meetsWord_cons {word : String} {line : Nat} (h : list.IsRest position (⟨.word word, line⟩ :: rest)) :
    Lexemes.meetsWord list.lexemes position = pure true := by
  rw [Lexemes.meetsWord, h.look]
  rfl

theorem meetsWord_eq_false (h : list.IsRest position rest) (hword : ∀ word line after, rest ≠ ⟨.word word, line⟩ :: after) :
    Lexemes.meetsWord list.lexemes position = pure false := by
  rw [Lexemes.meetsWord, h.look, pure_bind]
  cases rest with
  | nil => rfl
  | cons token after =>
    obtain ⟨lexeme, line⟩ := token
    cases lexeme with
    | word word => exact (hword word line after rfl).elim
    | _ => rfl

theorem namesMember (h : list.IsRest position rest) :
    Lexemes.namesMember list.lexemes position = pure (startsNamed rest) := by
  rw [Lexemes.namesMember]
  fun_cases startsNamed rest with
  | case1 word line after =>
    rw [h.meetsWord_cons, pure_bind, if_pos rfl]
    exact h.next.meets_op '='
  | case2 =>
    rename_i hword
    rw [h.meetsWord_eq_false hword]
    rfl

theorem meetsType (h : list.IsRest position rest) :
    Lexemes.meetsType list.lexemes position = pure (Parameter.startsTyped rest) := by
  rw [Lexemes.meetsType]
  fun_cases Parameter.startsTyped rest with
  | case1 word line name nameLine after =>
    rw [h.meetsWord_cons, pure_bind, if_pos rfl, h.next.meetsWord_cons]
    rfl
  | case2 word line after hword =>
    rw [h.meetsWord_cons, pure_bind, if_pos rfl, h.next.meetsWord_eq_false hword, pure_bind, if_neg Bool.false_ne_true]
    exact h.next.meets_op '.'
  | case3 =>
    rename_i hword
    rw [h.meetsWord_eq_false hword]
    rfl

end TokenList.IsRest

namespace FollowsAs

variable {list : TokenList} {position : Nat} {rest : List Token}

theorem annotationValue (hrest : list.IsRest position rest) :
    Follows list (parseValue list.lastLine rest) (Lexemes.annotationValue list.lexemes position) := by
  rw [Lexemes.annotationValue, hrest.look, pure_bind]
  cases rest with
  | nil => exact fail hrest _
  | cons token after =>
    obtain ⟨lexeme, line⟩ := token
    cases lexeme with
    | literal text => exact .read hrest.next
    | number text => exact .read hrest.next
    | op symbol => exact fail hrest _
    | word word =>
      rw [parseValue]
      refine onCondition (fun _ => .read hrest.next) fun _ => ?_
      refine onCondition (fun _ => .read hrest.next) fun _ => ?_
      refine onCondition (fun _ => .read hrest.next) fun _ => ?_
      exact bind (dottedName hrest) fun name after shorter position hafter => .read hafter

theorem annotationMembers {position : Nat} {rest : List Token} (earlier : List (String × Scalar))
    (hrest : list.IsRest position rest) :
    Follows list (parseMembers list.lastLine earlier rest)
      (Lexemes.annotationMembers list.lexemes earlier position) := by
  rw [parseMembers, Lexemes.annotationMembers]
  refine bind (identifier hrest) fun name afterName hname position hafterName => ?_
  refine onSymbol hafterName fun afterSign hsign hafterSign => ?_
  refine onCondition (fun _ => fail hafterSign _) fun _ => ?_
  refine bind (annotationValue hafterSign) fun value afterValue hvalue position hafterValue => ?_
  refine onMeeting hafterValue (fun line afterComma hcomma hafterComma => ?_) fun hcomma => ?_
  · subst hcomma
    have hothers := annotationMembers (earlier ++ [(name, value)]) hafterComma
    exact rebound hothers _ fun _ => ⟨rfl, rfl⟩
  · simp only [symbol?_eq_none_iff.mpr hcomma]
    exact onSymbol hafterValue fun behind shorter hbehind => .read hbehind
termination_by rest.length
decreasing_by
  simp only [List.length_cons] at hvalue
  omega

theorem annotationArguments (hrest : list.IsRest position rest) :
    Follows list (parseArguments list.lastLine rest) (Lexemes.annotationArguments list.lexemes position) := by
  rw [parseArguments, Lexemes.annotationArguments]
  refine onMeeting hrest (fun line after hclose hafter => ?_) fun hclose => ?_
  · subst hclose
    rw [symbol?_cons]
    exact .read hafter
  · rw [symbol?_eq_none_iff.mpr hclose, hrest.namesMember, pure_bind]
    refine onCondition (fun _ => annotationMembers [] hrest) fun _ => ?_
    refine bind (annotationValue hrest) fun value afterValue hvalue position hafterValue => ?_
    exact onSymbol hafterValue fun behind shorter hbehind => .read hbehind

open Annotation in
/-- An annotation, whose leading sign the reader has behind it already. -/
theorem annotation (hrest : list.IsRest position rest) {sign : Nat}
    (hsign : Lexemes.symbol list.lexemes '@' sign = pure position) :
    Follows list (parse list.lastLine rest) <| Lexemes.annotation list.lexemes sign := by
  rw [Lexemes.annotation, Annotation.parse, hsign, pure_bind]
  refine bind (dottedName hrest) fun name afterName hname position hafterName => ?_
  refine onMeeting hafterName (fun line inside hopen hinside => ?_) fun hopen => ?_
  · subst hopen
    exact bind (annotationArguments hinside) fun members after shorter position hafter => .read hafter
  · simp only [symbol?_eq_none_iff.mpr hopen]
    exact .read hafterName

theorem annotations {position : Nat} {rest : List Token} (hrest : list.IsRest position rest) :
    Follows list (parseAll list.lastLine rest) (Lexemes.annotations list.lexemes position) := by
  rw [parseAll, Lexemes.annotations]
  refine onMeeting hrest (fun line afterSign hsign hafterSign => ?_) fun hsign => ?_
  · subst hsign
    rw [symbol?_cons]
    have hfirst := annotation hafterSign hrest.symbol_cons
    refine bind hfirst fun first afterFirst hfirst position hafterFirst => ?_
    exact bind (annotations hafterFirst) fun others after shorter position hafter => .read hafter
  · rw [symbol?_eq_none_iff.mpr hsign]
    exact .read hrest
termination_by rest.length
decreasing_by
  rw [hsign, List.length_cons]
  omega

theorem modifiers (earlier : Modifiers) (hrest : list.IsRest position rest) :
    Follows list (Modifiers.parse earlier rest) (Lexemes.modifiers list.lexemes earlier position) := by
  induction rest generalizing position earlier with
  | nil =>
    rw [Lexemes.modifiers, hrest.look, pure_bind]
    exact .read hrest
  | cons token after ih =>
    rw [Lexemes.modifiers, hrest.look, pure_bind]
    obtain ⟨lexeme, line⟩ := token
    cases lexeme with
    | word word =>
      rw [Modifiers.parse]
      show Follows list _ (match Modifier.ofWord? word with
        | some modifier => if earlier.contains modifier = true then _ else _
        | none => _)
      cases Modifier.ofWord? word with
      | none => exact .read hrest
      | some modifier =>
        refine onCondition (fun _ => fail hrest _) fun _ => ?_
        exact rebound (ih (earlier.insert modifier) hrest.next) _ fun _ => ⟨rfl, rfl⟩
    | _ => exact .read hrest

theorem typeName (scope : NameScope) (hrest : list.IsRest position rest) :
    Follows list (do
      let name ← Cursor.dottedName list.lastLine rest
      return name.map fun name => some (scope.typeRef name)) (Lexemes.typeName list.lexemes scope position) :=
  bind (dottedName hrest) fun _ _ _ _ hafter => .read hafter

theorem parameterType (scope : NameScope) (hrest : list.IsRest position rest) :
    Follows list (Parameter.parseType scope list.lastLine rest) (Lexemes.parameterType list.lexemes scope position) := by
  rw [Parameter.parseType, Lexemes.parameterType]
  refine onMeeting hrest (fun line after hdef hafter => ?_) fun hdef => ?_
  · subst hdef
    rw [word?_cons]
    exact .read hafter
  · rw [word?_eq_none_iff.mpr hdef, hrest.meetsType, pure_bind]
    refine onCondition (fun _ => ?_) fun _ => .read hrest
    exact bind (dottedName hrest) fun name after shorter position hafter => .read hafter

theorem parameterList {position : Nat} {rest : List Token} (scope : NameScope) (earlier : List Parameter)
    (hrest : list.IsRest position rest) :
    Follows list (Parameter.parseList scope list.lastLine earlier rest)
      (Lexemes.parameterList list.lexemes scope earlier position) := by
  rw [Parameter.parseList, Lexemes.parameterList]
  refine bind (parameterType scope hrest) fun type afterType htype position hafterType => ?_
  refine bind (identifier hafterType) fun name afterName hname position hafterName => ?_
  refine onCondition (fun _ => fail hafterName _) fun _ => ?_
  refine onMeeting hafterName (fun line afterComma hcomma hafterComma => ?_) fun hcomma => ?_
  · subst hcomma
    have hothers := parameterList scope (earlier ++ [⟨name, type⟩]) hafterComma
    exact rebound hothers _ fun _ => ⟨rfl, rfl⟩
  · simp only [symbol?_eq_none_iff.mpr hcomma]
    exact onSymbol hafterName fun behind shorter hbehind => .read hbehind
termination_by rest.length
decreasing_by
  simp only [List.length_cons] at hname
  omega

/-- The parameters of a method, whose opening parenthesis the reader has behind it already. -/
theorem parameters (scope : NameScope) (hrest : list.IsRest position rest) {opening : Nat}
    (hopening : Lexemes.symbol list.lexemes '(' opening = pure position) :
    Follows list (Parameter.parseAll scope list.lastLine rest) (Lexemes.parameters list.lexemes scope opening) := by
  rw [Parameter.parseAll, Lexemes.parameters, hopening, pure_bind]
  refine onMeeting hrest (fun line after hclose hafter => ?_) fun hclose => ?_
  · subst hclose
    rw [symbol?_cons]
    exact .read hafter
  · rw [symbol?_eq_none_iff.mpr hclose]
    exact parameterList scope [] hrest

theorem statementExpr (hrest : list.IsRest position rest) :
    Follows list (Statement.parseExpr list.lastLine rest) (Lexemes.statementExpr list.lexemes position) := by
  rw [Statement.parseExpr, Lexemes.statementExpr]
  refine onMeeting hrest (fun line after hreturn hafter => ?_) fun hreturn => ?_
  · subst hreturn
    rw [word?_cons]
    exact bind hafter.followsExprs.ternary fun expr after shorter position hafter => .read hafter
  · rw [word?_eq_none_iff.mpr hreturn]
    exact bind hrest.followsExprs.ternary fun expr after shorter position hafter => .read hafter

theorem statement (hrest : list.IsRest position rest) :
    Follows list (Statement.parse list.lastLine rest) (Lexemes.statement list.lexemes position) := by
  rw [Statement.parse, ← map_eq_pure_bind]
  exact pastSemicolons (statementExpr hrest)

theorem body {position : Nat} {rest : List Token} (methodName : String) (hrest : list.IsRest position rest) :
    Follows list (Statement.parseBody list.lastLine methodName rest) (Lexemes.body list.lexemes methodName position) := by
  rw [Statement.parseBody, Lexemes.body]
  refine onMeeting hrest (fun line after hclose hafter => ?_) fun hclose => ?_
  · subst hclose
    rw [symbol?_cons]
    exact .read hafter
  · rw [symbol?_eq_none_iff.mpr hclose, hrest.look, pure_bind]
    cases rest with
    | nil => exact fail hrest _
    | cons token after =>
      refine bind (statement hrest) fun first afterFirst hfirst position hafterFirst => ?_
      exact bind (body methodName hafterFirst) fun others rest shorter position hrest => .read hrest
termination_by rest.length

theorem memberType (scope : NameScope) (hrest : list.IsRest position rest) :
    Follows list (Member.parseType scope list.lastLine rest) (Lexemes.memberType list.lexemes scope position) := by
  rw [Member.parseType, Lexemes.memberType]
  refine onMeeting hrest (fun line after hdef hafter => ?_) fun hdef => ?_
  · subst hdef
    rw [word?_cons]
    exact .read hafter
  · rw [word?_eq_none_iff.mpr hdef]
    exact typeName scope hrest

theorem method (scope : NameScope) (name : String) (modifiers : Modifiers) (returnType : Option TypeRef)
    (hrest : list.IsRest position rest) {opening : Nat}
    (hopening : Lexemes.symbol list.lexemes '(' opening = pure position) :
    Follows list (Member.parseMethod scope list.lastLine name modifiers returnType rest)
      (Lexemes.method list.lexemes scope name modifiers returnType opening) := by
  refine bind (parameters scope hrest hopening) fun parameters afterParameters _ position hafterParameters => ?_
  refine onOpening hafterParameters fun inside _ position hinside => ?_
  exact bind (body name hinside) fun body after shorter position hafter => .read hafter

theorem initial (hrest : list.IsRest position rest) :
    Follows list (Member.parseInitial list.lastLine rest) (Lexemes.initial list.lexemes position) := by
  rw [Member.parseInitial, Lexemes.initial]
  refine onMeeting hrest (fun line after hsign hafter => ?_) fun hsign => ?_
  · subst hsign
    rw [symbol?_cons]
    exact rebound hafter.followsExprs.ternary _ fun _ => ⟨rfl, rfl⟩
  · rw [symbol?_eq_none_iff.mpr hsign]
    exact .read hrest

theorem field (field : Field) (hrest : list.IsRest position rest) :
    Follows list (Member.parseField list.lastLine field rest) (Lexemes.field list.lexemes field position) := by
  refine bind (initial hrest) fun initial after shorter position hafter => ?_
  obtain ⟨behind, hwalk, hbehind⟩ := hafter.skipSemicolons
  show Follows list _ (Lexemes.skipSemicolons list.lexemes position >>= _)
  rw [hwalk]
  exact .read hbehind

theorem member (scope : NameScope) (className : String) (fields : List Field) (hrest : list.IsRest position rest) :
    Follows list (Member.parse scope list.lastLine className fields rest)
      (Lexemes.member list.lexemes scope className fields position) := by
  rw [Member.parse, Lexemes.member]
  refine onMeeting hrest (fun line after hsign hafter => ?_) fun hsign => ?_
  · subst hsign
    exact fail hrest _
  · rw [startsWith_eq_false_iff.mpr (symbol?_eq_none_iff.mpr hsign), if_neg Bool.false_ne_true]
    refine bind (modifiers .none hrest) fun modifiers afterModifiers _ position hafterModifiers => ?_
    refine bind (memberType scope hafterModifiers) fun type afterType _ namePosition hafterType => ?_
    refine bind (identifier hafterType) fun name afterName _ position hafterName => ?_
    refine onMeeting hafterName (fun line inside hopen hinside => ?_) fun hopen => ?_
    · subst hopen
      exact rebound (method scope name modifiers type hinside hafterName.symbol_cons) _ fun _ => ⟨rfl, rfl⟩
    · simp only [symbol?_eq_none_iff.mpr hopen]
      refine onCondition (fun _ => fail hafterType _) fun _ => ?_
      exact rebound (field { name, modifiers, type, owner := className } hafterName) _ fun _ => ⟨rfl, rfl⟩

end FollowsAs

end GuardedLogging
