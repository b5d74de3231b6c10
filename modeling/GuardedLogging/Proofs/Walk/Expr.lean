import GuardedLogging.Expr.Parse
import GuardedLogging.Proofs.Walk.Token

/-!
# Walks through expressions

Beside each reader of expressions there is a walk, in which the grammar calls itself without a bound. The readers only call themselves on fewer tokens, and by induction on how many are left each walk follows its reader.
-/

namespace GuardedLogging

namespace Lexemes

section Walks

variable (lexemes : Lexemes)

def leaf (position : Nat) : Walk (Expr × Nat) := do
  match ← look lexemes position with
  | some (.literal text) => return (.const (.text (String.ofList (Literal.unquote text.toList))), position + 1)
  | some (.number text) => return (.const (Literal.numberValue text.toList), position + 1)
  | some (.word word) =>
    if word = "null" then return (.const .null, position + 1)
    else if word = "true" then return (.const (.bool true), position + 1)
    else if word = "false" then return (.const (.bool false), position + 1)
    else if isKeyword word then refuse lexemes position (.unexpectedKeyword word)
    else if ← meets lexemes (.op '(') (position + 1) then refuse lexemes position (.callWithoutReceiver word)
    else return (.var word, position + 1)
  | other => refuse lexemes position (.unexpectedToken (shown other))

mutual

def ternary (lexemes : Lexemes) (position : Nat) : Walk (Expr × Nat) := do
  let (test, position) ← lexemes |>.unary position
  if ← meets lexemes (.op '?') position then
    let (whenTrue, position) ← lexemes |>.ternary (position + 1)
    let position ← symbol lexemes ':' position
    let (whenFalse, position) ← lexemes |>.ternary position
    return (.ternary test whenTrue whenFalse, position)
  else return (test, position)
partial_fixpoint

def unary (lexemes : Lexemes) (position : Nat) : Walk (Expr × Nat) := do
  if ← meets lexemes (.op '!') position then
    let (operand, position) ← lexemes |>.unary (position + 1)
    return (.not operand, position)
  else
    let (primary, position) ← lexemes |>.primary position
    lexemes |>.suffixes primary position
partial_fixpoint

def primary (lexemes : Lexemes) (position : Nat) : Walk (Expr × Nat) := do
  if ← meets lexemes (.op '(') position then
    let (inner, position) ← lexemes |>.ternary (position + 1)
    let position ← symbol lexemes ')' position
    return (inner, position)
  else leaf lexemes position
partial_fixpoint

/-- Any number of properties and calls behind a receiver. The name of a member is looked for behind the point, whatever stands there. -/
def suffixes (lexemes : Lexemes) (receiver : Expr) (position : Nat) : Walk (Expr × Nat) := do
  if ← meets lexemes (.op '.') position then
    match ← look lexemes (position + 1) with
    | some (.word name) =>
      if ← meets lexemes (.op '(') (position + 2) then
        let (arguments, position) ← lexemes |>.arguments (position + 2)
        lexemes |>.suffixes (.call receiver name arguments) position
      else lexemes |>.suffixes (.property receiver name) (position + 2)
    | other => refuse lexemes (position + 1) (.expectedMember ((other.map Lexeme.text).getD ""))
  else return (receiver, position)
partial_fixpoint

/-- The arguments of a call with the parentheses around them. -/
def arguments (lexemes : Lexemes) (position : Nat) : Walk (List Expr × Nat) := do
  let position ← symbol lexemes '(' position
  if ← meets lexemes (.op ')') position then return ([], position + 1)
  else
    let (arguments, position) ← lexemes |>.list position
    let position ← symbol lexemes ')' position
    return (arguments, position)
partial_fixpoint

def list (lexemes : Lexemes) (position : Nat) : Walk (List Expr × Nat) := do
  let (first, position) ← lexemes |>.ternary position
  if ← meets lexemes (.op ',') position then
    let (others, position) ← lexemes |>.list (position + 1)
    return (first :: others, position)
  else return ([first], position)
partial_fixpoint

end

end Walks

end Lexemes

/-- From the position on, the walks through expressions follow their readers. -/
structure FollowsExprs (list : TokenList) (position : Nat) (rest : List Token) : Prop where
  ternary : Follows list (Expr.parseTernary list.lastLine rest) (Lexemes.ternary list.lexemes position)
  unary : Follows list (Expr.parseUnary list.lastLine rest) (Lexemes.unary list.lexemes position)
  suffixes : ∀ receiver, Follows list (Expr.parseSuffixes list.lastLine receiver rest)
    (Lexemes.suffixes list.lexemes receiver position)
  list : Follows list (Expr.parseList list.lastLine rest) (Lexemes.list list.lexemes position)

namespace FollowsAs

open GuardedLogging.Expr

variable {list : TokenList} {position : Nat} {rest : List Token}

theorem leaf (hrest : list.IsRest position rest) :
    Follows list (parseLeaf list.lastLine rest) (Lexemes.leaf list.lexemes position) := by
  rw [Lexemes.leaf, hrest.look, pure_bind]
  cases rest with
  | nil => exact fail hrest _
  | cons token after =>
    obtain ⟨lexeme, line⟩ := token
    cases lexeme with
    | literal text => exact .read hrest.next
    | number text => exact .read hrest.next
    | op symbol => exact fail hrest _
    | word word =>
      rw [parseLeaf]
      refine onCondition (fun _ => .read hrest.next) fun _ => ?_
      refine onCondition (fun _ => .read hrest.next) fun _ => ?_
      refine onCondition (fun _ => .read hrest.next) fun _ => ?_
      refine onCondition (fun _ => fail hrest _) fun _ => ?_
      refine onMeeting hrest.next (fun openLine inside hopen _ => ?_) fun hopen => ?_
      · rw [hopen]
        exact fail hrest _
      · have hstarts : Cursor.startsWith '(' after = false :=
          Cursor.startsWith_eq_false_iff.mpr (Cursor.symbol?_eq_none_iff.mpr hopen)
        rw [hstarts]
        exact .read hrest.next

/-- The arguments of a call, whose opening parenthesis the reader has behind it already. -/
theorem arguments (hrest : list.IsRest position rest) {opening : Nat}
    (hopening : Lexemes.symbol list.lexemes '(' opening = pure position)
    (hlist : FollowsExprs list position rest) :
    Follows list (parseArguments list.lastLine rest) (Lexemes.arguments list.lexemes opening) := by
  rw [parseArguments, Lexemes.arguments, hopening, pure_bind]
  refine onMeeting hrest (fun line after hclose hafter => ?_) fun hclose => ?_
  · subst hclose
    rw [Cursor.symbol?_cons]
    exact .read hafter
  · rw [Cursor.symbol?_eq_none_iff.mpr hclose]
    refine bind hlist.list fun arguments after shorter position hafter => ?_
    exact onSymbol hafter fun behind shorter hbehind => .read hbehind

section Step

variable (ih : ∀ after behind, after.length < rest.length → list.IsRest behind after →
  FollowsExprs list behind after)
include ih

theorem primary (hrest : list.IsRest position rest) :
    Follows list (parsePrimary list.lastLine rest) (Lexemes.primary list.lexemes position) := by
  rw [parsePrimary, Lexemes.primary]
  refine onMeeting hrest (fun line inside hopen hinside => ?_) fun hopen => ?_
  · subst hopen
    rw [Cursor.symbol?_cons]
    refine bind (ih inside _ (Nat.lt_succ_self _) hinside).ternary fun inner after shorter position hafter => ?_
    exact onSymbol hafter fun behind shorter hbehind => .read hbehind
  · rw [Cursor.symbol?_eq_none_iff.mpr hopen]
    exact leaf hrest

theorem unary (hrest : list.IsRest position rest) :
    Follows list (parseUnary list.lastLine rest) (Lexemes.unary list.lexemes position) := by
  rw [parseUnary, Lexemes.unary]
  refine onMeeting hrest (fun line after hmark hafter => ?_) fun hmark => ?_
  · subst hmark
    rw [Cursor.symbol?_cons]
    exact bind (ih after _ (Nat.lt_succ_self _) hafter).unary fun operand behind shorter position hbehind =>
      .read hbehind
  · rw [Cursor.symbol?_eq_none_iff.mpr hmark]
    refine bind (primary ih hrest) fun receiver after shorter position hafter => ?_
    exact rebound ((ih after position shorter hafter).suffixes receiver) _ fun _ => ⟨rfl, rfl⟩

theorem suffixes (receiver : Expr) (hrest : list.IsRest position rest) :
    Follows list (parseSuffixes list.lastLine receiver rest) (Lexemes.suffixes list.lexemes receiver position) := by
  rw [parseSuffixes, Lexemes.suffixes]
  refine onMeeting hrest (fun line afterDot hdot hafterDot => ?_) fun hdot => ?_
  · subst hdot
    rw [Cursor.symbol?_cons, hafterDot.look, pure_bind]
    cases afterDot with
    | nil => exact fail hafterDot _
    | cons token afterName =>
      obtain ⟨lexeme, nameLine⟩ := token
      cases lexeme with
      | word name =>
        have hafterName := hafterDot.next
        refine onMeeting hafterName (fun openLine inside hopen hinside => ?_) fun hopen => ?_
        · subst hopen
          have hinner := ih inside _ (by simp only [List.length_cons]; omega) hinside
          refine bind (arguments hinside hafterName.symbol_cons hinner) fun arguments after shorter position hafter => ?_
          have houter := ih after position (by simp only [List.length_cons]; omega) hafter
          exact rebound (houter.suffixes _) _ fun _ => ⟨rfl, rfl⟩
        · simp only [Cursor.member, Bind.bind, Except.bind, Step.next_rest, Step.next_value,
            Cursor.symbol?_eq_none_iff.mpr hopen]
          have houter := ih afterName _ (by simp only [List.length_cons]; omega) hafterName
          exact rebound (houter.suffixes _) _ fun _ => ⟨rfl, rfl⟩
      | _ => exact fail hafterDot _
  · rw [Cursor.symbol?_eq_none_iff.mpr hdot]
    exact .read hrest

theorem ternary (hunary : Follows list (parseUnary list.lastLine rest) (Lexemes.unary list.lexemes position)) :
    Follows list (parseTernary list.lastLine rest) (Lexemes.ternary list.lexemes position) := by
  rw [parseTernary, Lexemes.ternary]
  refine bind hunary fun test afterTest htest position hafterTest => ?_
  refine onMeeting hafterTest (fun line afterMark hmark hafterMark => ?_) fun hmark => ?_
  · subst hmark
    refine bind (ih afterMark _ (by simp only [List.length_cons] at htest; omega) hafterMark).ternary
      fun whenTrue afterTrue htrue behindTrue hafterTrue => ?_
    refine onSymbol hafterTrue fun afterColon hcolon hafterColon => ?_
    refine bind (ih afterColon _ (by simp only [List.length_cons] at htest; omega) hafterColon).ternary
      fun whenFalse rest shorter position hrest => ?_
    exact .read hrest
  · simp only [Cursor.symbol?_eq_none_iff.mpr hmark]
    exact .read hafterTest

theorem exprs (hternary : Follows list (parseTernary list.lastLine rest) (Lexemes.ternary list.lexemes position)) :
    Follows list (parseList list.lastLine rest) (Lexemes.list list.lexemes position) := by
  rw [parseList, Lexemes.list]
  refine bind hternary fun first afterFirst hfirst position hafterFirst => ?_
  refine onMeeting hafterFirst (fun line afterComma hcomma hafterComma => ?_) fun hcomma => ?_
  · subst hcomma
    have hothers := ih afterComma _ (by simp only [List.length_cons] at hfirst; omega) hafterComma
    exact bind hothers.list fun others rest shorter position hrest => .read hrest
  · simp only [Cursor.symbol?_eq_none_iff.mpr hcomma]
    exact .read hafterFirst

end Step

end FollowsAs

theorem TokenList.IsRest.followsExprs {list : TokenList} {position : Nat} {rest : List Token}
    (hrest : list.IsRest position rest) : FollowsExprs list position rest := by
  induction hlength : rest.length using Nat.strongRecOn generalizing position rest with
  | ind length ih =>
    subst hlength
    have hshorter : ∀ after behind, after.length < rest.length → list.IsRest behind after →
        FollowsExprs list behind after := fun after behind hlt hafter => ih after.length hlt hafter rfl
    have hunary := FollowsAs.unary hshorter hrest
    have hternary := FollowsAs.ternary hshorter hunary
    exact {
      unary := hunary
      ternary := hternary
      suffixes := fun receiver => FollowsAs.suffixes hshorter receiver hrest
      list := FollowsAs.exprs hshorter hternary
    }

/-- The walk through a text that is to be one expression. -/
def Lexemes.expression (lexemes : List Lexeme) : Walk Expr := do
  let (expr, position) ← ternary lexemes 0
  match ← look lexemes position with
  | some lexeme => refuse lexemes position (.tokensAfterExpression lexeme.text)
  | none => return expr

theorem Expr.agrees_parse {text : String} {list : TokenList} (htokens : tokenize text = .ok list) :
    Agrees list (Expr.parse text) (Lexemes.expression list.lexemes) := by
  rw [Expr.parse, htokens, Lexemes.expression]
  refine Agrees.bind list.isRest_zero.followsExprs.ternary fun expr rest shorter position hrest => ?_
  show Agrees list _ (Lexemes.look list.lexemes position >>= _)
  rw [hrest.look, pure_bind]
  cases rest with
  | nil => exact .value expr
  | cons token rest => exact .fail hrest _

end GuardedLogging
