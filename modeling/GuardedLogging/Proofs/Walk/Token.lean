import GuardedLogging.Proofs.Token.DottedName

/-!
# Walks through the lexemes

The readers take tokens off the front of a list. So they cannot ask for a token behind the end, and they end because a list gets shorter. A reader that holds a position among the tokens has neither for nothing: it can ask for any position, and its loops end only if they do.

A walk is such a reader. It sees lexemes but no lines, and it may come to a value, to a refusal for what stands at a position, to a position where nothing stands, or to no end at all. Below, and in the modules that follow, there is a walk beside each reader, and the walk follows the reader: they come to the same. So the walk ends, it never asks for what is behind the end of the source, and what the reader gives does not depend on lines.
-/

namespace GuardedLogging

/-- How a walk goes wrong. -/
inductive Fault where
  /-- The walk asked for a position at which not even the end of the source stands. -/
  | outside (position : Nat)
  /-- The source is refused for what stands at the position. -/
  | refused (position : Nat) (cause : ParseError.Cause)
deriving DecidableEq, Repr

/-- What a walk comes to: a value, a fault, or nothing if it does not end. -/
abbrev Walk (α : Type) := ExceptT Fault Option α

/-- What a walk goes through: the lexemes of a source, without their lines. -/
abbrev Lexemes := List Lexeme

namespace Lexemes

section Walks

variable (lexemes : Lexemes)

/-- What stands at a position. Behind the last lexeme stands the end of the source, and nothing behind that. -/
def look (position : Nat) : Walk (Option Lexeme) :=
  if position ≤ lexemes.length then pure lexemes[position]? else throw (.outside position)

/-- Refuses the source for what stands at a position, where it looks for the line to report. -/
def refuse {α : Type} (position : Nat) (cause : ParseError.Cause) : Walk α := do
  let _ ← look lexemes position
  throw (.refused position cause)

/-- What stands at a position, as errors show it. -/
def shown : Option Lexeme → String
  | some lexeme => lexeme.text
  | none => "end of input"

/-- Whether the lexeme stands at a position. -/
def meets (lexeme : Lexeme) (position : Nat) : Walk Bool :=
  return (← look lexemes position) == some lexeme

/-- Goes past the symbol that has to stand at a position. -/
def symbol (symbol : Char) (position : Nat) : Walk Nat := do
  if ← meets lexemes (.op symbol) position then return position + 1
  else refuse lexemes position (.expectedSymbol symbol (shown (← look lexemes position)))

def identifier (position : Nat) : Walk (String × Nat) := do
  match ← look lexemes position with
  | some (.word name) =>
    if isKeyword name then refuse lexemes position (.expectedIdentifier name) else return (name, position + 1)
  | other => refuse lexemes position (.expectedIdentifier (shown other))

/-- Goes past any number of semicolons. -/
def skipSemicolons (lexemes : Lexemes) (position : Nat) : Walk Nat := do
  -- written with the bar, a call of the walk itself leaves no note of its place in the text
  if ← meets lexemes (.op ';') position then lexemes |>.skipSemicolons (position + 1) else return position
partial_fixpoint

/-- Goes past the semicolons behind what a walk reads. -/
def pastSemicolons {α : Type} (walk : Walk (α × Nat)) : Walk (α × Nat) := do
  let (value, position) ← walk
  return (value, ← skipSemicolons lexemes position)

/-- Any number of further parts of a dotted name. A point belongs to the name if a word stands behind the point. -/
def nameParts (lexemes : Lexemes) (position : Nat) : Walk (List String × Nat) := do
  if ← meets lexemes (.op '.') position then
    match ← look lexemes (position + 1) with
    | some (.word name) => do
      let (others, position) ← lexemes |>.nameParts (position + 2)
      return (name :: others, position)
    | _ => return ([], position)
  else return ([], position)
partial_fixpoint

def dottedName (position : Nat) : Walk (String × Nat) := do
  let (first, position) ← identifier lexemes position
  let (others, position) ← nameParts lexemes position
  return (".".intercalate (first :: others), position)

end Walks

end Lexemes

namespace TokenList

def lexemes (list : TokenList) : List Lexeme := list.tokens.map Token.lexeme

/-- The line of the token at a position; behind the last token, that of the end. -/
def lineAt (list : TokenList) (position : Nat) : Nat :=
  Cursor.line list.lastLine (list.tokens.drop position)

/-- These are the tokens from a position on. -/
structure IsRest (list : TokenList) (position : Nat) (rest : List Token) : Prop where
  inside : position ≤ list.tokens.length
  drop : list.tokens.drop position = rest

variable {list : TokenList} {position : Nat} {rest : List Token}

theorem isRest_zero (list : TokenList) : list.IsRest 0 list.tokens := ⟨Nat.zero_le _, rfl⟩

namespace IsRest

theorem next {token : Token} (h : list.IsRest position (token :: rest)) : list.IsRest (position + 1) rest := by
  have hlength : (list.tokens.drop position).length = rest.length + 1 := by
    rw [h.drop]
    rfl
  rw [List.length_drop] at hlength
  refine ⟨by omega, ?_⟩
  rw [← List.drop_drop, h.drop]
  rfl

theorem lineAt (h : list.IsRest position rest) : list.lineAt position = Cursor.line list.lastLine rest := by
  rw [TokenList.lineAt, h.drop]

/-- At a position stands what comes first from there on. -/
theorem look (h : list.IsRest position rest) :
    Lexemes.look list.lexemes position = pure (rest.head?.map Token.lexeme) := by
  have hinside : position ≤ list.lexemes.length := by
    rw [lexemes, List.length_map]
    exact h.inside
  rw [Lexemes.look, if_pos hinside, lexemes, List.getElem?_map, ← h.drop, List.head?_drop]

theorem refuse {α : Type} (h : list.IsRest position rest) (cause : ParseError.Cause) :
    (Lexemes.refuse list.lexemes position cause : Walk α) = throw (.refused position cause) := by
  rw [Lexemes.refuse, h.look]
  rfl

theorem meets (h : list.IsRest position rest) (lexeme : Lexeme) :
    Lexemes.meets list.lexemes lexeme position = pure (rest.head?.map Token.lexeme == some lexeme) := by
  rw [Lexemes.meets, h.look]
  rfl

theorem meets_cons {lexeme : Lexeme} {line : Nat} (h : list.IsRest position (⟨lexeme, line⟩ :: rest)) :
    Lexemes.meets list.lexemes lexeme position = pure true := by
  rw [h.meets]
  exact congrArg pure (beq_self_eq_true (some lexeme))

theorem symbol_cons {symbol : Char} {line : Nat} (h : list.IsRest position (⟨.op symbol, line⟩ :: rest)) :
    Lexemes.symbol list.lexemes symbol position = pure (position + 1) := by
  rw [Lexemes.symbol, h.meets_cons]
  rfl

theorem skipSemicolons (h : list.IsRest position rest) :
    ∃ behind, Lexemes.skipSemicolons list.lexemes position = pure behind ∧
      list.IsRest behind (Cursor.dropSemicolons rest) := by
  induction rest generalizing position with
  | nil =>
    rw [Lexemes.skipSemicolons, h.meets]
    exact ⟨position, rfl, h⟩
  | cons token rest ih =>
    rw [Lexemes.skipSemicolons, h.meets]
    by_cases hsemicolon : Cursor.isSemicolon token = true
    · have hlexeme : token.lexeme = .op ';' := beq_iff_eq.mp hsemicolon
      have hmeets : ((token :: rest).head?.map Token.lexeme == some (.op ';')) = true :=
        beq_iff_eq.mpr (congrArg some hlexeme)
      rw [hmeets, pure_bind, if_pos rfl, Cursor.dropSemicolons, List.dropWhile_cons_of_pos hsemicolon]
      exact ih h.next
    · have hmeets : ((token :: rest).head?.map Token.lexeme == some (.op ';')) = false := by
        simpa [Cursor.isSemicolon] using hsemicolon
      rw [hmeets, pure_bind, if_neg Bool.false_ne_true, Cursor.dropSemicolons,
        List.dropWhile_cons_of_neg hsemicolon]
      exact ⟨position, rfl, h⟩

end IsRest

end TokenList

namespace Cursor

variable {tokens : List Token}

theorem symbol?_eq_none_iff {symbol : Char} :
    symbol? symbol tokens = none ↔ tokens.head?.map Token.lexeme ≠ some (.op symbol) := by
  cases tokens with
  | nil => simp [symbol?]
  | cons token rest => simp [symbol?]

theorem word?_eq_none_iff {word : String} :
    word? word tokens = none ↔ tokens.head?.map Token.lexeme ≠ some (.word word) := by
  cases tokens with
  | nil => simp [word?]
  | cons token rest => simp [word?]

theorem shown_head? (tokens : List Token) : Lexemes.shown (tokens.head?.map Token.lexeme) = found tokens := by
  cases tokens with
  | nil => rfl
  | cons token rest => rfl

end Cursor

/-- The walk comes to what the reader gives: to a value and the position from which tokens are left, where `tells` gives what the reader tells of the value, or to a refusal for the same cause, at a position on the line of the error. -/
inductive FollowsAs (list : TokenList) {α β : Type} (tells : α → Nat → β) {bound : Nat} :
    Parsed β bound → Walk (α × Nat) → Prop
  | read {value : α} {position : Nat} {rest : List Token} {shorter : rest.length < bound}
      (hrest : list.IsRest position rest) :
      FollowsAs list tells (.ok ⟨tells value position, rest, shorter⟩) (pure (value, position))
  | refused {position : Nat} (hinside : position ≤ list.tokens.length) (cause : ParseError.Cause) :
      FollowsAs list tells (.error (.onLine (list.lineAt position) cause)) (throw (.refused position cause))

/-- The walk comes to what the reader gives, and the reader tells the value itself. -/
abbrev Follows (list : TokenList) {α : Type} {bound : Nat} : Parsed α bound → Walk (α × Nat) → Prop :=
  FollowsAs list fun value _ => value

namespace FollowsAs

variable {list : TokenList} {position bound other : Nat} {rest : List Token} {α β γ : Type} {tells : α → Nat → β}

theorem fail (hrest : list.IsRest position rest) (cause : ParseError.Cause) :
    FollowsAs list tells (Cursor.fail list.lastLine rest cause : Parsed β bound)
      (Lexemes.refuse list.lexemes position cause) := by
  rw [hrest.refuse, Cursor.fail, ← hrest.lineAt]
  exact .refused hrest.inside cause

/-- A walk that goes on behind another follows the reader that goes on behind the other. -/
theorem bind {first : Parsed γ bound} {walk : Walk (γ × Nat)} {next : Step Token γ bound → Parsed β other}
    {onward : γ × Nat → Walk (α × Nat)} (h : Follows list first walk)
    (hnext : ∀ value rest shorter position, list.IsRest position rest →
      FollowsAs list tells (next ⟨value, rest, shorter⟩) (onward (value, position))) :
    FollowsAs list tells (first >>= next) (walk >>= onward) := by
  cases h with
  | read hrest => exact hnext _ _ _ _ hrest
  | refused hinside cause => exact .refused hinside cause

/-- What only changes the bound of a step is nothing to a walk. -/
theorem rebound {parsed : Parsed β bound} {walk : Walk (α × Nat)} (h : FollowsAs list tells parsed walk)
    (change : Step Token β bound → Step Token β other)
    (hsame : ∀ step, (change step).value = step.value ∧ (change step).rest = step.rest) :
    FollowsAs list tells (parsed >>= fun step => pure (change step)) walk := by
  cases h with
  | @read value position rest shorter hrest =>
    obtain ⟨hvalue, htokens⟩ := hsame ⟨tells value position, rest, shorter⟩
    show FollowsAs list tells (.ok (change ⟨tells value position, rest, shorter⟩)) _
    revert hvalue htokens
    generalize change ⟨tells value position, rest, shorter⟩ = step
    intro hvalue htokens
    obtain ⟨found, left, hshorter⟩ := step
    cases hvalue
    cases htokens
    exact .read hrest
  | refused hinside cause => exact .refused hinside cause

/-- A walk may go one way if a lexeme stands at its position, and another way if not. -/
theorem onMeeting {lexeme : Lexeme} {parsed : Parsed β bound} {there elsewhere : Walk (α × Nat)}
    (hrest : list.IsRest position rest)
    (hthere : ∀ line after, rest = ⟨lexeme, line⟩ :: after → list.IsRest (position + 1) after →
      FollowsAs list tells parsed there)
    (helsewhere : rest.head?.map Token.lexeme ≠ some lexeme → FollowsAs list tells parsed elsewhere) :
    FollowsAs list tells parsed (Lexemes.meets list.lexemes lexeme position >>= fun met =>
      if met = true then there else elsewhere) := by
  rw [hrest.meets, pure_bind]
  by_cases h : rest.head?.map Token.lexeme = some lexeme
  · rw [if_pos (beq_iff_eq.mpr h)]
    cases rest with
    | nil => cases h
    | cons token after =>
      obtain ⟨found, line⟩ := token
      cases h
      exact hthere line after rfl hrest.next
  · rw [if_neg fun heq => h (beq_iff_eq.mp heq)]
    exact helsewhere h

/-- Reader and walk may go two ways for the same reason. -/
theorem onCondition {condition : Prop} [Decidable condition] {parsed elsewise : Parsed β bound}
    {walk otherwise : Walk (α × Nat)} (h : condition → FollowsAs list tells parsed walk)
    (hnot : ¬condition → FollowsAs list tells elsewise otherwise) :
    FollowsAs list tells (if condition then parsed else elsewise) (if condition then walk else otherwise) := by
  by_cases hcondition : condition
  · rw [if_pos hcondition, if_pos hcondition]
    exact h hcondition
  · rw [if_neg hcondition, if_neg hcondition]
    exact hnot hcondition

/-- The symbol that has to come next. -/
theorem onSymbol {symbol : Char} {next : Step Token Unit rest.length → Parsed β other}
    {onward : Nat → Walk (α × Nat)} (hrest : list.IsRest position rest)
    (hnext : ∀ after shorter, list.IsRest (position + 1) after →
      FollowsAs list tells (next ⟨(), after, shorter⟩) (onward (position + 1))) :
    FollowsAs list tells (Cursor.symbol list.lastLine symbol rest >>= next)
      (Lexemes.symbol list.lexemes symbol position >>= onward) := by
  rcases Cursor.eq_cons_or_symbol?_eq_none symbol rest with ⟨line, after, rfl⟩ | hnone
  · rw [Cursor.symbol, Cursor.symbol?_cons, hrest.symbol_cons, pure_bind]
    exact hnext after (Nat.lt_succ_self _) hrest.next
  · have hmeets : (rest.head?.map Token.lexeme == some (.op symbol)) = false :=
      beq_eq_false_iff_ne.mpr (Cursor.symbol?_eq_none_iff.mp hnone)
    rw [Cursor.symbol, hnone, Lexemes.symbol, hrest.meets, hmeets, pure_bind, if_neg Bool.false_ne_true,
      hrest.look, pure_bind, Cursor.shown_head?]
    show FollowsAs list tells (.error (.onLine _ _)) _
    rw [hrest.refuse, ← hrest.lineAt]
    exact .refused hrest.inside _

theorem identifier (hrest : list.IsRest position rest) :
    Follows list (Cursor.identifier list.lastLine rest) (Lexemes.identifier list.lexemes position) := by
  rw [Lexemes.identifier, hrest.look, pure_bind]
  cases rest with
  | nil => exact fail hrest _
  | cons token after =>
    obtain ⟨lexeme, line⟩ := token
    cases lexeme with
    | word name =>
      exact onCondition (fun _ => fail hrest _) fun _ => .read hrest.next
    | _ => exact fail hrest _

end FollowsAs

namespace TokenList.IsRest

variable {list : TokenList} {position : Nat} {rest : List Token}

theorem nameParts (h : list.IsRest position rest) :
    ∃ behind, Lexemes.nameParts list.lexemes position = pure ((Cursor.nameParts rest).value, behind) ∧
      list.IsRest behind (Cursor.nameParts rest).rest := by
  fun_induction Cursor.nameParts rest generalizing position with
  | case1 dotLine name line rest step =>
    rename_i ih
    obtain ⟨behind, hwalk, hbehind⟩ := ih h.next.next
    refine ⟨behind, ?_, hbehind⟩
    rw [Lexemes.nameParts, h.meets_cons, pure_bind, if_pos rfl, h.next.look, pure_bind]
    show (Lexemes.nameParts list.lexemes (position + 2) >>= _) = _
    rw [hwalk]
    rfl
  | case2 tokens hparts =>
    refine ⟨position, ?_, h⟩
    rw [Lexemes.nameParts, h.meets]
    by_cases hdot : tokens.head?.map Token.lexeme = some (.op '.')
    · cases tokens with
      | nil => cases hdot
      | cons dot after =>
        obtain ⟨_, dotLine⟩ := dot
        cases hdot
        rw [pure_bind, if_pos (by rfl), h.next.look, pure_bind]
        cases after with
        | nil => rfl
        | cons token after =>
          obtain ⟨lexeme, line⟩ := token
          cases lexeme with
          | word name => exact (hparts dotLine name line after rfl).elim
          | _ => rfl
    · rw [pure_bind, if_neg fun heq => hdot (beq_iff_eq.mp heq)]
      rfl

end TokenList.IsRest

namespace FollowsAs

variable {list : TokenList} {position : Nat} {rest : List Token}

theorem dottedName (hrest : list.IsRest position rest) :
    Follows list (Cursor.dottedName list.lastLine rest) (Lexemes.dottedName list.lexemes position) := by
  refine bind (identifier hrest) fun first after shorter position hafter => ?_
  obtain ⟨behind, hwalk, hbehind⟩ := hafter.nameParts
  show Follows list _ (Lexemes.nameParts list.lexemes position >>= _)
  rw [hwalk]
  exact .read hbehind

theorem pastSemicolons {α : Type} {bound : Nat} {first : Parsed α bound} {walk : Walk (α × Nat)}
    (h : Follows list first walk) :
    Follows list (Cursor.skipSemicolons <$> first) (Lexemes.pastSemicolons list.lexemes walk) := by
  cases h with
  | @read value position after shorter hafter =>
    obtain ⟨behind, hwalk, hbehind⟩ := hafter.skipSemicolons
    show Follows list _ (Lexemes.skipSemicolons list.lexemes position >>= _)
    rw [hwalk]
    exact .read hbehind
  | refused hinside cause => exact .refused hinside cause

/-- The symbol that has to come next, where semicolons may stand behind it. -/
theorem onOpening {α β : Type} {tells : α → Nat → β} {other : Nat} {symbol : Char}
    {next : Step Token Unit rest.length → Parsed β other} {onward : Nat → Walk (α × Nat)}
    (hrest : list.IsRest position rest)
    (hnext : ∀ after shorter position, list.IsRest position after →
      FollowsAs list tells (next ⟨(), after, shorter⟩) (onward position)) :
    FollowsAs list tells (Cursor.skipSemicolons <$> Cursor.symbol list.lastLine symbol rest >>= next)
      (Lexemes.symbol list.lexemes symbol position >>= fun opened =>
        Lexemes.skipSemicolons list.lexemes opened >>= onward) := by
  rw [bind_map_left]
  refine onSymbol hrest fun after shorter hafter => ?_
  obtain ⟨behind, hwalk, hbehind⟩ := hafter.skipSemicolons
  rw [hwalk]
  exact hnext _ _ _ hbehind

end FollowsAs

/-- A walk through a whole source comes to what the reader gives: to its value, or to a refusal for the same cause, at a position on the line of the error. -/
inductive Agrees (list : TokenList) {α : Type} : Except ParseError α → Walk α → Prop
  | value (value : α) : Agrees list (.ok value) (pure value)
  | refused {position : Nat} (hinside : position ≤ list.tokens.length) (cause : ParseError.Cause) :
      Agrees list (.error (.onLine (list.lineAt position) cause)) (throw (.refused position cause))

namespace Agrees

variable {list : TokenList} {position bound : Nat} {rest : List Token} {α β : Type}

theorem fail (hrest : list.IsRest position rest) (cause : ParseError.Cause) :
    Agrees list (.error (.onLine (Cursor.line list.lastLine rest) cause) : Except ParseError α)
      (Lexemes.refuse list.lexemes position cause) := by
  rw [hrest.refuse, ← hrest.lineAt]
  exact .refused hrest.inside cause

theorem bind {γ : Type} {tells : γ → Nat → β} {first : Parsed β bound} {walk : Walk (γ × Nat)}
    {next : Step Token β bound → Except ParseError α} {onward : γ × Nat → Walk α} (h : FollowsAs list tells first walk)
    (hnext : ∀ value rest shorter position, list.IsRest position rest →
      Agrees list (next ⟨tells value position, rest, shorter⟩) (onward (value, position))) :
    Agrees list (first >>= next) (walk >>= onward) := by
  cases h with
  | read hrest => exact hnext _ _ _ _ hrest
  | refused hinside cause => exact .refused hinside cause

end Agrees

end GuardedLogging
