import GuardedLogging.Token.Cursor

/-!
# What a reader gives

A reader gives a value and leaves tokens, or it gives nothing. Each of the readers that the others are made of is described by what it gives, once, so that nothing needs to be known of the bounds that its steps carry.

Lines matter for errors only. A reader reads a list of lexemes if it gives the same value from all tokens with these lexemes.
-/

namespace GuardedLogging

variable {α β : Type} {bound : Nat}

namespace Step

variable {σ : Type}

@[simp] theorem map_value (f : α → β) (step : Step σ α bound) : (step.map f).value = f step.value := rfl

@[simp] theorem map_rest (f : α → β) (step : Step σ α bound) : (step.map f).rest = step.rest := rfl

@[simp] theorem weaken_value {greater : Nat} (h : bound ≤ greater) (step : Step σ α bound) :
    (step.weaken h).value = step.value := rfl

@[simp] theorem weaken_rest {greater : Nat} (h : bound ≤ greater) (step : Step σ α bound) :
    (step.weaken h).rest = step.rest := rfl

@[simp] theorem after_value {start : Nat} (h : bound < start) (step : Step σ α bound) :
    (step.after h).value = step.value := rfl

@[simp] theorem after_rest {start : Nat} (h : bound < start) (step : Step σ α bound) :
    (step.after h).rest = step.rest := rfl

@[simp] theorem optional_value (step : Step σ α bound) : step.optional.value = step.value := rfl

@[simp] theorem optional_rest (step : Step σ α bound) : step.optional.rest = step.rest := rfl

@[simp] theorem afterOptional_value {start : Nat} (h : bound < start + 1) (step : Step σ α bound) :
    (step.afterOptional h).value = step.value := rfl

@[simp] theorem afterOptional_rest {start : Nat} (h : bound < start + 1) (step : Step σ α bound) :
    (step.afterOptional h).rest = step.rest := rfl

@[simp] theorem next_value {c : σ} (value : α) (rest : List σ) : (next (c := c) value rest).value = value := rfl

@[simp] theorem next_rest {c : σ} (value : α) (rest : List σ) : (next (c := c) value rest).rest = rest := rfl

@[simp] theorem stay_value (value : α) (input : List σ) : (stay value input).value = value := rfl

@[simp] theorem stay_rest (value : α) (input : List σ) : (stay value input).rest = input := rfl

end Step

/-- The reading gives this value and leaves these tokens. -/
def Gives (parsed : Parsed α bound) (value : α) (rest : List Token) : Prop :=
  ∃ step, parsed = .ok step ∧ step.value = value ∧ step.rest = rest

namespace Gives

theorem shorter {parsed : Parsed α bound} {value : α} {rest : List Token}
    (h : Gives parsed value rest) : rest.length < bound := by
  obtain ⟨step, _, _, rfl⟩ := h
  exact step.shorter

theorem unique {parsed : Parsed α bound} {value other : α} {rest otherRest : List Token}
    (h : Gives parsed value rest) (hother : Gives parsed other otherRest) :
    other = value ∧ otherRest = rest := by
  obtain ⟨step, hstep, rfl, rfl⟩ := h
  obtain ⟨otherStep, hotherStep, rfl, rfl⟩ := hother
  cases hstep.symm.trans hotherStep
  exact ⟨rfl, rfl⟩

@[simp] theorem ok_iff {step : Step Token α bound} {value : α} {rest : List Token} :
    Gives (.ok step) value rest ↔ step.value = value ∧ step.rest = rest := by
  constructor
  · rintro ⟨found, hfound, hvalue, hrest⟩
    cases hfound
    exact ⟨hvalue, hrest⟩
  · exact fun h => ⟨step, rfl, h⟩

@[simp] theorem pure_iff {step : Step Token α bound} {value : α} {rest : List Token} :
    Gives (pure step) value rest ↔ step.value = value ∧ step.rest = rest :=
  ok_iff

theorem stay_iff {tokens rest : List Token} {value stayed : α} :
    Gives (pure (.stay stayed tokens)) value rest ↔ value = stayed ∧ rest = tokens :=
  pure_iff.trans (and_congr eq_comm eq_comm)

@[simp] theorem error_iff {error : ParseError} {value : α} {rest : List Token} :
    Gives (.error error : Parsed α bound) value rest ↔ False := by
  constructor
  · rintro ⟨_, h, _⟩
    cases h
  · exact False.elim

@[simp] theorem fail_iff {lastLine : Nat} {tokens : List Token} {cause : ParseError.Cause}
    {value : α} {rest : List Token} :
    Gives (Cursor.fail lastLine tokens cause : Parsed α bound) value rest ↔ False :=
  error_iff

instance [DecidableEq α] (parsed : Parsed α bound) (value : α) (rest : List Token) :
    Decidable (Gives parsed value rest) :=
  match parsed with
  | .ok _ => decidable_of_iff _ ok_iff.symm
  | .error _ => .isFalse error_iff.mp

/-- A reading after another gives what the second gives where the first ended. -/
theorem bind_iff {first : Parsed α bound} {other : Nat} {next : Step Token α bound → Parsed β other}
    {value : β} {rest : List Token} :
    Gives (first >>= next) value rest ↔
      ∃ before middle, ∃ h : Gives first before middle,
        Gives (next ⟨before, middle, h.shorter⟩) value rest := by
  cases first with
  | error error =>
    constructor
    · rintro ⟨_, h, _⟩
      cases h
    · rintro ⟨_, _, h, _⟩
      exact (error_iff.mp h).elim
  | ok step =>
    constructor
    · exact fun h => ⟨step.value, step.rest, ok_iff.mpr ⟨rfl, rfl⟩, h⟩
    · rintro ⟨_, _, h, hnext⟩
      obtain ⟨rfl, rfl⟩ := ok_iff.mp h
      exact hnext

end Gives

namespace Cursor

variable {lastLine line : Nat} {tokens rest : List Token}

@[simp] theorem symbol?_cons (symbol : Char) (rest : List Token) :
    symbol? symbol (⟨.op symbol, line⟩ :: rest) = some (.next () rest) :=
  if_pos rfl

theorem eq_cons_or_symbol?_eq_none (symbol : Char) (tokens : List Token) :
    (∃ line rest, tokens = ⟨.op symbol, line⟩ :: rest) ∨ symbol? symbol tokens = none := by
  cases tokens with
  | nil => exact .inr rfl
  | cons token rest =>
    obtain ⟨lexeme, line⟩ := token
    by_cases h : lexeme = .op symbol
    · subst h
      exact .inl ⟨line, rest, rfl⟩
    · exact .inr (if_neg h)

@[simp] theorem word?_cons (word : String) (rest : List Token) :
    word? word (⟨.word word, line⟩ :: rest) = some (.next () rest) :=
  if_pos rfl

theorem eq_cons_or_word?_eq_none (word : String) (tokens : List Token) :
    (∃ line rest, tokens = ⟨.word word, line⟩ :: rest) ∨ word? word tokens = none := by
  cases tokens with
  | nil => exact .inr rfl
  | cons token rest =>
    obtain ⟨lexeme, line⟩ := token
    by_cases h : lexeme = .word word
    · subst h
      exact .inl ⟨line, rest, rfl⟩
    · exact .inr (if_neg h)

theorem iff_front_or {lexeme : Lexeme} {absent p other : Prop} {front : List Token → Prop}
    (hsplit : (∃ line after, tokens = ⟨lexeme, line⟩ :: after) ∨ absent)
    (hclash : ∀ line after, tokens = ⟨lexeme, line⟩ :: after → ¬absent)
    (hfront : ∀ line after, tokens = ⟨lexeme, line⟩ :: after → (p ↔ front after))
    (hother : absent → (p ↔ other)) :
    p ↔ (∃ line after, tokens = ⟨lexeme, line⟩ :: after ∧ front after) ∨ (absent ∧ other) := by
  rcases hsplit with ⟨line, after, htokens⟩ | habsent
  · constructor
    · intro h
      exact .inl ⟨line, after, htokens, (hfront line after htokens).mp h⟩
    · rintro (⟨line, after, htokens, h⟩ | ⟨habsent, _⟩)
      · exact (hfront line after htokens).mpr h
      · exact absurd habsent (hclash line after htokens)
  · constructor
    · intro h
      exact .inr ⟨habsent, (hother habsent).mp h⟩
    · rintro (⟨line, after, htokens, _⟩ | ⟨_, h⟩)
      · exact absurd habsent (hclash line after htokens)
      · exact (hother habsent).mpr h

theorem iff_symbol_or {symbol : Char} {p other : Prop} {front : List Token → Prop}
    (hfront : ∀ line after, tokens = ⟨.op symbol, line⟩ :: after → (p ↔ front after))
    (hother : symbol? symbol tokens = none → (p ↔ other)) :
    p ↔ (∃ line after, tokens = ⟨.op symbol, line⟩ :: after ∧ front after) ∨
      (symbol? symbol tokens = none ∧ other) := by
  refine iff_front_or (eq_cons_or_symbol?_eq_none symbol tokens) ?_ hfront hother
  rintro line after rfl hnone
  rw [symbol?_cons] at hnone
  cases hnone

theorem iff_word_or {word : String} {p other : Prop} {front : List Token → Prop}
    (hfront : ∀ line after, tokens = ⟨.word word, line⟩ :: after → (p ↔ front after))
    (hother : word? word tokens = none → (p ↔ other)) :
    p ↔ (∃ line after, tokens = ⟨.word word, line⟩ :: after ∧ front after) ∨
      (word? word tokens = none ∧ other) := by
  refine iff_front_or (eq_cons_or_word?_eq_none word tokens) ?_ hfront hother
  rintro line after rfl hnone
  rw [word?_cons] at hnone
  cases hnone

/-- A list that may be closed at once: the closing symbol comes next, or else the list is read. -/
theorem gives_closing_iff {symbol : Char} {value closed : α} {other : Parsed α tokens.length} :
    Gives (match symbol? symbol tokens with
        | some closing => return closing.map fun _ => closed
        | none => other) value rest ↔
      (∃ line, tokens = ⟨.op symbol, line⟩ :: rest ∧ value = closed) ∨
        (symbol? symbol tokens = none ∧ Gives other value rest) := by
  rcases eq_cons_or_symbol?_eq_none symbol tokens with ⟨line, after, rfl⟩ | hnone
  · simp only [symbol?_cons, Gives.pure_iff, Step.map_value, Step.map_rest, Step.next_rest]
    constructor
    · rintro ⟨rfl, rfl⟩
      exact .inl ⟨line, rfl, rfl⟩
    · rintro (⟨_, heq, rfl⟩ | ⟨h, _⟩)
      · cases heq
        exact ⟨rfl, rfl⟩
      · cases h
  · simp only [hnone, true_and]
    constructor
    · exact .inr
    · rintro (⟨line, rfl, _⟩ | h)
      · rw [symbol?_cons] at hnone
        cases hnone
      · exact h

theorem startsWith_eq_false_iff {symbol : Char} :
    startsWith symbol tokens = false ↔ symbol? symbol tokens = none := by
  cases tokens with
  | nil => simp [startsWith, symbol?]
  | cons token rest => simp [startsWith, symbol?]

theorem gives_symbol_iff {symbol : Char} {value : Unit} :
    Gives (Cursor.symbol lastLine symbol tokens) value rest ↔
      ∃ line, tokens = ⟨.op symbol, line⟩ :: rest := by
  rw [Cursor.symbol]
  rcases eq_cons_or_symbol?_eq_none symbol tokens with ⟨line, after, rfl⟩ | h
  · simp
  · rw [h]
    simp only [Gives.fail_iff, false_iff]
    rintro ⟨line, rfl⟩
    simp at h

theorem ne_of_isKeyword {name keyword : String} (h : isKeyword name = false)
    (hkeyword : isKeyword keyword = true) : name ≠ keyword := by
  rintro rfl
  rw [h] at hkeyword
  cases hkeyword

theorem gives_identifier_iff {name : String} :
    Gives (identifier lastLine tokens) name rest ↔
      ∃ line, tokens = ⟨.word name, line⟩ :: rest ∧ isKeyword name = false := by
  unfold identifier
  split
  · rename_i found line after
    by_cases h : isKeyword found = true
    · rw [if_pos h]
      simp only [Gives.error_iff, false_iff]
      rintro ⟨_, heq, hname⟩
      cases heq
      rw [h] at hname
      cases hname
    · rw [if_neg h, Gives.ok_iff]
      constructor
      · rintro ⟨rfl, rfl⟩
        exact ⟨line, rfl, Bool.eq_false_iff.mpr h⟩
      · rintro ⟨_, heq, _⟩
        cases heq
        exact ⟨rfl, rfl⟩
  · rename_i hword
    simp only [Gives.fail_iff, false_iff]
    rintro ⟨line, rfl, _⟩
    exact hword _ _ _ rfl

theorem gives_member_iff {name : String} :
    Gives (member lastLine tokens) name rest ↔ ∃ line, tokens = ⟨.word name, line⟩ :: rest := by
  unfold member
  split
  · rename_i found line after
    rw [Gives.ok_iff]
    constructor
    · rintro ⟨rfl, rfl⟩
      exact ⟨line, rfl⟩
    · rintro ⟨_, heq⟩
      cases heq
      exact ⟨rfl, rfl⟩
  · rename_i hword
    simp only [Gives.fail_iff, false_iff]
    rintro ⟨line, heq⟩
    exact hword _ _ (by cases heq; rfl)
  · simp

theorem gives_dottedName_iff {name : String} :
    Gives (dottedName lastLine tokens) name rest ↔
      ∃ first middle, Gives (identifier lastLine tokens) first middle ∧
        name = ".".intercalate (first :: (nameParts middle).value) ∧
          rest = (nameParts middle).rest := by
  rw [dottedName, Gives.bind_iff]
  constructor
  · rintro ⟨first, middle, h, hname⟩
    simp only [Gives.pure_iff, Step.weaken_value, Step.map_value, Step.weaken_rest,
      Step.map_rest] at hname
    exact ⟨first, middle, h, hname.1.symm, hname.2.symm⟩
  · rintro ⟨first, middle, h, rfl, rfl⟩
    exact ⟨first, middle, h, by simp⟩

/-- A reader that also takes the semicolons behind what it reads. -/
theorem gives_skipSemicolons_iff {α : Type} {bound : Nat} {parsed : Parsed α bound} {value : α} :
    Gives (skipSemicolons <$> parsed) value rest ↔
      ∃ middle, Gives parsed value middle ∧ rest = dropSemicolons middle := by
  cases parsed with
  | error error =>
    show Gives (.error error : Parsed α bound) value rest ↔ _
    simp
  | ok step =>
    show Gives (.ok (skipSemicolons step)) value rest ↔ _
    simp only [Gives.ok_iff]
    constructor
    · rintro ⟨rfl, rfl⟩
      exact ⟨step.rest, ⟨rfl, rfl⟩, rfl⟩
    · rintro ⟨_, ⟨rfl, rfl⟩, rfl⟩
      exact ⟨rfl, rfl⟩

end Cursor

/-! ### Reading lexemes -/

theorem exists_of_map_lexeme_eq_cons {tokens : List Token} {lexeme : Lexeme} {lexemes : List Lexeme}
    (h : tokens.map Token.lexeme = lexeme :: lexemes) :
    ∃ line rest, tokens = ⟨lexeme, line⟩ :: rest ∧ rest.map Token.lexeme = lexemes := by
  obtain ⟨⟨_, line⟩, rest, rfl, rfl, hrest⟩ := List.map_eq_cons_iff.mp h
  exact ⟨line, rest, rfl, hrest⟩

/-- From all tokens with these lexemes, the reader gives the value and leaves tokens with the lexemes `after`. -/
def Reads {bound : List Token → Nat} (parse : (tokens : List Token) → Parsed α (bound tokens))
    (lexemes : List Lexeme) (value : α) (after : List Lexeme) : Prop :=
  ∀ tokens, tokens.map Token.lexeme = lexemes →
    ∃ rest, Gives (parse tokens) value rest ∧ rest.map Token.lexeme = after

/-- From tokens with these lexemes, the reader gives nothing. -/
def Refuses {bound : List Token → Nat} (parse : (tokens : List Token) → Parsed α (bound tokens))
    (lexemes : List Lexeme) : Prop :=
  ∀ tokens, tokens.map Token.lexeme = lexemes → ∀ value rest, ¬Gives (parse tokens) value rest

/-- The symbol does not come next. -/
def NotNext (symbol : Char) (lexemes : List Lexeme) : Prop := lexemes.head? ≠ some (.op symbol)

theorem notNext_symbol {symbol other : Char} (h : other ≠ symbol) (after : List Lexeme) :
    NotNext symbol (.op other :: after) :=
  fun hhead => h (Lexeme.op.inj (Option.some.inj hhead))

theorem notNext_word (symbol : Char) (word : String) (after : List Lexeme) :
    NotNext symbol (.word word :: after) :=
  nofun

theorem NotNext.symbol?_eq_none {symbol : Char} {tokens : List Token} {lexemes : List Lexeme}
    (h : NotNext symbol lexemes) (htokens : tokens.map Token.lexeme = lexemes) :
    Cursor.symbol? symbol tokens = none := by
  rcases Cursor.eq_cons_or_symbol?_eq_none symbol tokens with ⟨line, rest, rfl⟩ | hnone
  · exact absurd (by rw [← htokens]; rfl) h
  · exact hnone

theorem NotNext.dropSemicolons_eq {tokens : List Token} {lexemes : List Lexeme}
    (h : NotNext ';' lexemes) (htokens : tokens.map Token.lexeme = lexemes) :
    Cursor.dropSemicolons tokens = tokens := by
  cases tokens with
  | nil => rfl
  | cons token rest =>
    refine List.dropWhile_cons_of_neg fun hsemicolon => h ?_
    rw [← htokens, ← beq_iff_eq.mp hsemicolon]
    rfl

end GuardedLogging
