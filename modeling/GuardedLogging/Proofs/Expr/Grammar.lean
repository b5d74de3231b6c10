import GuardedLogging.Expr.Parse
import GuardedLogging.Expr.Source
import GuardedLogging.Proofs.Token.Reading

/-!
# The grammar of expressions

A derivation says which lexemes an expression is read from, with one constructor a production. The readers of the four levels accept exactly what the grammar derives.
-/

namespace GuardedLogging

open Cursor

namespace Expr

variable {lastLine : Nat} {tokens rest : List Token} {expr receiver : Expr} {exprs : List Expr}

/-- A leaf and the lexeme it is read from. -/
inductive Leaf : Lexeme → Expr → Prop
  | literal (text : String) :
      Leaf (.literal text) (const (.text (String.ofList (Literal.unquote text.toList))))
  | number (text : String) : Leaf (.number text) (const (Literal.numberValue text.toList))
  | nullWord : Leaf (.word "null") (const .null)
  | trueWord : Leaf (.word "true") (const (.bool true))
  | falseWord : Leaf (.word "false") (const (.bool false))
  | name {name : String} (h : isKeyword name = false) : Leaf (.word name) (var name)

/-! ### What each reader gives -/

theorem gives_parseLeaf_iff :
    Gives (parseLeaf lastLine tokens) expr rest ↔
      ∃ lexeme line, tokens = ⟨lexeme, line⟩ :: rest ∧ Leaf lexeme expr ∧
        ∀ name, expr = var name → symbol? '(' rest = none := by
  constructor
  · intro h
    unfold parseLeaf at h
    split at h
    · rename_i text line after
      obtain ⟨rfl, rfl⟩ := Gives.ok_iff.mp h
      exact ⟨_, line, rfl, .literal text, fun _ => nofun⟩
    · rename_i text line after
      obtain ⟨rfl, rfl⟩ := Gives.ok_iff.mp h
      refine ⟨_, line, rfl, .number text, fun name hname => ?_⟩
      cases hname
    · rename_i word line after
      split at h
      · rename_i hword
        subst hword
        obtain ⟨rfl, rfl⟩ := Gives.ok_iff.mp h
        exact ⟨_, line, rfl, .nullWord, fun _ => nofun⟩
      · split at h
        · rename_i hword
          subst hword
          obtain ⟨rfl, rfl⟩ := Gives.ok_iff.mp h
          exact ⟨_, line, rfl, .trueWord, fun _ => nofun⟩
        · split at h
          · rename_i hword
            subst hword
            obtain ⟨rfl, rfl⟩ := Gives.ok_iff.mp h
            exact ⟨_, line, rfl, .falseWord, fun _ => nofun⟩
          · split at h
            · simp at h
            · rename_i hkeyword
              split at h
              · simp at h
              · rename_i hcall
                obtain ⟨rfl, rfl⟩ := Gives.ok_iff.mp h
                exact ⟨_, line, rfl, .name (Bool.eq_false_iff.mpr hkeyword), fun _ _ =>
                  startsWith_eq_false_iff.mp (Bool.eq_false_iff.mpr hcall)⟩
    · simp at h
  · rintro ⟨lexeme, line, rfl, hleaf, hcall⟩
    cases hleaf with
    | literal text => simp [parseLeaf]
    | number text => simp [parseLeaf]
    | nullWord => simp [parseLeaf]
    | trueWord => simp [parseLeaf]
    | falseWord => simp [parseLeaf]
    | @name name hname =>
      have hnull : name ≠ "null" := ne_of_isKeyword hname (by decide)
      have htrue : name ≠ "true" := ne_of_isKeyword hname (by decide)
      have hfalse : name ≠ "false" := ne_of_isKeyword hname (by decide)
      rw [parseLeaf, if_neg hnull, if_neg htrue, if_neg hfalse, hname, if_neg Bool.false_ne_true,
        startsWith_eq_false_iff.mpr (hcall name rfl), if_neg Bool.false_ne_true, Gives.ok_iff]
      exact ⟨rfl, rfl⟩

theorem gives_parseTernary_iff :
    Gives (parseTernary lastLine tokens) expr rest ↔
      (Gives (parseUnary lastLine tokens) expr rest ∧ symbol? '?' rest = none) ∨
      ∃ test whenTrue whenFalse markLine colonLine afterMark afterColon,
        Gives (parseUnary lastLine tokens) test (⟨.op '?', markLine⟩ :: afterMark) ∧
        Gives (parseTernary lastLine afterMark) whenTrue (⟨.op ':', colonLine⟩ :: afterColon) ∧
        Gives (parseTernary lastLine afterColon) whenFalse rest ∧
        expr = ternary test whenTrue whenFalse := by
  rw [parseTernary, Gives.bind_iff]
  constructor
  · rintro ⟨test, afterTest, htest, hnext⟩
    rcases eq_cons_or_symbol?_eq_none '?' afterTest with ⟨markLine, afterMark, rfl⟩ | hnone
    · simp only [symbol?_cons, Step.next, Gives.bind_iff] at hnext
      obtain ⟨whenTrue, afterTrue, htrue, ⟨⟩, afterColon, hcolon, whenFalse, after, hfalse, hwhole⟩ := hnext
      obtain ⟨colonLine, rfl⟩ := gives_symbol_iff.mp hcolon
      simp only [Gives.pure_iff, Step.after_value, Step.after_rest, Step.map_value, Step.map_rest] at hwhole
      obtain ⟨rfl, rfl⟩ := hwhole
      exact .inr ⟨test, whenTrue, whenFalse, markLine, colonLine, afterMark, afterColon, htest, htrue,
        hfalse, rfl⟩
    · simp only [hnone, Gives.pure_iff] at hnext
      obtain ⟨rfl, rfl⟩ := hnext
      exact .inl ⟨htest, hnone⟩
  · rintro (⟨htest, hnone⟩ | ⟨test, whenTrue, whenFalse, markLine, colonLine, afterMark, afterColon,
      htest, htrue, hfalse, rfl⟩)
    · refine ⟨expr, rest, htest, ?_⟩
      simp only [hnone, Gives.pure_iff, and_self]
    · refine ⟨test, _, htest, ?_⟩
      simp only [symbol?_cons, Step.next, Gives.bind_iff]
      refine ⟨whenTrue, _, htrue, (), afterColon, gives_symbol_iff.mpr ⟨colonLine, rfl⟩, whenFalse,
        rest, hfalse, ?_⟩
      simp

theorem gives_parseUnary_iff :
    Gives (parseUnary lastLine tokens) expr rest ↔
      (∃ line after, tokens = ⟨.op '!', line⟩ :: after ∧
        ∃ operand, Gives (parseUnary lastLine after) operand rest ∧ expr = not operand) ∨
      (symbol? '!' tokens = none ∧ ∃ primary middle,
        Gives (parsePrimary lastLine tokens) primary middle ∧
        Gives (parseSuffixes lastLine primary middle) expr rest) := by
  refine iff_symbol_or ?_ fun hnone => ?_
  · rintro line after rfl
    rw [parseUnary]
    simp only [symbol?_cons, Step.next, Gives.bind_iff, Gives.pure_iff, Step.after_value,
      Step.after_rest, Step.map_value, Step.map_rest]
    constructor
    · rintro ⟨operand, _, h, rfl, rfl⟩
      exact ⟨operand, h, rfl⟩
    · rintro ⟨operand, h, rfl⟩
      exact ⟨operand, rest, h, rfl, rfl⟩
  · rw [parseUnary]
    simp only [hnone, Gives.bind_iff, Gives.pure_iff, Step.weaken_value, Step.weaken_rest]
    constructor
    · rintro ⟨primary, middle, hprimary, _, _, hsuffixes, rfl, rfl⟩
      exact ⟨primary, middle, hprimary, hsuffixes⟩
    · rintro ⟨primary, middle, hprimary, hsuffixes⟩
      exact ⟨primary, middle, hprimary, _, _, hsuffixes, rfl, rfl⟩

theorem gives_parsePrimary_iff :
    Gives (parsePrimary lastLine tokens) expr rest ↔
      (∃ openLine after, tokens = ⟨.op '(', openLine⟩ :: after ∧
        ∃ closeLine, Gives (parseTernary lastLine after) expr (⟨.op ')', closeLine⟩ :: rest)) ∨
      (symbol? '(' tokens = none ∧ Gives (parseLeaf lastLine tokens) expr rest) := by
  refine iff_symbol_or ?_ fun hnone => ?_
  · rintro openLine after rfl
    rw [parsePrimary]
    simp only [symbol?_cons, Step.next, Gives.bind_iff, Gives.pure_iff, Step.after_value,
      Step.after_rest, Step.map_value, Step.map_rest]
    constructor
    · rintro ⟨_, middle, h, _, _, hclose, rfl, rfl⟩
      obtain ⟨closeLine, rfl⟩ := gives_symbol_iff.mp hclose
      exact ⟨closeLine, h⟩
    · rintro ⟨closeLine, h⟩
      exact ⟨expr, _, h, (), rest, gives_symbol_iff.mpr ⟨closeLine, rfl⟩, rfl, rfl⟩
  · rw [parsePrimary, hnone]

theorem gives_parseSuffixes_iff :
    Gives (parseSuffixes lastLine receiver tokens) expr rest ↔
      (symbol? '.' tokens = none ∧ expr = receiver ∧ rest = tokens) ∨
      ∃ dotLine line name after, tokens = ⟨.op '.', dotLine⟩ :: ⟨.word name, line⟩ :: after ∧
        ((symbol? '(' after = none ∧
            Gives (parseSuffixes lastLine (property receiver name) after) expr rest) ∨
          ∃ openLine inside arguments middle, after = ⟨.op '(', openLine⟩ :: inside ∧
            Gives (parseArguments lastLine inside) arguments middle ∧
            Gives (parseSuffixes lastLine (call receiver name arguments) middle) expr rest) := by
  rcases eq_cons_or_symbol?_eq_none '.' tokens with ⟨dotLine, afterDot, rfl⟩ | hnone
  · rw [parseSuffixes]
    simp only [symbol?_cons, Step.next, Gives.bind_iff]
    constructor
    · rintro ⟨name, after, hname, h⟩
      obtain ⟨line, rfl⟩ := gives_member_iff.mp hname
      refine .inr ⟨dotLine, line, name, after, rfl, ?_⟩
      rcases eq_cons_or_symbol?_eq_none '(' after with ⟨openLine, inside, rfl⟩ | hcall
      · simp only [symbol?_cons, Step.next, Gives.bind_iff, Gives.pure_iff, Step.optional_value,
          Step.optional_rest, Step.after_value, Step.after_rest, Step.weaken_value,
          Step.weaken_rest] at h
        obtain ⟨arguments, middle, harguments, _, _, hsuffixes, rfl, rfl⟩ := h
        exact .inr ⟨openLine, inside, arguments, middle, rfl, harguments, hsuffixes⟩
      · simp only [hcall, Gives.bind_iff, Gives.pure_iff, Step.optional_value,
          Step.optional_rest, Step.after_value, Step.after_rest, Step.weaken_value,
          Step.weaken_rest] at h
        obtain ⟨_, _, hsuffixes, rfl, rfl⟩ := h
        exact .inl ⟨hcall, hsuffixes⟩
    · rintro (⟨h, _⟩ | ⟨_, line, name, after, heq, h⟩)
      · cases h
      · cases heq
        refine ⟨name, after, gives_member_iff.mpr ⟨line, rfl⟩, ?_⟩
        rcases h with ⟨hcall, hsuffixes⟩ | ⟨openLine, inside, arguments, middle, rfl, harguments,
          hsuffixes⟩
        · simp only [hcall, Gives.bind_iff, Gives.pure_iff, Step.optional_value,
            Step.optional_rest, Step.after_value, Step.after_rest, Step.weaken_value,
            Step.weaken_rest]
          exact ⟨_, _, hsuffixes, rfl, rfl⟩
        · simp only [symbol?_cons, Step.next, Gives.bind_iff, Gives.pure_iff, Step.optional_value,
            Step.optional_rest, Step.after_value, Step.after_rest, Step.weaken_value,
            Step.weaken_rest]
          exact ⟨arguments, middle, harguments, _, _, hsuffixes, rfl, rfl⟩
  · rw [parseSuffixes]
    simp only [hnone, Gives.pure_iff, Step.stay_value, Step.stay_rest]
    constructor
    · rintro ⟨rfl, rfl⟩
      exact .inl ⟨trivial, rfl, rfl⟩
    · rintro (⟨_, rfl, rfl⟩ | ⟨_, _, _, _, rfl, _⟩)
      · exact ⟨rfl, rfl⟩
      · simp at hnone

theorem gives_parseArguments_iff :
    Gives (parseArguments lastLine tokens) exprs rest ↔
      (∃ line, tokens = ⟨.op ')', line⟩ :: rest ∧ exprs = []) ∨
      (symbol? ')' tokens = none ∧
        ∃ line, Gives (parseList lastLine tokens) exprs (⟨.op ')', line⟩ :: rest)) := by
  rw [parseArguments]
  refine gives_closing_iff.trans (or_congr_right (and_congr_right fun _ => ?_))
  simp only [Gives.bind_iff, Gives.pure_iff, Step.after_value, Step.after_rest, Step.map_value,
    Step.map_rest]
  constructor
  · rintro ⟨_, middle, h, _, _, hclose, rfl, rfl⟩
    obtain ⟨line, rfl⟩ := gives_symbol_iff.mp hclose
    exact ⟨line, h⟩
  · rintro ⟨line, h⟩
    exact ⟨exprs, _, h, (), rest, gives_symbol_iff.mpr ⟨line, rfl⟩, rfl, rfl⟩

theorem gives_parseList_iff :
    Gives (parseList lastLine tokens) exprs rest ↔
      (∃ first, Gives (parseTernary lastLine tokens) first rest ∧ symbol? ',' rest = none ∧
        exprs = [first]) ∨
      ∃ first line after others,
        Gives (parseTernary lastLine tokens) first (⟨.op ',', line⟩ :: after) ∧
        Gives (parseList lastLine after) others rest ∧ exprs = first :: others := by
  rw [parseList, Gives.bind_iff]
  constructor
  · rintro ⟨first, after, hfirst, hnext⟩
    rcases eq_cons_or_symbol?_eq_none ',' after with ⟨line, afterComma, rfl⟩ | hnone
    · simp only [symbol?_cons, Step.next, Gives.bind_iff, Gives.pure_iff, Step.after_value,
        Step.after_rest, Step.map_value, Step.map_rest] at hnext
      obtain ⟨others, _, hothers, rfl, rfl⟩ := hnext
      exact .inr ⟨first, line, afterComma, others, hfirst, hothers, rfl⟩
    · simp only [hnone, Gives.pure_iff] at hnext
      obtain ⟨rfl, rfl⟩ := hnext
      exact .inl ⟨first, hfirst, hnone, rfl⟩
  · rintro (⟨first, hfirst, hnone, rfl⟩ | ⟨first, line, after, others, hfirst, hothers, rfl⟩)
    · refine ⟨first, rest, hfirst, ?_⟩
      simp only [hnone, Gives.pure_iff, and_self]
    · refine ⟨first, _, hfirst, ?_⟩
      simp only [symbol?_cons, Step.next, Gives.bind_iff, Gives.pure_iff, Step.after_value,
        Step.after_rest, Step.map_value, Step.map_rest]
      exact ⟨others, rest, hothers, rfl, rfl⟩

/-! ### Derivations -/

/-- What the grammar derives: an expression on one of its levels, or the arguments of a call. -/
inductive Phrase where
  | ternary (expr : Expr)
  | unary (expr : Expr)
  | suffixed (expr : Expr)
  | primary (expr : Expr)
  | list (exprs : List Expr)

/-- The lexemes that a phrase is read from. -/
inductive Derives : Phrase → List Lexeme → Prop
  | unary {expr : Expr} {lexemes : List Lexeme} (h : Derives (.unary expr) lexemes) :
      Derives (.ternary expr) lexemes
  | ternary {test whenTrue whenFalse : Expr} {forTest forTrue forFalse : List Lexeme}
      (htest : Derives (.unary test) forTest) (htrue : Derives (.ternary whenTrue) forTrue)
      (hfalse : Derives (.ternary whenFalse) forFalse) :
      Derives (.ternary (ternary test whenTrue whenFalse))
        (forTest ++ .op '?' :: (forTrue ++ .op ':' :: forFalse))
  | not {operand : Expr} {lexemes : List Lexeme} (h : Derives (.unary operand) lexemes) :
      Derives (.unary (not operand)) (.op '!' :: lexemes)
  | suffixed {expr : Expr} {lexemes : List Lexeme} (h : Derives (.suffixed expr) lexemes) :
      Derives (.unary expr) lexemes
  | primary {expr : Expr} {lexemes : List Lexeme} (h : Derives (.primary expr) lexemes) :
      Derives (.suffixed expr) lexemes
  | property {receiver : Expr} {forReceiver : List Lexeme} (name : String)
      (h : Derives (.suffixed receiver) forReceiver) :
      Derives (.suffixed (property receiver name)) (forReceiver ++ [.op '.', .word name])
  | callEmpty {receiver : Expr} {forReceiver : List Lexeme} (name : String)
      (h : Derives (.suffixed receiver) forReceiver) :
      Derives (.suffixed (call receiver name []))
        (forReceiver ++ [.op '.', .word name, .op '(', .op ')'])
  | call {receiver : Expr} {arguments : List Expr} {forReceiver forArguments : List Lexeme}
      (name : String) (h : Derives (.suffixed receiver) forReceiver)
      (harguments : Derives (.list arguments) forArguments) :
      Derives (.suffixed (call receiver name arguments))
        (forReceiver ++ .op '.' :: .word name :: .op '(' :: (forArguments ++ [.op ')']))
  | leaf {expr : Expr} {lexeme : Lexeme} (h : Leaf lexeme expr) : Derives (.primary expr) [lexeme]
  | parentheses {expr : Expr} {lexemes : List Lexeme} (h : Derives (.ternary expr) lexemes) :
      Derives (.primary expr) (.op '(' :: (lexemes ++ [.op ')']))
  | single {expr : Expr} {lexemes : List Lexeme} (h : Derives (.ternary expr) lexemes) :
      Derives (.list [expr]) lexemes
  | cons {expr : Expr} {others : List Expr} {forExpr forOthers : List Lexeme}
      (h : Derives (.ternary expr) forExpr) (hothers : Derives (.list others) forOthers) :
      Derives (.list (expr :: others)) (forExpr ++ .op ',' :: forOthers)

/-! ### The readers accept only what the grammar derives -/

/-- What is taken off the front of the tokens is derived. -/
def DerivesFront (phrase : Phrase) (tokens rest : List Token) : Prop :=
  ∃ lexemes, Derives phrase lexemes ∧ tokens.map Token.lexeme = lexemes ++ rest.map Token.lexeme

/-- What the readers take off these tokens is derived. -/
structure ReadsDerived (lastLine : Nat) (tokens : List Token) : Prop where
  ternary : ∀ {expr rest}, Gives (parseTernary lastLine tokens) expr rest →
    DerivesFront (.ternary expr) tokens rest
  unary : ∀ {expr rest}, Gives (parseUnary lastLine tokens) expr rest →
    DerivesFront (.unary expr) tokens rest
  list : ∀ {exprs rest}, Gives (parseList lastLine tokens) exprs rest →
    DerivesFront (.list exprs) tokens rest
  suffixes : ∀ {receiver expr rest forReceiver}, Derives (.suffixed receiver) forReceiver →
    Gives (parseSuffixes lastLine receiver tokens) expr rest →
      ∃ suffixes, Derives (.suffixed expr) (forReceiver ++ suffixes) ∧
        tokens.map Token.lexeme = suffixes ++ rest.map Token.lexeme

section Step

-- Every reader goes on with shorter tokens, so a step may assume the statement for those.
variable (ih : ∀ shorter : List Token, shorter.length < tokens.length → ReadsDerived lastLine shorter)
include ih

theorem derivesFront_of_parsePrimary (h : Gives (parsePrimary lastLine tokens) expr rest) :
    DerivesFront (.primary expr) tokens rest := by
  rcases gives_parsePrimary_iff.mp h with ⟨openLine, after, rfl, closeLine, hinner⟩ | ⟨_, hleaf⟩
  · obtain ⟨lexemes, hderives, hlexemes⟩ := (ih after (by simp)).ternary hinner
    exact ⟨_, .parentheses hderives, by simp [hlexemes]⟩
  · obtain ⟨lexeme, line, rfl, hlexeme, _⟩ := gives_parseLeaf_iff.mp hleaf
    exact ⟨_, .leaf hlexeme, rfl⟩

theorem derives_of_parseSuffixes {forReceiver : List Lexeme}
    (hreceiver : Derives (.suffixed receiver) forReceiver)
    (h : Gives (parseSuffixes lastLine receiver tokens) expr rest) :
    ∃ suffixes, Derives (.suffixed expr) (forReceiver ++ suffixes) ∧
      tokens.map Token.lexeme = suffixes ++ rest.map Token.lexeme := by
  rcases gives_parseSuffixes_iff.mp h with ⟨_, rfl, rfl⟩ | ⟨dotLine, line, name, after, rfl, hafter⟩
  · exact ⟨[], by rwa [List.append_nil], rfl⟩
  · rcases hafter with ⟨_, hproperty⟩ | ⟨openLine, inside, arguments, middle, rfl, harguments, hcall⟩
    · obtain ⟨suffixes, hderives, hlexemes⟩ :=
        (ih after (by simp only [List.length_cons]; omega)).suffixes (hreceiver.property name) hproperty
      exact ⟨.op '.' :: .word name :: suffixes, by simpa using hderives, by simp [hlexemes]⟩
    · have hmiddle := harguments.shorter
      rcases gives_parseArguments_iff.mp harguments with ⟨closeLine, rfl, rfl⟩ | ⟨_, closeLine, hlist⟩
      · obtain ⟨suffixes, hderives, hlexemes⟩ :=
          (ih middle (by simp only [List.length_cons]; omega)).suffixes (hreceiver.callEmpty name) hcall
        exact ⟨.op '.' :: .word name :: .op '(' :: .op ')' :: suffixes, by simpa using hderives,
          by simp [hlexemes]⟩
      · obtain ⟨forArguments, hinside, hlexemes⟩ := (ih inside (by simp only [List.length_cons]; omega)).list hlist
        obtain ⟨suffixes, hderives, hrest⟩ :=
          (ih middle (by simp only [List.length_cons]; omega)).suffixes (hreceiver.call name hinside) hcall
        exact ⟨.op '.' :: .word name :: .op '(' :: (forArguments ++ .op ')' :: suffixes),
          by simpa using hderives, by simp [hlexemes, hrest]⟩

theorem derivesFront_of_parseUnary (h : Gives (parseUnary lastLine tokens) expr rest) :
    DerivesFront (.unary expr) tokens rest := by
  rcases gives_parseUnary_iff.mp h with ⟨line, after, rfl, operand, hoperand, rfl⟩ |
    ⟨_, primary, middle, hprimary, hsuffixes⟩
  · obtain ⟨lexemes, hderives, hlexemes⟩ := (ih after (by simp)).unary hoperand
    exact ⟨_, .not hderives, by simp [hlexemes]⟩
  · obtain ⟨forPrimary, hderives, hlexemes⟩ := derivesFront_of_parsePrimary ih hprimary
    obtain ⟨suffixes, hwhole, hrest⟩ :=
      (ih middle hprimary.shorter).suffixes (.primary hderives) hsuffixes
    exact ⟨forPrimary ++ suffixes, .suffixed hwhole, by rw [hlexemes, hrest, List.append_assoc]⟩

theorem derivesFront_of_parseTernary (h : Gives (parseTernary lastLine tokens) expr rest) :
    DerivesFront (.ternary expr) tokens rest := by
  rcases gives_parseTernary_iff.mp h with ⟨hunary, _⟩ | ⟨test, whenTrue, whenFalse, markLine,
    colonLine, afterMark, afterColon, htest, htrue, hfalse, rfl⟩
  · obtain ⟨lexemes, hderives, hlexemes⟩ := derivesFront_of_parseUnary ih hunary
    exact ⟨lexemes, .unary hderives, hlexemes⟩
  · have hmark := htest.shorter
    have hcolon := htrue.shorter
    simp only [List.length_cons] at hmark hcolon
    obtain ⟨forTest, hderivesTest, htestLexemes⟩ := derivesFront_of_parseUnary ih htest
    obtain ⟨forTrue, hderivesTrue, htrueLexemes⟩ := (ih afterMark (by omega)).ternary htrue
    obtain ⟨forFalse, hderivesFalse, hfalseLexemes⟩ := (ih afterColon (by omega)).ternary hfalse
    exact ⟨_, .ternary hderivesTest hderivesTrue hderivesFalse,
      by simp [htestLexemes, htrueLexemes, hfalseLexemes]⟩

theorem derivesFront_of_parseList (h : Gives (parseList lastLine tokens) exprs rest) :
    DerivesFront (.list exprs) tokens rest := by
  rcases gives_parseList_iff.mp h with ⟨first, hfirst, _, rfl⟩ | ⟨first, line, after, others, hfirst,
    hothers, rfl⟩
  · obtain ⟨lexemes, hderives, hlexemes⟩ := derivesFront_of_parseTernary ih hfirst
    exact ⟨lexemes, .single hderives, hlexemes⟩
  · have hafter := hfirst.shorter
    simp only [List.length_cons] at hafter
    obtain ⟨forFirst, hderives, hlexemes⟩ := derivesFront_of_parseTernary ih hfirst
    obtain ⟨forOthers, hderivesOthers, hothersLexemes⟩ := (ih after (by omega)).list hothers
    exact ⟨_, .cons hderives hderivesOthers, by simp [hlexemes, hothersLexemes]⟩

end Step

theorem readsDerived (lastLine : Nat) (tokens : List Token) : ReadsDerived lastLine tokens := by
  induction hlength : tokens.length using Nat.strongRecOn generalizing tokens with
  | ind length ih =>
    have ih' : ∀ shorter : List Token, shorter.length < tokens.length →
        ReadsDerived lastLine shorter :=
      fun shorter h => ih _ (hlength ▸ h) shorter rfl
    exact ⟨derivesFront_of_parseTernary ih', derivesFront_of_parseUnary ih',
      derivesFront_of_parseList ih', derives_of_parseSuffixes ih'⟩

/-! ### The readers accept all that the grammar derives -/

/-- Whether the expression ends in a name, so that a parenthesis behind it would open the arguments of a call. -/
def endsInName : Expr → Bool
  | var _ | property _ _ => true
  | not operand => !operand.isTernary && operand.endsInName
  | ternary _ _ whenFalse => whenFalse.endsInName
  | _ => false

/-- Whether a parenthesis behind the phrase would go on with it. Inside another expression, a ternary stands in parentheses itself. -/
def Phrase.mayBeCalled : Phrase → Bool
  | ternary expr => expr.endsInName
  | unary expr | suffixed expr | primary expr => !expr.isTernary && expr.endsInName
  | list _ => true

/-- What may stand behind an expression: nothing that it could go on with. Only behind a name does a parenthesis matter. -/
structure Ends (afterName : Bool) (after : List Lexeme) : Prop where
  property : NotNext '.' after
  call : afterName = true → NotNext '(' after
  ternary : NotNext '?' after

/-- Whether an expression without a leading negation may start with the lexeme. -/
def startsPrimary : Lexeme → Bool
  | .literal _ => true
  | .number _ => true
  | .word word => !isKeyword word || ["null", "true", "false"].contains word
  | .op symbol => symbol == '('

/-- Whether the phrase may start with a negation. -/
def Phrase.mayNegate : Phrase → Bool
  | ternary _ | unary _ | list _ => true
  | suffixed _ | primary _ => false

theorem Derives.exists_cons {phrase : Phrase} {lexemes : List Lexeme} (h : Derives phrase lexemes) :
    ∃ first others, lexemes = first :: others ∧
      (startsPrimary first = true ∨ (phrase.mayNegate = true ∧ first = .op '!')) := by
  induction h with
  | unary _ ih => exact ih
  | suffixed _ ih =>
    obtain ⟨first, others, rfl, hfirst | ⟨hnegate, _⟩⟩ := ih
    · exact ⟨first, others, rfl, .inl hfirst⟩
    · cases hnegate
  | primary _ ih => exact ih
  | single _ ih => exact ih
  | not _ _ => exact ⟨_, _, rfl, .inr ⟨rfl, rfl⟩⟩
  | ternary _ _ _ ih _ _ =>
    obtain ⟨first, others, rfl, hfirst⟩ := ih
    exact ⟨first, _, rfl, hfirst⟩
  | property _ _ ih =>
    obtain ⟨first, others, rfl, hfirst⟩ := ih
    exact ⟨first, _, rfl, hfirst⟩
  | callEmpty _ _ ih =>
    obtain ⟨first, others, rfl, hfirst⟩ := ih
    exact ⟨first, _, rfl, hfirst⟩
  | call _ _ _ ih _ =>
    obtain ⟨first, others, rfl, hfirst⟩ := ih
    exact ⟨first, _, rfl, hfirst⟩
  | cons _ _ ih _ =>
    obtain ⟨first, others, rfl, hfirst⟩ := ih
    exact ⟨first, _, rfl, hfirst⟩
  | parentheses _ _ => exact ⟨_, _, rfl, .inl rfl⟩
  | leaf h =>
    refine ⟨_, _, rfl, .inl ?_⟩
    cases h with
    | name hname => simp [startsPrimary, hname]
    | _ => rfl

theorem Derives.notNext {phrase : Phrase} {lexemes : List Lexeme} (h : Derives phrase lexemes)
    {symbol : Char} (hopen : symbol ≠ '(') (hnot : phrase.mayNegate = true → symbol ≠ '!')
    (after : List Lexeme) : NotNext symbol (lexemes ++ after) := by
  obtain ⟨first, others, rfl, hfirst⟩ := h.exists_cons
  intro hhead
  cases Option.some.inj hhead
  rcases hfirst with hfirst | ⟨hnegate, heq⟩
  · exact hopen (beq_iff_eq.mp hfirst)
  · exact hnot hnegate (Lexeme.op.inj heq)

/-- The phrase is read from its lexemes, whatever follows that it could not go on with. The suffixes of a receiver are taken one after another, so what is said of a suffixed expression is that reading goes on from it. -/
def Phrase.IsReadFrom (lastLine : Nat) (lexemes : List Lexeme) : Phrase → Prop
  | ternary expr => ∀ after, Ends expr.endsInName after →
      Reads (parseTernary lastLine) (lexemes ++ after) expr after
  | unary expr => ∀ after, NotNext '.' after → ((unary expr).mayBeCalled = true → NotNext '(' after) →
      Reads (parseUnary lastLine) (lexemes ++ after) expr after
  | suffixed expr => ∀ after tokens, ((suffixed expr).mayBeCalled = true → NotNext '(' after) →
      tokens.map Token.lexeme = lexemes ++ after →
      ∃ middle, middle.map Token.lexeme = after ∧
        ∀ whole rest, Gives (parseSuffixes lastLine expr middle) whole rest →
          Gives (parseUnary lastLine tokens) whole rest
  | primary expr => ∀ after, ((primary expr).mayBeCalled = true → NotNext '(' after) →
      Reads (parsePrimary lastLine) (lexemes ++ after) expr after
  | list exprs => ∀ after, Ends true after → NotNext ',' after →
      Reads (parseList lastLine) (lexemes ++ after) exprs after

theorem ends_symbol {symbol : Char} (hdot : symbol ≠ '.') (hopen : symbol ≠ '(') (hmark : symbol ≠ '?')
    (afterName : Bool) (after : List Lexeme) : Ends afterName (.op symbol :: after) where
  property := notNext_symbol hdot after
  call := fun _ => notNext_symbol hopen after
  ternary := notNext_symbol hmark after

theorem Ends.weaken {afterName : Bool} {after : List Lexeme} (h : Ends true after) : Ends afterName after where
  property := h.property
  call := fun _ => h.call rfl
  ternary := h.ternary

theorem Derives.isReadFrom {phrase : Phrase} {lexemes : List Lexeme} (h : Derives phrase lexemes)
    (lastLine : Nat) : phrase.IsReadFrom lastLine lexemes := by
  induction h with
  | @unary expr _ _ ih =>
    intro after hafter tokens htokens
    have hcall : (Phrase.unary expr).mayBeCalled = true → NotNext '(' after :=
      fun hname => hafter.call (Bool.and_eq_true_iff.mp hname).2
    obtain ⟨rest, hgives, hrest⟩ := ih after hafter.property hcall tokens htokens
    exact ⟨rest, gives_parseTernary_iff.mpr (.inl ⟨hgives, hafter.ternary.symbol?_eq_none hrest⟩), hrest⟩
  | ternary _ _ _ ihTest ihTrue ihFalse =>
    intro after hafter tokens htokens
    rw [List.append_assoc, List.cons_append, List.append_assoc, List.cons_append] at htokens
    obtain ⟨_, htest, hmark⟩ := ihTest _ (notNext_symbol (by decide) _) (fun _ => notNext_symbol (by decide) _) tokens htokens
    obtain ⟨markLine, afterMark, rfl, hafterMark⟩ := exists_of_map_lexeme_eq_cons hmark
    obtain ⟨_, htrue, hcolon⟩ :=
      ihTrue _ (ends_symbol (by decide) (by decide) (by decide) _ _) afterMark hafterMark
    obtain ⟨colonLine, afterColon, rfl, hafterColon⟩ := exists_of_map_lexeme_eq_cons hcolon
    obtain ⟨rest, hfalse, hrest⟩ := ihFalse after hafter afterColon hafterColon
    exact ⟨rest, gives_parseTernary_iff.mpr (.inr ⟨_, _, _, markLine, colonLine, afterMark, afterColon,
      htest, htrue, hfalse, rfl⟩), hrest⟩
  | not _ ih =>
    intro after hproperty hcall tokens htokens
    obtain ⟨line, operandTokens, rfl, hoperand⟩ := exists_of_map_lexeme_eq_cons htokens
    obtain ⟨rest, hgives, hrest⟩ := ih after hproperty hcall operandTokens hoperand
    exact ⟨rest, gives_parseUnary_iff.mpr (.inl ⟨line, operandTokens, rfl, _, hgives, rfl⟩), hrest⟩
  | suffixed _ ih =>
    intro after hproperty hcall tokens htokens
    obtain ⟨middle, hmiddle, hgives⟩ := ih after tokens hcall htokens
    refine ⟨middle, hgives _ _ (gives_parseSuffixes_iff.mpr (.inl ⟨?_, rfl, rfl⟩)), hmiddle⟩
    exact hproperty.symbol?_eq_none hmiddle
  | primary h ih =>
    intro after tokens hcall htokens
    obtain ⟨middle, hprimary, hmiddle⟩ := ih after hcall tokens htokens
    have hnot : NotNext '!' (_ ++ after) := h.notNext (by decide) nofun after
    exact ⟨middle, hmiddle, fun whole rest hsuffixes => gives_parseUnary_iff.mpr
      (.inr ⟨hnot.symbol?_eq_none htokens, _, middle, hprimary, hsuffixes⟩)⟩
  | property name _ ih =>
    intro after tokens hcall htokens
    rw [List.append_assoc] at htokens
    obtain ⟨_, hdot, hgives⟩ := ih _ tokens (fun _ => notNext_symbol (by decide) _) htokens
    obtain ⟨dotLine, _, rfl, hname⟩ := exists_of_map_lexeme_eq_cons hdot
    obtain ⟨line, rest, rfl, hrest⟩ := exists_of_map_lexeme_eq_cons hname
    exact ⟨rest, hrest, fun whole tail hsuffixes => hgives _ _ (gives_parseSuffixes_iff.mpr
      (.inr ⟨dotLine, line, name, rest, rfl, .inl ⟨(hcall rfl).symbol?_eq_none hrest, hsuffixes⟩⟩))⟩
  | callEmpty name _ ih =>
    intro after tokens hcall htokens
    rw [List.append_assoc] at htokens
    obtain ⟨_, hdot, hgives⟩ := ih _ tokens (fun _ => notNext_symbol (by decide) _) htokens
    obtain ⟨dotLine, _, rfl, hname⟩ := exists_of_map_lexeme_eq_cons hdot
    obtain ⟨line, _, rfl, hopen⟩ := exists_of_map_lexeme_eq_cons hname
    obtain ⟨openLine, inside, rfl, hinside⟩ := exists_of_map_lexeme_eq_cons hopen
    obtain ⟨closeLine, rest, rfl, hrest⟩ := exists_of_map_lexeme_eq_cons hinside
    have harguments : Gives (parseArguments lastLine (⟨.op ')', closeLine⟩ :: rest)) [] rest :=
      gives_parseArguments_iff.mpr (.inl ⟨closeLine, rfl, rfl⟩)
    exact ⟨rest, hrest, fun whole tail hsuffixes => hgives _ _ (gives_parseSuffixes_iff.mpr
      (.inr ⟨dotLine, line, name, _, rfl, .inr ⟨openLine, _, [], rest, rfl, harguments, hsuffixes⟩⟩))⟩
  | call name _ hlist ih ihArguments =>
    intro after tokens hcall htokens
    rw [List.append_assoc, List.cons_append, List.cons_append, List.cons_append,
      List.append_assoc] at htokens
    obtain ⟨_, hdot, hgives⟩ := ih _ tokens (fun _ => notNext_symbol (by decide) _) htokens
    obtain ⟨dotLine, _, rfl, hname⟩ := exists_of_map_lexeme_eq_cons hdot
    obtain ⟨line, _, rfl, hopen⟩ := exists_of_map_lexeme_eq_cons hname
    obtain ⟨openLine, inside, rfl, hinside⟩ := exists_of_map_lexeme_eq_cons hopen
    obtain ⟨_, hread, hclose⟩ := ihArguments _ (ends_symbol (by decide) (by decide) (by decide) _ _)
      (notNext_symbol (by decide) _) inside hinside
    obtain ⟨closeLine, rest, rfl, hrest⟩ := exists_of_map_lexeme_eq_cons hclose
    have hnotClose : NotNext ')' (_ ++ ([.op ')'] ++ after)) :=
      hlist.notNext (by decide) (fun _ => by decide) _
    have harguments := gives_parseArguments_iff.mpr
      (.inr ⟨hnotClose.symbol?_eq_none hinside, closeLine, hread⟩)
    exact ⟨rest, hrest, fun whole tail hsuffixes => hgives _ _ (gives_parseSuffixes_iff.mpr
      (.inr ⟨dotLine, line, name, _, rfl, .inr ⟨openLine, inside, _, rest, rfl, harguments, hsuffixes⟩⟩))⟩
  | @leaf _ lexeme hleaf =>
    intro after hcall tokens htokens
    obtain ⟨line, rest, rfl, hrest⟩ := exists_of_map_lexeme_eq_cons htokens
    have hopen : symbol? '(' (⟨lexeme, line⟩ :: rest) = none := by
      cases hleaf <;> rfl
    refine ⟨rest, gives_parsePrimary_iff.mpr (.inr ⟨hopen, ?_⟩), hrest⟩
    refine gives_parseLeaf_iff.mpr ⟨_, line, rfl, hleaf, ?_⟩
    rintro name rfl
    exact (hcall rfl).symbol?_eq_none hrest
  | parentheses _ ih =>
    intro after hcall tokens htokens
    rw [List.cons_append, List.append_assoc] at htokens
    obtain ⟨openLine, inside, rfl, hinside⟩ := exists_of_map_lexeme_eq_cons htokens
    obtain ⟨_, hinner, hclose⟩ :=
      ih _ (ends_symbol (by decide) (by decide) (by decide) _ _) inside hinside
    obtain ⟨closeLine, rest, rfl, hrest⟩ := exists_of_map_lexeme_eq_cons hclose
    exact ⟨rest, gives_parsePrimary_iff.mpr (.inl ⟨openLine, inside, rfl, closeLine, hinner⟩), hrest⟩
  | single _ ih =>
    intro after hafter hcomma tokens htokens
    obtain ⟨rest, hgives, hrest⟩ := ih after hafter.weaken tokens htokens
    exact ⟨rest, gives_parseList_iff.mpr (.inl ⟨_, hgives, hcomma.symbol?_eq_none hrest, rfl⟩), hrest⟩
  | cons _ _ ih ihOthers =>
    intro after hafter hcomma tokens htokens
    rw [List.append_assoc] at htokens
    obtain ⟨_, hfirst, hmiddle⟩ := ih _ (ends_symbol (by decide) (by decide) (by decide) _ _) tokens htokens
    obtain ⟨line, othersTokens, rfl, hothers⟩ := exists_of_map_lexeme_eq_cons hmiddle
    obtain ⟨rest, hgives, hrest⟩ := ihOthers after hafter hcomma othersTokens hothers
    exact ⟨rest, gives_parseList_iff.mpr (.inr ⟨_, line, othersTokens, _, hfirst, hgives, rfl⟩), hrest⟩

end Expr

end GuardedLogging
