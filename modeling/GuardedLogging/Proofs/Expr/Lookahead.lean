import GuardedLogging.Proofs.Expr.Grammar

/-!
# How far the readers of expressions look

An expression is read off the front of the tokens, and what stands behind it matters for one thing only: the lexeme that comes next decides whether the expression goes on. So the same front is read alike wherever the same lexeme comes next.
-/

namespace GuardedLogging

open Cursor

/-- The same lexeme comes next in both lists, or none does in either. -/
def SameNext (after other : List Lexeme) : Prop := after.head? = other.head?

namespace SameNext

variable {after other : List Lexeme} {tokens others rest : List Token}

theorem cons (lexeme : Lexeme) : SameNext (lexeme :: after) (lexeme :: other) := rfl

/-- Lists with the same front start alike, also if the front is empty. -/
theorem of_front {front lexemes : List Lexeme} (h : SameNext (rest.map Token.lexeme) other)
    (htokens : tokens.map Token.lexeme = front ++ rest.map Token.lexeme) (hlexemes : lexemes = front ++ other) :
    SameNext (tokens.map Token.lexeme) lexemes := by
  rw [htokens, hlexemes]
  cases front with
  | nil => exact h
  | cons lexeme front => exact cons lexeme

theorem notNext (h : SameNext after other) {symbol : Char} (hafter : NotNext symbol after) : NotNext symbol other := by
  rw [NotNext, ← h]
  exact hafter

theorem symbol?_eq_none (h : SameNext (tokens.map Token.lexeme) (others.map Token.lexeme)) {symbol : Char}
    (hnone : symbol? symbol tokens = none) : symbol? symbol others = none := by
  rcases eq_cons_or_symbol?_eq_none symbol others with ⟨line, rest, rfl⟩ | hothers
  · obtain ⟨lexemes, hlexemes⟩ := List.head?_eq_some_iff.mp h
    obtain ⟨_, _, rfl, _⟩ := exists_of_map_lexeme_eq_cons hlexemes
    rw [symbol?_cons] at hnone
    cases hnone
  · exact hothers

theorem word?_eq_none (h : SameNext (tokens.map Token.lexeme) (others.map Token.lexeme)) {word : String}
    (hnone : word? word tokens = none) : word? word others = none := by
  rcases eq_cons_or_word?_eq_none word others with ⟨line, rest, rfl⟩ | hothers
  · obtain ⟨lexemes, hlexemes⟩ := List.head?_eq_some_iff.mp h
    obtain ⟨_, _, rfl, _⟩ := exists_of_map_lexeme_eq_cons hlexemes
    rw [word?_cons] at hnone
    cases hnone
  · exact hothers

end SameNext

/-- The value is read off the front of the tokens, and from the same front wherever the same lexeme comes next. -/
def ReadsFront {α : Type} {bound : List Token → Nat}
    (reader : (lastLine : Nat) → (tokens : List Token) → Parsed α (bound tokens))
    (tokens : List Token) (value : α) (rest : List Token) : Prop :=
  ∃ front, tokens.map Token.lexeme = front ++ rest.map Token.lexeme ∧
    ∀ lastLine other, SameNext (rest.map Token.lexeme) other → Reads (reader lastLine) (front ++ other) value other

namespace Expr

variable {lastLine : Nat} {tokens rest : List Token} {expr receiver : Expr} {exprs : List Expr}

theorem readsFront_of_parseLeaf (h : Gives (parseLeaf lastLine tokens) expr rest) :
    ReadsFront parseLeaf tokens expr rest := by
  obtain ⟨lexeme, line, rfl, hleaf, hcall⟩ := gives_parseLeaf_iff.mp h
  refine ⟨[lexeme], rfl, fun lastLine other hnext others hothers => ?_⟩
  obtain ⟨line, tail, rfl, rfl⟩ := exists_of_map_lexeme_eq_cons hothers
  exact ⟨tail, gives_parseLeaf_iff.mpr ⟨lexeme, line, rfl, hleaf, fun name hname =>
    hnext.symbol?_eq_none (hcall name hname)⟩, rfl⟩

theorem readsFront_of_parseArguments (h : Gives (parseArguments lastLine tokens) exprs rest)
    (hlist : ∀ {exprs rest}, Gives (parseList lastLine tokens) exprs rest →
      ReadsFront parseList tokens exprs rest) :
    ReadsFront parseArguments tokens exprs rest := by
  rcases gives_parseArguments_iff.mp h with ⟨line, rfl, rfl⟩ | ⟨hclose, closeLine, hexprs⟩
  · refine ⟨[.op ')'], rfl, fun lastLine other _ others hothers => ?_⟩
    obtain ⟨line, tail, rfl, htail⟩ := exists_of_map_lexeme_eq_cons hothers
    exact ⟨tail, gives_parseArguments_iff.mpr (.inl ⟨line, rfl, rfl⟩), htail⟩
  · obtain ⟨front, hfront, hreads⟩ := hlist hexprs
    refine ⟨front ++ [.op ')'], by simp [hfront], fun lastLine other _ others hothers => ?_⟩
    rw [List.append_assoc] at hothers
    have hend : SameNext ((⟨.op ')', closeLine⟩ :: rest).map Token.lexeme) (.op ')' :: other) := .cons _
    have hsame : SameNext (tokens.map Token.lexeme) (others.map Token.lexeme) := hend.of_front hfront hothers
    obtain ⟨_, hgives, hafter⟩ := hreads lastLine _ (.cons _) others hothers
    obtain ⟨line, tail, rfl, htail⟩ := exists_of_map_lexeme_eq_cons hafter
    exact ⟨tail, gives_parseArguments_iff.mpr (.inr ⟨hsame.symbol?_eq_none hclose, line, hgives⟩), htail⟩

/-- What the readers take off these tokens is read alike elsewhere. -/
structure ReadsFronts (lastLine : Nat) (tokens : List Token) : Prop where
  ternary : ∀ {expr rest}, Gives (parseTernary lastLine tokens) expr rest → ReadsFront parseTernary tokens expr rest
  unary : ∀ {expr rest}, Gives (parseUnary lastLine tokens) expr rest → ReadsFront parseUnary tokens expr rest
  list : ∀ {exprs rest}, Gives (parseList lastLine tokens) exprs rest → ReadsFront parseList tokens exprs rest
  suffixes : ∀ {receiver expr rest}, Gives (parseSuffixes lastLine receiver tokens) expr rest →
    ReadsFront (fun lastLine => parseSuffixes lastLine receiver) tokens expr rest

section Step

-- As for the grammar, every reader goes on with shorter tokens.
variable (ih : ∀ shorter : List Token, shorter.length < tokens.length → ReadsFronts lastLine shorter)
include ih

theorem readsFront_of_parsePrimary (h : Gives (parsePrimary lastLine tokens) expr rest) :
    ReadsFront parsePrimary tokens expr rest := by
  rcases gives_parsePrimary_iff.mp h with ⟨openLine, after, rfl, closeLine, hinner⟩ | ⟨hopen, hleaf⟩
  · obtain ⟨front, hfront, hreads⟩ := (ih after (by simp)).ternary hinner
    refine ⟨.op '(' :: (front ++ [.op ')']), by simp [hfront], fun lastLine other _ others hothers => ?_⟩
    rw [List.cons_append, List.append_assoc] at hothers
    obtain ⟨openLine, inside, rfl, hinside⟩ := exists_of_map_lexeme_eq_cons hothers
    obtain ⟨_, hgives, hclose⟩ := hreads lastLine _ (.cons _) inside hinside
    obtain ⟨closeLine, tail, rfl, htail⟩ := exists_of_map_lexeme_eq_cons hclose
    exact ⟨tail, gives_parsePrimary_iff.mpr (.inl ⟨openLine, inside, rfl, closeLine, hgives⟩), htail⟩
  · obtain ⟨front, hfront, hreads⟩ := readsFront_of_parseLeaf hleaf
    refine ⟨front, hfront, fun lastLine other hnext others hothers => ?_⟩
    obtain ⟨tail, hgives, htail⟩ := hreads lastLine other hnext others hothers
    have hsame : SameNext (tokens.map Token.lexeme) (others.map Token.lexeme) := hnext.of_front hfront hothers
    exact ⟨tail, gives_parsePrimary_iff.mpr (.inr ⟨hsame.symbol?_eq_none hopen, hgives⟩), htail⟩

theorem readsFront_of_parseSuffixes (h : Gives (parseSuffixes lastLine receiver tokens) expr rest) :
    ReadsFront (fun lastLine => parseSuffixes lastLine receiver) tokens expr rest := by
  rcases gives_parseSuffixes_iff.mp h with ⟨hdot, rfl, rfl⟩ | ⟨dotLine, line, name, after, rfl, hafter⟩
  · refine ⟨[], rfl, fun lastLine other hnext others hothers => ?_⟩
    have hsame : SameNext (rest.map Token.lexeme) (others.map Token.lexeme) := hnext.of_front rfl hothers
    exact ⟨others, gives_parseSuffixes_iff.mpr (.inl ⟨hsame.symbol?_eq_none hdot, rfl, rfl⟩), hothers⟩
  · rcases hafter with ⟨hopen, hproperty⟩ | ⟨openLine, inside, arguments, middle, rfl, harguments, hcall⟩
    · obtain ⟨front, hfront, hreads⟩ :=
        (ih after (by simp only [List.length_cons]; omega)).suffixes hproperty
      refine ⟨.op '.' :: .word name :: front, by simp [hfront], fun lastLine other hnext others hothers => ?_⟩
      obtain ⟨dotLine, _, rfl, hname⟩ := exists_of_map_lexeme_eq_cons hothers
      obtain ⟨line, behind, rfl, hbehind⟩ := exists_of_map_lexeme_eq_cons hname
      have hsame : SameNext (after.map Token.lexeme) (behind.map Token.lexeme) := hnext.of_front hfront hbehind
      obtain ⟨tail, hgives, htail⟩ := hreads lastLine other hnext behind hbehind
      exact ⟨tail, gives_parseSuffixes_iff.mpr (.inr ⟨dotLine, line, name, behind, rfl,
        .inl ⟨hsame.symbol?_eq_none hopen, hgives⟩⟩), htail⟩
    · have hmiddle := harguments.shorter
      obtain ⟨forArguments, hinside, hreadsArguments⟩ := readsFront_of_parseArguments harguments
        (ih inside (by simp only [List.length_cons]; omega)).list
      obtain ⟨front, hfront, hreads⟩ := (ih middle (by simp only [List.length_cons]; omega)).suffixes hcall
      refine ⟨.op '.' :: .word name :: .op '(' :: (forArguments ++ front), by simp [hinside, hfront],
        fun lastLine other hnext others hothers => ?_⟩
      simp only [List.cons_append, List.append_assoc] at hothers
      obtain ⟨dotLine, _, rfl, hname⟩ := exists_of_map_lexeme_eq_cons hothers
      obtain ⟨line, _, rfl, hopen⟩ := exists_of_map_lexeme_eq_cons hname
      obtain ⟨openLine, behind, rfl, hbehind⟩ := exists_of_map_lexeme_eq_cons hopen
      have hsame : SameNext (middle.map Token.lexeme) (front ++ other) := hnext.of_front hfront rfl
      obtain ⟨between, hgivesArguments, hbetween⟩ := hreadsArguments lastLine _ hsame behind hbehind
      obtain ⟨tail, hgives, htail⟩ := hreads lastLine other hnext between hbetween
      exact ⟨tail, gives_parseSuffixes_iff.mpr (.inr ⟨dotLine, line, name, _, rfl,
        .inr ⟨openLine, behind, arguments, between, rfl, hgivesArguments, hgives⟩⟩), htail⟩

theorem readsFront_of_parseUnary (h : Gives (parseUnary lastLine tokens) expr rest) :
    ReadsFront parseUnary tokens expr rest := by
  rcases gives_parseUnary_iff.mp h with ⟨line, after, rfl, operand, hoperand, rfl⟩ |
    ⟨hmark, primary, middle, hprimary, hsuffixes⟩
  · obtain ⟨front, hfront, hreads⟩ := (ih after (by simp)).unary hoperand
    refine ⟨.op '!' :: front, by simp [hfront], fun lastLine other hnext others hothers => ?_⟩
    obtain ⟨line, behind, rfl, hbehind⟩ := exists_of_map_lexeme_eq_cons hothers
    obtain ⟨tail, hgives, htail⟩ := hreads lastLine other hnext behind hbehind
    exact ⟨tail, gives_parseUnary_iff.mpr (.inl ⟨line, behind, rfl, operand, hgives, rfl⟩), htail⟩
  · obtain ⟨forPrimary, hprimaryFront, hreadsPrimary⟩ := readsFront_of_parsePrimary ih hprimary
    obtain ⟨front, hfront, hreads⟩ := (ih middle hprimary.shorter).suffixes hsuffixes
    refine ⟨forPrimary ++ front, by rw [hprimaryFront, hfront, List.append_assoc],
      fun lastLine other hnext others hothers => ?_⟩
    rw [List.append_assoc] at hothers
    have hsame : SameNext (middle.map Token.lexeme) (front ++ other) := hnext.of_front hfront rfl
    have hsameMark : SameNext (tokens.map Token.lexeme) (others.map Token.lexeme) :=
      hsame.of_front hprimaryFront hothers
    obtain ⟨between, hgivesPrimary, hbetween⟩ := hreadsPrimary lastLine _ hsame others hothers
    obtain ⟨tail, hgives, htail⟩ := hreads lastLine other hnext between hbetween
    exact ⟨tail, gives_parseUnary_iff.mpr (.inr ⟨hsameMark.symbol?_eq_none hmark, primary, between,
      hgivesPrimary, hgives⟩), htail⟩

theorem readsFront_of_parseTernary (h : Gives (parseTernary lastLine tokens) expr rest) :
    ReadsFront parseTernary tokens expr rest := by
  rcases gives_parseTernary_iff.mp h with ⟨hunary, hmark⟩ | ⟨test, whenTrue, whenFalse, markLine,
    colonLine, afterMark, afterColon, htest, htrue, hfalse, rfl⟩
  · obtain ⟨front, hfront, hreads⟩ := readsFront_of_parseUnary ih hunary
    refine ⟨front, hfront, fun lastLine other hnext others hothers => ?_⟩
    obtain ⟨tail, hgives, rfl⟩ := hreads lastLine other hnext others hothers
    exact ⟨tail, gives_parseTernary_iff.mpr (.inl ⟨hgives, hnext.symbol?_eq_none hmark⟩), rfl⟩
  · have hmark := htest.shorter
    have hcolon := htrue.shorter
    simp only [List.length_cons] at hmark hcolon
    obtain ⟨forTest, htestFront, hreadsTest⟩ := readsFront_of_parseUnary ih htest
    obtain ⟨forTrue, htrueFront, hreadsTrue⟩ := (ih afterMark (by omega)).ternary htrue
    obtain ⟨forFalse, hfalseFront, hreadsFalse⟩ := (ih afterColon (by omega)).ternary hfalse
    refine ⟨forTest ++ .op '?' :: (forTrue ++ .op ':' :: forFalse),
      by simp [htestFront, htrueFront, hfalseFront], fun lastLine other hnext others hothers => ?_⟩
    simp only [List.append_assoc, List.cons_append] at hothers
    obtain ⟨_, hgivesTest, hbehind⟩ := hreadsTest lastLine _ (.cons _) others hothers
    obtain ⟨markLine, behindMark, rfl, hbehindMark⟩ := exists_of_map_lexeme_eq_cons hbehind
    obtain ⟨_, hgivesTrue, hbehind⟩ := hreadsTrue lastLine _ (.cons _) behindMark hbehindMark
    obtain ⟨colonLine, behindColon, rfl, hbehindColon⟩ := exists_of_map_lexeme_eq_cons hbehind
    obtain ⟨tail, hgivesFalse, htail⟩ := hreadsFalse lastLine other hnext behindColon hbehindColon
    exact ⟨tail, gives_parseTernary_iff.mpr (.inr ⟨test, whenTrue, whenFalse, markLine, colonLine, behindMark,
      behindColon, hgivesTest, hgivesTrue, hgivesFalse, rfl⟩), htail⟩

theorem readsFront_of_parseList (h : Gives (parseList lastLine tokens) exprs rest) :
    ReadsFront parseList tokens exprs rest := by
  rcases gives_parseList_iff.mp h with ⟨first, hfirst, hcomma, rfl⟩ | ⟨first, line, after, others, hfirst,
    hothers, rfl⟩
  · obtain ⟨front, hfront, hreads⟩ := readsFront_of_parseTernary ih hfirst
    refine ⟨front, hfront, fun lastLine other hnext others hothers => ?_⟩
    obtain ⟨tail, hgives, rfl⟩ := hreads lastLine other hnext others hothers
    exact ⟨tail, gives_parseList_iff.mpr (.inl ⟨first, hgives, hnext.symbol?_eq_none hcomma, rfl⟩), rfl⟩
  · have hafter := hfirst.shorter
    simp only [List.length_cons] at hafter
    obtain ⟨forFirst, hfirstFront, hreadsFirst⟩ := readsFront_of_parseTernary ih hfirst
    obtain ⟨front, hfront, hreads⟩ := (ih after (by omega)).list hothers
    refine ⟨forFirst ++ .op ',' :: front, by simp [hfirstFront, hfront],
      fun lastLine other hnext list hlist => ?_⟩
    simp only [List.append_assoc, List.cons_append] at hlist
    obtain ⟨_, hgivesFirst, hbehind⟩ := hreadsFirst lastLine _ (.cons _) list hlist
    obtain ⟨line, behindComma, rfl, hbehindComma⟩ := exists_of_map_lexeme_eq_cons hbehind
    obtain ⟨tail, hgives, htail⟩ := hreads lastLine other hnext behindComma hbehindComma
    exact ⟨tail, gives_parseList_iff.mpr (.inr ⟨first, line, behindComma, others, hgivesFirst, hgives, rfl⟩),
      htail⟩

end Step

theorem readsFronts (lastLine : Nat) (tokens : List Token) : ReadsFronts lastLine tokens := by
  induction hlength : tokens.length using Nat.strongRecOn generalizing tokens with
  | ind length ih =>
    have ih' : ∀ shorter : List Token, shorter.length < tokens.length → ReadsFronts lastLine shorter :=
      fun shorter h => ih _ (hlength ▸ h) shorter rfl
    exact ⟨readsFront_of_parseTernary ih', readsFront_of_parseUnary ih', readsFront_of_parseList ih',
      readsFront_of_parseSuffixes ih'⟩

end Expr

end GuardedLogging
