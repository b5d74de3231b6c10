import GuardedLogging.Proofs.Expr.Grammar
import GuardedLogging.Proofs.Walk.Safety

/-!
# The language of expressions

The texts that are read as an expression are those from whose lexemes the grammar derives one, and what is read is what is derived. The grammar does not say how a text is read: a derivation may stop anywhere and may group the lexemes as it likes. That it has no choice follows from the reader, which accepts every derivation and gives one expression at most.
-/

namespace GuardedLogging

namespace Expr

variable {text : String} {list : TokenList} {tokens : List Token} {lexemes : List Lexeme} {expr other : Expr}

/-- Nothing behind an expression is nothing that it could go on with. -/
theorem ends_nil (afterName : Bool) : Ends afterName [] where
  property := nofun
  call := fun _ => nofun
  ternary := nofun

theorem gives_all_iff_derives (lastLine : Nat) :
    Gives (parseTernary lastLine tokens) expr [] ↔ Derives (.ternary expr) (tokens.map Token.lexeme) := by
  constructor
  · intro h
    obtain ⟨lexemes, hderives, hlexemes⟩ := (readsDerived lastLine tokens).ternary h
    rwa [hlexemes, List.map_nil, List.append_nil]
  · intro h
    obtain ⟨rest, hgives, hrest⟩ := h.isReadFrom lastLine [] (ends_nil _) tokens (List.append_nil _).symm
    rwa [List.map_eq_nil_iff.mp hrest] at hgives

theorem Derives.unique (h : Derives (.ternary expr) lexemes) (hother : Derives (.ternary other) lexemes) :
    other = expr := by
  have hlexemes : (lexemes.map fun lexeme => Token.mk lexeme 0).map Token.lexeme = lexemes := by
    rw [List.map_map]
    exact List.map_id lexemes
  rw [← hlexemes] at h hother
  exact (((gives_all_iff_derives 0).mpr h).unique ((gives_all_iff_derives 0).mpr hother)).1

theorem parse_eq_ok_iff_of_tokenize (htokens : tokenize text = .ok list) :
    parse text = .ok expr ↔ Gives (parseTernary list.lastLine list.tokens) expr [] := by
  rw [parse, htokens]
  show (parseTernary list.lastLine list.tokens >>= _) = .ok expr ↔ _
  cases parseTernary list.lastLine list.tokens with
  | error error => simp [Bind.bind, Except.bind]
  | ok step =>
    obtain ⟨value, rest, shorter⟩ := step
    cases rest with
    | nil => simp [Bind.bind, Except.bind, Pure.pure, Except.pure]
    | cons token rest => simp [Bind.bind, Except.bind]

theorem parse_eq_ok_iff_derives :
    parse text = .ok expr ↔
      ∃ list, tokenize text = .ok list ∧ Derives (.ternary expr) list.lexemes := by
  constructor
  · intro h
    cases htokens : tokenize text with
    | error error =>
      rw [parse, htokens] at h
      cases h
    | ok list =>
      exact ⟨list, rfl, (gives_all_iff_derives _).mp ((parse_eq_ok_iff_of_tokenize htokens).mp h)⟩
  · rintro ⟨list, htokens, hderives⟩
    exact (parse_eq_ok_iff_of_tokenize htokens).mpr ((gives_all_iff_derives _).mpr hderives)

theorem isOnLineOf_of_parse {error : ParseError} (h : parse text = .error error) : error.IsOnLineOf text := by
  cases htokens : tokenize text with
  | error found =>
    rw [parse, htokens] at h
    cases h
    exact isOnLineOf_of_tokenize htokens
  | ok list => exact (agrees_parse htokens).isOnLineOf htokens h

/-- The else-branch of a ternary may be a ternary without parentheses, and a keyword may be the name of a member. -/
example : parse "a ? !b : c ? d.class(e) : f" = .ok (.ternary (.var "a") (.not (.var "b"))
    (.ternary (.var "c") (.call (.var "d") "class" [.var "e"]) (.var "f"))) := by
  decide +kernel

end Expr

open GuardedLogging.Expr in
/-- A text is read as an expression if and only if it has lexemes from which the grammar derives the expression. The grammar derives one expression at most from a list of lexemes, and a text from whose lexemes it derives none is refused on a line of the text. -/
theorem expressions_are_read_as_derived (text : String) :
    (∀ expr, parse text = .ok expr ↔
        ∃ list, tokenize text = .ok list ∧ Derives (.ternary expr) list.lexemes) ∧
      (∀ lexemes expr other, Derives (.ternary expr) lexemes → Derives (.ternary other) lexemes →
        other = expr) ∧
      ((¬∃ list expr, tokenize text = .ok list ∧ Derives (.ternary expr) list.lexemes) →
        ∃ error, parse text = .error error ∧ error.IsOnLineOf text) := by
  refine ⟨fun _ => parse_eq_ok_iff_derives, fun _ _ _ => Derives.unique, fun hnone => ?_⟩
  cases hparse : parse text with
  | ok expr =>
    obtain ⟨list, htokens, hderives⟩ := parse_eq_ok_iff_derives.mp hparse
    exact absurd ⟨list, expr, htokens, hderives⟩ hnone
  | error error => exact ⟨error, rfl, isOnLineOf_of_parse hparse⟩

end GuardedLogging
