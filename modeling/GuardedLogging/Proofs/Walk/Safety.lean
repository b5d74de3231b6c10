import GuardedLogging.Proofs.Walk.Unit

/-!
# Reading is safe

Whatever the source, reading it ends. Either no piece fits somewhere, or the source has tokens and the walk through them comes to what the reader gives. A walk that has come to something has not asked for what is behind the end of the source, and whatever is refused is refused on a line of the source. The walk sees no lines; so of two sources with the same lexemes, both declare the same unit or both are refused for the same cause.
-/

namespace GuardedLogging

/-! ### Lines of tokens -/

namespace Scan

theorem count_of_takePiece? {input rest : List Char} {piece : Piece} (h : takePiece? input = some (piece, rest)) (c : Char) :
    input.count c = piece.text.count c + rest.count c := by
  rw [← append_of_takePiece? h, List.count_append]

theorem lines_of_tokensFrom {line : Nat} {input : List Char} {list : TokenList}
    (h : tokensFrom line input = .ok list) :
    list.lastLine = line + input.count '\n' ∧
      ∀ token ∈ list.tokens, line ≤ token.line ∧ token.line ≤ line + input.count '\n' := by
  fun_induction tokensFrom line input generalizing list with
  | case1 line input piece rest hpiece _ error herror => cases h
  | case2 line input piece rest hpiece _ after hafter lexeme hlexeme ih =>
    cases h
    obtain ⟨hlast, hlines⟩ := ih hafter
    have hcount := count_of_takePiece? hpiece '\n'
    refine ⟨by rw [hcount, ← Nat.add_assoc, ← hlast], List.forall_mem_cons.mpr ⟨?_, fun token htoken => ?_⟩⟩
    · exact ⟨Nat.le_refl _, Nat.le_add_right _ _⟩
    have hline := hlines token htoken
    omega
  | case3 line input piece rest hpiece _ after hafter hgap ih =>
    cases h
    obtain ⟨hlast, hlines⟩ := ih hafter
    have hcount := count_of_takePiece? hpiece '\n'
    refine ⟨by omega, fun token htoken => ?_⟩
    have hline := hlines token htoken
    omega
  | case4 line _ =>
    cases h
    exact ⟨rfl, List.forall_mem_nil _⟩
  | case5 line c rest _ => cases h

theorem line_of_tokensFrom_eq_error {line : Nat} {input : List Char} {error : ParseError}
    (h : tokensFrom line input = .error error) :
    ∃ found, error.line = some found ∧ line ≤ found ∧ found ≤ line + input.count '\n' := by
  fun_induction tokensFrom line input with
  | case1 line input piece rest hpiece _ found hfound ih =>
    cases h
    obtain ⟨found, hline, hfirst, hlast⟩ := ih hfound
    have hcount := count_of_takePiece? hpiece '\n'
    exact ⟨found, hline, by omega, by omega⟩
  | case2 line input piece rest hpiece _ after hafter lexeme hlexeme ih => cases h
  | case3 line input piece rest hpiece _ after hafter hgap ih => cases h
  | case4 line _ => cases h
  | case5 line c rest _ =>
    cases h
    exact ⟨line, rfl, Nat.le_refl _, Nat.le_add_right _ _⟩

end Scan

/-- The error is reported on a line of the source. -/
def ParseError.IsOnLineOf (source : String) (error : ParseError) : Prop :=
  ∃ line, error.line = some line ∧ 1 ≤ line ∧ line ≤ 1 + source.toList.count '\n'

theorem isOnLineOf_of_tokenize {source : String} {error : ParseError} (h : tokenize source = .error error) :
    error.IsOnLineOf source :=
  Scan.line_of_tokensFrom_eq_error h

/-- Every position holds a token on a line of the source, or is the end, which is on its last line. -/
theorem isOnLineOf_lineAt {source : String} {list : TokenList} (h : tokenize source = .ok list)
    (position : Nat) (cause : ParseError.Cause) :
    (ParseError.onLine (list.lineAt position) cause).IsOnLineOf source := by
  obtain ⟨hlast, hlines⟩ := Scan.lines_of_tokensFrom h
  refine ⟨list.lineAt position, rfl, ?_⟩
  rw [TokenList.lineAt]
  cases hrest : list.tokens.drop position with
  | nil =>
    show 1 ≤ list.lastLine ∧ list.lastLine ≤ _
    omega
  | cons token rest =>
    refine hlines token (List.mem_of_mem_drop (i := position) ?_)
    rw [hrest]
    exact List.mem_cons_self

namespace Agrees

variable {list otherList : TokenList} {α : Type} {result otherResult : Except ParseError α} {walk : Walk α}

theorem isOnLineOf {source : String} (h : Agrees list result walk) (htokens : tokenize source = .ok list)
    {error : ParseError} (herror : result = .error error) : error.IsOnLineOf source := by
  cases h with
  | value value => cases herror
  | refused hinside cause =>
    cases herror
    exact isOnLineOf_lineAt htokens _ cause

/-- What a reader refuses, the walk refuses at a position on the line of the error. -/
theorem exists_refused {line : Nat} {cause : ParseError.Cause} (h : Agrees list result walk)
    (herror : result = .error (.onLine line cause)) :
    ∃ position, position ≤ list.tokens.length ∧ list.lineAt position = line ∧
      walk = throw (.refused position cause) := by
  cases h with
  | value value => cases herror
  | @refused position hinside found =>
    obtain ⟨hline, hcause⟩ := ParseError.mk.inj (Except.error.inj herror)
    cases hcause
    exact ⟨position, hinside, Option.some.inj hline, rfl⟩

theorem same (h : Agrees list result walk) (hother : Agrees otherList otherResult walk) :
    (∃ value, result = .ok value ∧ otherResult = .ok value) ∨
      ∃ line otherLine cause, result = .error (.onLine line cause) ∧
        otherResult = .error (.onLine otherLine cause) := by
  generalize hwalk : walk = otherWalk at hother
  cases h with
  | value value =>
    cases hother with
    | value other =>
      cases Except.ok.inj (Option.some.inj hwalk)
      exact .inl ⟨value, rfl, rfl⟩
    | refused hinside cause => cases hwalk
  | refused hinside cause =>
    cases hother with
    | value other => cases hwalk
    | refused hinsideOther otherCause =>
      cases Except.error.inj (Option.some.inj hwalk)
      exact .inr ⟨_, _, cause, rfl, rfl⟩

end Agrees

open CompilationUnit in
/-- A source that cannot be cut into tokens is refused by both readers. Else the walks end, inside of the source, with what the readers give. Whatever is refused is refused on a line of the source. -/
theorem reading_is_safe (source : String) (name : Scalar) :
    (match tokenize source with
      | .error error => parse source name = .error error ∧ Expr.parse source = .error error
      | .ok list => Agrees list (parse source name) (Lexemes.unit list.lexemes name) ∧
          Agrees list (Expr.parse source) (Lexemes.expression list.lexemes)) ∧
      ∀ error, parse source name = .error error ∨ Expr.parse source = .error error →
        error.IsOnLineOf source := by
  cases htokens : tokenize source with
  | error found =>
    have hparse : parse source name = .error found := by
      rw [parse, htokens]
      rfl
    have hexpr : Expr.parse source = .error found := by
      rw [Expr.parse, htokens]
      rfl
    refine ⟨⟨hparse, hexpr⟩, fun error herror => ?_⟩
    have hfound : error = found := by
      rcases herror with herror | herror
      · exact Except.error.inj (herror.symm.trans hparse)
      · exact Except.error.inj (herror.symm.trans hexpr)
    rw [hfound]
    exact isOnLineOf_of_tokenize htokens
  | ok list =>
    have hunit := agrees_parse name htokens
    have hexpr := Expr.agrees_parse htokens
    exact ⟨⟨hunit, hexpr⟩, fun error herror =>
      herror.elim (hunit.isOnLineOf htokens) (hexpr.isOnLineOf htokens)⟩

namespace CompilationUnit

/-- A source that ends behind a point. -/
def unfinishedSource : String := "class A \x7b\n  def size = host."

def unfinishedTokens : TokenList where
  tokens := [⟨.word "class", 1⟩, ⟨.word "A", 1⟩, ⟨.op '\x7b', 1⟩, ⟨.word "def", 2⟩, ⟨.word "size", 2⟩, ⟨.op '=', 2⟩,
    ⟨.word "host", 2⟩, ⟨.op '.', 2⟩]
  lastLine := 2

theorem tokenize_unfinishedSource : tokenize unfinishedSource = .ok unfinishedTokens := by
  decide +kernel

theorem parse_unfinishedSource : parse unfinishedSource = .error (.onLine 2 (.expectedMember "")) := by
  decide +kernel

end CompilationUnit

open CompilationUnit in
/-- What is missing behind the point is looked for up to the end of the source, and not beyond. -/
theorem unfinishedSource_is_refused_inside :
    tokenize unfinishedSource = .ok unfinishedTokens ∧
      parse unfinishedSource = .error (.onLine 2 (.expectedMember "")) ∧
      (∃ position ≤ 8, unfinishedTokens.lineAt position = 2 ∧
        Lexemes.unit unfinishedTokens.lexemes (.text defaultName) = throw (.refused position (.expectedMember ""))) ∧
      (ParseError.onLine 2 (.expectedMember "")).IsOnLineOf unfinishedSource := by
  obtain ⟨hwalks, hlines⟩ := reading_is_safe unfinishedSource (.text defaultName)
  rw [tokenize_unfinishedSource] at hwalks
  obtain ⟨position, hinside, hline, hwalk⟩ := hwalks.1.exists_refused parse_unfinishedSource
  exact ⟨tokenize_unfinishedSource, parse_unfinishedSource, ⟨position, hinside, hline, hwalk⟩,
    hlines _ (.inl parse_unfinishedSource)⟩

/-! ### Sources with the same lexemes -/

namespace CompilationUnit

theorem parse_same_of_lexemes_eq {source other : String} {list otherList : TokenList} (name : Scalar)
    (htokens : tokenize source = .ok list) (hother : tokenize other = .ok otherList)
    (hlexemes : list.lexemes = otherList.lexemes) :
    (∃ unit, parse source name = .ok unit ∧ parse other name = .ok unit) ∨
      ∃ line otherLine cause, parse source name = .error (.onLine line cause) ∧
        parse other name = .error (.onLine otherLine cause) := by
  have h := agrees_parse name htokens
  rw [hlexemes] at h
  exact h.same (agrees_parse name hother)

end CompilationUnit

end GuardedLogging
