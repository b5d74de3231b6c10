import GuardedLogging.Proofs.Token.Layout

/-!
# Sources as gaps and tokens

A source is a gap and the text of a token in turn, with a last gap behind. What a gap and the text of each kind of token may be is said here without the scanner: gaps are blanks and complete comments, and the text of a token is as long as its kind allows. The scanner succeeds exactly on the sources that can be parted so, with the tokens of the partition and the lines they start on. Where a partition stops in front of something that starts neither a gap nor a token, it reports the character there.
-/

namespace GuardedLogging

namespace Scan

/-! ### Gaps -/

/-- The text is at the end of a line or of the source. -/
def EndsLine (text : List Char) : Prop := ∀ c ∈ text.head?, c = '\n'

/-- Blanks and complete comments, in front of the text behind them. A line comment goes on to the end of its line, and a block comment up to the first place where it can be closed. -/
inductive IsGap : List Char → List Char → Prop
  | nil (behind : List Char) : IsGap [] behind
  | blank {c : Char} {gap behind : List Char} (hc : isBlank c = true) (h : IsGap gap behind) : IsGap (c :: gap) behind
  | lineComment {text gap behind : List Char} (htext : '\n' ∉ text) (hends : EndsLine (gap ++ behind))
      (h : IsGap gap behind) : IsGap ('/' :: '/' :: text ++ gap) behind
  | blockComment {text gap behind : List Char} (htext : ¬['*', '/'] <:+: text ++ ['*']) (h : IsGap gap behind) :
      IsGap ('/' :: '*' :: text ++ '*' :: '/' :: gap) behind

theorem IsGap.append {front gap behind : List Char} (hfront : IsGap front (gap ++ behind)) (h : IsGap gap behind) :
    IsGap (front ++ gap) behind := by
  generalize hmiddle : gap ++ behind = middle at hfront
  induction hfront with
  | nil => exact h
  | blank hc _ ih => exact .blank hc (ih hmiddle)
  | @lineComment text front _ htext hends _ ih =>
    rw [List.append_assoc]
    refine .lineComment htext ?_ (ih hmiddle)
    rwa [List.append_assoc, hmiddle]
  | blockComment htext _ ih =>
    rw [List.append_assoc]
    exact .blockComment htext (ih hmiddle)

/-! ### Texts of tokens -/

/-- What stands between the quotes of a literal: any character behind a backslash, and else neither the quote nor a line break. -/
inductive IsLiteralBody (quote : Char) : List Char → Prop
  | nil : IsLiteralBody quote []
  | plain {c : Char} {rest : List Char} (hquote : c ≠ quote) (hescape : c ≠ '\\') (hbreak : c ≠ '\n')
      (h : IsLiteralBody quote rest) : IsLiteralBody quote (c :: rest)
  | escaped (c : Char) {rest : List Char} (h : IsLiteralBody quote rest) : IsLiteralBody quote ('\\' :: c :: rest)

end Scan

namespace Lexeme

open Scan

/-- The text of the lexeme is one that its kind has. -/
def Matches : Lexeme → Prop
  | literal text => ∃ quote body, (quote = '"' ∨ quote = '\'') ∧ IsLiteralBody quote body ∧
      text.toList = quote :: (body ++ [quote])
  | number text => IsNumberText text.toList
  | word text => isWord text = true
  | op symbol => isSymbol symbol = true

/-- The text behind the lexeme does not go on with it: a number ends where no digit and, if it has no point, no fraction follows, a word where no letter, digit or underscore of words follows. The other kinds end by themselves. -/
def EndsBefore : Lexeme → List Char → Prop
  | number text, rest => (∀ c ∈ rest.head?, isDecimalDigit c = false) ∧
      ('.' ∉ text.toList → ∀ c after, rest = '.' :: c :: after → isDecimalDigit c = false)
  | word _, rest => ∀ c ∈ rest.head?, isWordPart c = false
  | _, _ => True

end Lexeme

namespace Scan

/-- No gap and no token starts the text. -/
structure StartsNothing (text : List Char) : Prop where
  gap : ∀ gap behind, IsGap gap behind → text = gap ++ behind → gap = []
  token : ∀ (lexeme : Lexeme) rest, lexeme.Matches → text ≠ lexeme.text.toList ++ rest

/-- The front of the source is a gap and the text of a token in turn, for each of the tokens, and the rest is what is behind the last of them. The line of a token is one more than the line breaks in front of its text. -/
inductive Partition (source : List Char) : List Token → (front rest : List Char) → Prop
  | start : Partition source [] [] source
  | token {tokens : List Token} {front gap rest : List Char} {lexeme : Lexeme}
      (h : Partition source tokens front (gap ++ (lexeme.text.toList ++ rest)))
      (hgap : IsGap gap (lexeme.text.toList ++ rest)) (hmatches : lexeme.Matches) (hends : lexeme.EndsBefore rest) :
      Partition source (tokens ++ [⟨lexeme, 1 + (front ++ gap).count '\n'⟩]) (front ++ gap ++ lexeme.text.toList) rest

theorem Partition.append {source front rest : List Char} {tokens : List Token}
    (h : Partition source tokens front rest) : front ++ rest = source := by
  induction h with
  | start => rfl
  | token _ _ _ _ ih => rw [List.append_assoc, List.append_assoc, ih]

/-! ### What is cut off -/

variable {input text rest : List Char}

/-- A block comment is closed at the first place where it can be. -/
theorem takeBlock_append (h : ¬['*', '/'] <:+: text ++ ['*']) (rest : List Char) :
    takeBlock (text ++ '*' :: '/' :: rest) = some (text ++ ['*', '/'], rest) := by
  induction text with
  | nil => rfl
  | cons c text ih =>
    have htext : ¬['*', '/'] <:+: text ++ ['*'] := fun hcloses => h (hcloses.trans (List.suffix_cons _ _).isInfix)
    rw [List.cons_append, takeBlock, ih htext]
    · rfl
    · rintro after rfl hafter
      refine h (List.IsPrefix.isInfix ?_)
      cases text with
      | nil => cases hafter
      | cons d text =>
        cases hafter
        exact ⟨text ++ ['*'], rfl⟩

theorem exists_of_takeBlock {front : List Char} (h : takeBlock input = some (front, rest)) :
    ∃ text, front = text ++ ['*', '/'] ∧ ¬['*', '/'] <:+: text ++ ['*'] := by
  fun_induction takeBlock input generalizing front rest with
  | case1 tail =>
    cases h
    exact ⟨[], rfl, by decide⟩
  | case2 c tail hnot ih =>
    obtain ⟨⟨before, after⟩, htail, heq⟩ := Option.map_eq_some_iff.mp h
    cases heq
    obtain ⟨text, rfl, htext⟩ := ih htail
    refine ⟨c :: text, rfl, fun hcloses => ?_⟩
    rw [List.cons_append, List.infix_cons_iff] at hcloses
    refine hcloses.elim (fun hfirst => ?_) htext
    -- The star would be `c`, and the slash would stand in front of what is closed later.
    obtain ⟨hc, hslash⟩ := List.cons_prefix_cons.mp hfirst
    have happend := append_of_takeBlock htail
    cases text with
    | nil => exact absurd hslash (by decide)
    | cons d text =>
      obtain ⟨rfl, _⟩ := List.cons_prefix_cons.mp hslash
      exact hnot _ hc.symm happend.symm
  | case3 => cases h

theorem takeLiteral_append {quote : Char} (hquote : quote = '"' ∨ quote = '\'') {body : List Char}
    (h : IsLiteralBody quote body) (rest : List Char) :
    takeLiteral quote (body ++ quote :: rest) = some (body ++ [quote], rest) := by
  induction h with
  | nil =>
    have hescape : quote ≠ '\\' := by rcases hquote with rfl | rfl <;> decide
    rw [List.nil_append, takeLiteral, if_pos (by simp)]
    · rfl
    · exact fun _ _ hc => absurd hc hescape
  | @plain c body hne hescape hbreak _ ih =>
    rw [List.cons_append, takeLiteral, if_neg (by simpa using hne), if_neg (by simp [hescape, hbreak]), ih]
    · rfl
    · exact fun _ _ hc => absurd hc hescape
  | escaped c _ ih =>
    rw [List.cons_append, List.cons_append, takeLiteral, ih, Option.map_some, List.cons_append, List.cons_append]

theorem exists_of_takeLiteral {quote : Char} {front : List Char} (h : takeLiteral quote input = some (front, rest)) :
    ∃ body, front = body ++ [quote] ∧ IsLiteralBody quote body := by
  fun_induction takeLiteral quote input generalizing front rest with
  | case1 c tail ih =>
    obtain ⟨⟨before, after⟩, htail, heq⟩ := Option.map_eq_some_iff.mp h
    cases heq
    obtain ⟨body, rfl, hbody⟩ := ih htail
    exact ⟨'\\' :: c :: body, rfl, .escaped c hbody⟩
  | case2 c tail _ hc =>
    cases h
    exact ⟨[], congrArg (· :: []) (by simpa using hc), .nil⟩
  | case3 => cases h
  | case4 c tail _ hquote hplain ih =>
    obtain ⟨⟨before, after⟩, htail, heq⟩ := Option.map_eq_some_iff.mp h
    cases heq
    obtain ⟨body, rfl, hbody⟩ := ih htail
    simp only [Bool.or_eq_true, beq_iff_eq, not_or] at hplain
    exact ⟨c :: body, rfl, .plain (by simpa using hquote) hplain.2 hplain.1 hbody⟩
  | case5 => cases h

/-! ### Numbers -/

theorem isNumberText_takeNumber {c : Char} (hc : isDecimalDigit c = true) (tail : List Char) :
    IsNumberText (takeNumber (c :: tail)).1 ∧
      (Lexeme.number (String.ofList (takeNumber (c :: tail)).1)).EndsBefore (takeNumber (c :: tail)).2 := by
  have hwhole : IsDigits ((c :: tail).takeWhile isDecimalDigit) := by
    refine ⟨?_, fun d hd => List.mem_takeWhile_imp hd⟩
    rw [List.takeWhile_cons_of_pos hc]
    exact List.cons_ne_nil _ _
  have hhead : ∀ d ∈ ((c :: tail).dropWhile isDecimalDigit).head?, isDecimalDigit d = false :=
    head?_dropWhile_eq_false
  rw [Lexeme.EndsBefore, String.toList_ofList]
  unfold takeNumber
  simp only
  split
  · rename_i d after hafter
    rw [hafter] at hhead
    split
    · rename_i hd
      have hpart : IsDigits (d :: after.takeWhile isDecimalDigit) :=
        ⟨List.cons_ne_nil _ _, List.forall_mem_cons.mpr ⟨hd, fun e he => List.mem_takeWhile_imp he⟩⟩
      exact ⟨.fraction hwhole hpart, head?_dropWhile_eq_false, fun hdot => absurd (by simp) hdot⟩
    · rename_i hd
      refine ⟨.whole hwhole, hhead, fun _ e behind hbehind => ?_⟩
      cases hbehind
      exact Bool.eq_false_iff.mpr hd
  · rename_i hnot
    exact ⟨.whole hwhole, hhead, fun _ e behind hbehind => absurd hbehind (hnot e behind)⟩

/-! ### Pieces -/

theorem takePiece?_literal {quote : Char} (hquote : quote = '"' ∨ quote = '\'') {body : List Char}
    (h : IsLiteralBody quote body) (rest : List Char) :
    takePiece? (quote :: (body ++ [quote]) ++ rest)
      = some (.token (.literal (String.ofList (quote :: (body ++ [quote])))), rest) := by
  have hpiece : takePiece? (quote :: (body ++ quote :: rest)) = (takeLiteral quote (body ++ quote :: rest)).map
      fun found => (.token (.literal (String.ofList (quote :: found.1))), found.2) := by
    rcases hquote with rfl | rfl <;> rfl
  rw [List.cons_append, List.append_assoc, List.singleton_append, hpiece, takeLiteral_append hquote h]
  rfl

/-- A text that matches is cut off as a token, and as long as it is if nothing behind goes on with it. -/
theorem takePiece?_lexeme {lexeme : Lexeme} (h : lexeme.Matches) (rest : List Char) :
    ∃ found after, takePiece? (lexeme.text.toList ++ rest) = some (.token found, after) ∧
      (lexeme.EndsBefore rest → found = lexeme ∧ after = rest) := by
  cases lexeme with
  | literal text =>
    obtain ⟨quote, body, hquote, hbody, htext⟩ := h
    refine ⟨.literal text, rest, ?_, fun _ => ⟨rfl, rfl⟩⟩
    rw [Lexeme.text, htext, takePiece?_literal hquote hbody, ← htext, String.ofList_toList]
  | number text =>
    obtain ⟨c, tail, htext, hc⟩ := h.exists_cons
    have hpiece := takePiece?_digit hc (tail ++ rest)
    rw [← List.cons_append, ← htext] at hpiece
    refine ⟨_, _, hpiece, fun hends => ?_⟩
    rw [takeNumber_append h hends.1 hends.2, String.ofList_toList]
    exact ⟨rfl, rfl⟩
  | word text =>
    obtain ⟨c, part, htext, hstart, hpart⟩ := exists_of_isWord h
    have hpiece := takePiece?_word hstart (part ++ rest)
    rw [← List.cons_append, ← htext] at hpiece
    refine ⟨_, _, hpiece, fun hends => ?_⟩
    obtain ⟨htake, hdrop⟩ := takeWhile_append_of_ends hpart hends
    rw [htake, hdrop, ← htext, String.ofList_toList]
    exact ⟨rfl, rfl⟩
  | op symbol =>
    refine ⟨.op symbol, rest, ?_, fun _ => ⟨rfl, rfl⟩⟩
    rw [Lexeme.text, Char.toString_eq_singleton, String.toList_singleton]
    exact takePiece?_symbol h rest

end Scan

/-- The piece may be cut off in front of this text. -/
def Piece.Fits : Piece → List Char → Prop
  | gap text, rest => Scan.IsGap text rest
  | token lexeme, rest => lexeme.Matches ∧ lexeme.EndsBefore rest

namespace Scan

variable {input rest : List Char}

theorem isGap_of_all {gap : List Char} (h : ∀ c ∈ gap, isBlank c = true) (behind : List Char) : IsGap gap behind := by
  induction gap with
  | nil => exact .nil behind
  | cons c gap ih =>
    obtain ⟨hc, hgap⟩ := List.forall_mem_cons.mp h
    exact .blank hc (ih hgap)

theorem fits_of_takePiece? {piece : Piece} (h : takePiece? input = some (piece, rest)) : piece.Fits rest := by
  unfold takePiece? at h
  split at h
  · cases h
  · rename_i tail
    cases h
    have hgap : IsGap ('/' :: '/' :: tail.takeWhile (· != '\n') ++ []) (tail.dropWhile (· != '\n')) := by
      refine .lineComment (fun hbreak => absurd (List.mem_takeWhile_imp hbreak) (by decide)) (fun c hc => ?_) (.nil _)
      have hends := head?_dropWhile_eq_false c hc
      simpa using hends
    rwa [List.append_nil] at hgap
  · obtain ⟨⟨front, after⟩, hblock, heq⟩ := Option.map_eq_some_iff.mp h
    cases heq
    obtain ⟨text, rfl, htext⟩ := exists_of_takeBlock hblock
    exact .blockComment htext (.nil _)
  · rename_i c tail _ _
    split at h
    · rename_i hblank
      cases h
      exact isGap_of_all (List.forall_mem_cons.mpr ⟨hblank, fun d hd => List.mem_takeWhile_imp hd⟩) _
    · split at h
      · rename_i hquote
        obtain ⟨⟨front, after⟩, hliteral, heq⟩ := Option.map_eq_some_iff.mp h
        cases heq
        obtain ⟨body, rfl, hbody⟩ := exists_of_takeLiteral hliteral
        exact ⟨⟨c, body, by simpa using hquote, hbody, String.toList_ofList⟩, trivial⟩
      · split at h
        · rename_i hdigit
          cases h
          obtain ⟨htext, hends⟩ := isNumberText_takeNumber hdigit tail
          refine ⟨?_, hends⟩
          rwa [Lexeme.Matches, String.toList_ofList]
        · split at h
          · rename_i hstart
            cases h
            refine ⟨?_, head?_dropWhile_eq_false⟩
            rw [Lexeme.Matches, isWord, String.toList_ofList]
            exact Bool.and_eq_true_iff.mpr ⟨hstart, List.all_eq_true.mpr fun d hd => List.mem_takeWhile_imp hd⟩
          · split at h
            · rename_i hsymbol
              cases h
              exact ⟨hsymbol, trivial⟩
            · cases h

theorem takePiece?_lineComment {text : List Char} (htext : '\n' ∉ text) (hends : EndsLine rest) :
    takePiece? ('/' :: '/' :: (text ++ rest)) = some (.gap ('/' :: '/' :: text), rest) := by
  have hplain : ∀ c ∈ text, (c != '\n') = true := by
    intro c hc
    rw [bne_iff_ne]
    rintro rfl
    exact htext hc
  have hbreak : ∀ c ∈ rest.head?, (c != '\n') = false := fun c hc => by simpa using hends c hc
  obtain ⟨htake, hdrop⟩ := takeWhile_append_of_ends hplain hbreak
  rw [takePiece?, htake, hdrop]

theorem takePiece?_blockComment {text : List Char} (htext : ¬['*', '/'] <:+: text ++ ['*']) (rest : List Char) :
    takePiece? ('/' :: '*' :: (text ++ '*' :: '/' :: rest))
      = some (.gap ('/' :: '*' :: (text ++ ['*', '/'])), rest) := by
  rw [takePiece?, takeBlock_append htext]
  rfl

/-- A gap is passed over, with its line breaks. -/
theorem tokensFrom_gap {gap behind : List Char} (h : IsGap gap behind) (line : Nat) :
    tokensFrom line (gap ++ behind) = tokensFrom (line + gap.count '\n') behind := by
  induction h generalizing line with
  | nil => rfl
  | blank hc _ ih =>
    rw [List.cons_append, tokensFrom_blank hc, ih, Nat.add_assoc, ← List.count_append]
    rfl
  | @lineComment text gap behind htext hends _ ih =>
    rw [List.append_assoc, List.cons_append, List.cons_append,
      tokensFrom_of_takePiece? (takePiece?_lineComment htext hends), map_addPiece_gap, ih, Nat.add_assoc, Piece.text,
      ← List.count_append]
  | @blockComment text gap behind htext _ ih =>
    have hcount : ('/' :: '*' :: text ++ '*' :: '/' :: gap).count '\n'
        = ('/' :: '*' :: (text ++ ['*', '/'])).count '\n' + gap.count '\n' := by
      rw [← List.count_append]
      simp
    rw [hcount, ← Nat.add_assoc, ← ih, List.append_assoc, List.cons_append, List.cons_append, List.cons_append,
      List.cons_append, tokensFrom_of_takePiece? (takePiece?_blockComment htext _), map_addPiece_gap, Piece.text]

theorem takePiece?_eq_none_iff {c : Char} : takePiece? (c :: rest) = none ↔ StartsNothing (c :: rest) := by
  constructor
  · intro hnone
    refine ⟨fun gap behind hgap hinput => ?_, fun lexeme after hmatches hinput => ?_⟩
    · rw [hinput] at hnone
      cases hgap with
      | nil => rfl
      | blank hc _ =>
        rw [List.cons_append, takePiece?_blank hc] at hnone
        cases hnone
      | lineComment => cases hnone
      | blockComment htext _ =>
        rw [List.append_assoc, List.cons_append, List.cons_append, List.cons_append, List.cons_append,
          takePiece?_blockComment htext] at hnone
        cases hnone
    · obtain ⟨found, last, hpiece, _⟩ := takePiece?_lexeme hmatches after
      rw [hinput, hpiece] at hnone
      cases hnone
  · intro hnothing
    refine Option.eq_none_iff_forall_ne_some.mpr ?_
    rintro ⟨piece, after⟩ hpiece
    have hfits := fits_of_takePiece? hpiece
    have happend := append_of_takePiece? hpiece
    cases piece with
    | gap text => exact text_ne_nil_of_takePiece? hpiece (hnothing.gap text after hfits happend.symm)
    | token lexeme => exact hnothing.token lexeme after hfits.1 happend.symm

/-- The text of a token is passed over, and the token is put in front of those behind it. -/
theorem tokensFrom_lexeme {lexeme : Lexeme} (hmatches : lexeme.Matches) (hends : lexeme.EndsBefore rest) (line : Nat) :
    tokensFrom line (lexeme.text.toList ++ rest) =
      (tokensFrom (line + lexeme.text.toList.count '\n') rest).map (addPiece (.token lexeme) line) := by
  obtain ⟨found, after, hpiece, hfound⟩ := takePiece?_lexeme hmatches rest
  obtain ⟨rfl, rfl⟩ := hfound hends
  exact tokensFrom_of_takePiece? hpiece line

/-! ### Whole sources -/

/-- The list with tokens put in front. -/
def prepend (tokens : List Token) (list : TokenList) : TokenList := { list with tokens := tokens ++ list.tokens }

theorem prepend_addPiece (tokens : List Token) (lexeme : Lexeme) (line : Nat) (list : TokenList) :
    prepend tokens (addPiece (.token lexeme) line list) = prepend (tokens ++ [⟨lexeme, line⟩]) list := by
  rw [prepend, prepend, List.append_assoc]
  rfl

namespace Partition

variable {source front gap : List Char} {tokens : List Token}

theorem tokensFrom_eq (h : Partition source tokens front rest) :
    tokensFrom 1 source = (tokensFrom (1 + front.count '\n') rest).map (prepend tokens) := by
  induction h with
  | start => exact (congrFun Except.map_id _).symm
  | @token tokens front gap rest lexeme _ hgap hmatches hends ih =>
    rw [ih, tokensFrom_gap hgap, tokensFrom_lexeme hmatches hends, Nat.add_assoc, ← List.count_append, Nat.add_assoc,
      ← List.count_append]
    cases tokensFrom (1 + (front ++ gap ++ lexeme.text.toList).count '\n') rest with
    | error error => rfl
    | ok list => exact congrArg Except.ok (prepend_addPiece tokens lexeme _ list)

theorem tokensFrom_eq_ok (h : Partition source tokens front gap) (hgap : IsGap gap []) :
    tokensFrom 1 source = .ok ⟨tokens, 1 + source.count '\n'⟩ := by
  have hend (line : Nat) : tokensFrom line gap = .ok ⟨[], line + gap.count '\n'⟩ := by
    have hpassed := tokensFrom_gap hgap line
    rw [List.append_nil] at hpassed
    rw [hpassed, tokensFrom]
    rfl
  rw [h.tokensFrom_eq, hend, Nat.add_assoc, ← List.count_append, h.append, Except.map, prepend, List.append_nil]

theorem tokensFrom_eq_error {c : Char} (h : Partition source tokens front (gap ++ c :: rest))
    (hgap : IsGap gap (c :: rest)) (hnothing : StartsNothing (c :: rest)) :
    tokensFrom 1 source = .error (.onLine (1 + (front ++ gap).count '\n') (.unexpectedCharacter c)) := by
  rw [h.tokensFrom_eq, tokensFrom_gap hgap, tokensFrom_of_none (takePiece?_eq_none_iff.mpr hnothing), Nat.add_assoc,
    ← List.count_append]
  rfl

/-- A partition goes on to the end of the source or to a place where nothing starts. -/
theorem exists_last (h : Partition source tokens front (gap ++ input)) (hgap : IsGap gap input) :
    ∃ tokens front gap input, Partition source tokens front (gap ++ input) ∧ IsGap gap input ∧
      (input = [] ∨ ∃ c rest, input = c :: rest ∧ StartsNothing (c :: rest)) := by
  induction hlength : input.length using Nat.strong_induction_on generalizing tokens front gap input with
  | _ length ih =>
    subst hlength
    cases input with
    | nil => exact ⟨tokens, front, gap, [], h, hgap, .inl rfl⟩
    | cons c tail =>
      cases hpiece : takePiece? (c :: tail) with
      | none =>
        have hnothing := takePiece?_eq_none_iff.mp hpiece
        exact ⟨tokens, front, gap, c :: tail, h, hgap, .inr ⟨c, tail, rfl, hnothing⟩⟩
      | some found =>
        obtain ⟨piece, rest⟩ := found
        have hshorter := length_lt_of_takePiece? hpiece
        have hfits := fits_of_takePiece? hpiece
        rw [← append_of_takePiece? hpiece] at h hgap
        cases piece with
        | gap text =>
          rw [Piece.text, ← List.append_assoc] at h
          exact ih _ hshorter h (hgap.append hfits) rfl
        | token lexeme =>
          have hnext := h.token hgap hfits.1 hfits.2
          rw [← List.nil_append rest] at hnext
          exact ih _ hshorter hnext (.nil rest) rfl

end Partition

end Scan

open Scan in
/-- A source is cut into tokens exactly if it is a gap and the text of a token in turn, with a last gap behind; the tokens are those of the partition, with their lines, and the last line is that of the end of the source. It is refused exactly if such a partition reaches a place where neither a gap nor a token starts, with the character and the line of that place. -/
theorem sources_are_parted (source : String) :
    (∀ list, tokenize source = .ok list ↔
        ∃ front gap, Partition source.toList list.tokens front gap ∧ IsGap gap [] ∧
          list.lastLine = 1 + source.toList.count '\n') ∧
      ∀ error, tokenize source = .error error ↔
        ∃ tokens front gap c rest, Partition source.toList tokens front (gap ++ c :: rest) ∧ IsGap gap (c :: rest) ∧
          StartsNothing (c :: rest) ∧ error = .onLine (1 + (front ++ gap).count '\n') (.unexpectedCharacter c) := by
  have hstart : Partition source.toList [] [] ([] ++ source.toList) := .start
  obtain ⟨tokens, front, gap, input, hpartition, hgap, hlast⟩ := hstart.exists_last (.nil _)
  unfold tokenize
  constructor
  · intro list
    constructor
    · intro hlist
      rcases hlast with rfl | ⟨c, rest, rfl, hnothing⟩
      · rw [List.append_nil] at hpartition
        cases (hpartition.tokensFrom_eq_ok hgap).symm.trans hlist
        exact ⟨front, gap, hpartition, hgap, rfl⟩
      · cases (hpartition.tokensFrom_eq_error hgap hnothing).symm.trans hlist
    · rintro ⟨front, gap, hpartition, hgap, hline⟩
      rw [hpartition.tokensFrom_eq_ok hgap, ← hline]
  · intro error
    constructor
    · intro herror
      rcases hlast with rfl | ⟨c, rest, rfl, hnothing⟩
      · rw [List.append_nil] at hpartition
        cases (hpartition.tokensFrom_eq_ok hgap).symm.trans herror
      · cases (hpartition.tokensFrom_eq_error hgap hnothing).symm.trans herror
        exact ⟨tokens, front, gap, c, rest, hpartition, hgap, hnothing, rfl⟩
    · rintro ⟨tokens, front, gap, c, rest, hpartition, hgap, hnothing, rfl⟩
      exact hpartition.tokensFrom_eq_error hgap hnothing

/-- A comment opener in a literal and quotes in a comment open nothing, and a line break behind a backslash counts. -/
example : tokenize "a\"/*\\\n\" /* \"\n*/ 1.5.b // '" =
    .ok ⟨[⟨.word "a", 1⟩, ⟨.literal "\"/*\\\n\"", 1⟩, ⟨.number "1.5", 3⟩, ⟨.op '.', 3⟩,
      ⟨.word "b", 3⟩], 3⟩ := by
  decide +kernel

end GuardedLogging
