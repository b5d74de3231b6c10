import GuardedLogging.Proofs.CompilationUnit.Outline
import GuardedLogging.Proofs.Expr.Lookahead

/-!
# How far the readers of declarations look

A declaration is read off the front of the tokens. Where it ends in a bracket, nothing behind it matters; where it ends in a name or an expression, only the lexeme that comes next does. So a class, which ends in a brace, is read alike wherever it stands, and in every scope: the scope gives names to the types and to the class.
-/

namespace GuardedLogging

open Cursor

variable {scope : NameScope} {lastLine : Nat} {tokens rest : List Token}

theorem SameNext.of_ne_nil {front after other lexemes : List Lexeme} (h : front ≠ [])
    (htokens : tokens.map Token.lexeme = front ++ after) (hlexemes : lexemes = front ++ other) :
    SameNext (tokens.map Token.lexeme) lexemes := by
  rw [htokens, hlexemes]
  cases front with
  | nil => exact absurd rfl h
  | cons lexeme front => exact .cons lexeme

theorem Cursor.exists_cons_cons_of_front {others : List Token} {front back other : List Lexeme}
    (h : 2 ≤ front.length) (htokens : tokens.map Token.lexeme = front ++ back)
    (hothers : others.map Token.lexeme = front ++ other) :
    ∃ first second line nextLine otherLine otherNextLine after behind,
      tokens = ⟨first, line⟩ :: ⟨second, nextLine⟩ :: after ∧
        others = ⟨first, otherLine⟩ :: ⟨second, otherNextLine⟩ :: behind := by
  match front, h with
  | first :: second :: front, _ =>
    obtain ⟨line, _, rfl, hsecond⟩ := exists_of_map_lexeme_eq_cons htokens
    obtain ⟨nextLine, after, rfl, _⟩ := exists_of_map_lexeme_eq_cons hsecond
    obtain ⟨otherLine, _, rfl, hsecond⟩ := exists_of_map_lexeme_eq_cons hothers
    obtain ⟨otherNextLine, behind, rfl, _⟩ := exists_of_map_lexeme_eq_cons hsecond
    exact ⟨first, second, line, nextLine, otherLine, otherNextLine, after, behind, rfl, rfl⟩

/-! ### Semicolons -/

namespace Cursor

theorem exists_semicolons (tokens : List Token) :
    ∃ count, tokens.map Token.lexeme
      = List.replicate count (.op ';') ++ (dropSemicolons tokens).map Token.lexeme := by
  induction tokens with
  | nil => exact ⟨0, rfl⟩
  | cons token tokens ih =>
    obtain ⟨lexeme, line⟩ := token
    by_cases h : lexeme = .op ';'
    · subst h
      obtain ⟨count, hcount⟩ := ih
      refine ⟨count + 1, ?_⟩
      rw [List.map_cons, hcount]
      rfl
    · refine ⟨0, ?_⟩
      rw [dropSemicolons, List.dropWhile_cons_of_neg (by simpa [isSemicolon] using h)]
      rfl

theorem notNext_dropSemicolons (tokens : List Token) : NotNext ';' ((dropSemicolons tokens).map Token.lexeme) := by
  induction tokens with
  | nil => nofun
  | cons token tokens ih =>
    by_cases h : isSemicolon token = true
    · rwa [dropSemicolons, List.dropWhile_cons_of_pos h]
    · rw [dropSemicolons, List.dropWhile_cons_of_neg h]
      intro hhead
      exact h (beq_iff_eq.mpr (Option.some.inj hhead))

theorem dropSemicolons_of_lexemes {count : Nat} {other : List Lexeme} (h : NotNext ';' other)
    (htokens : tokens.map Token.lexeme = List.replicate count (.op ';') ++ other) :
    (dropSemicolons tokens).map Token.lexeme = other := by
  induction count generalizing tokens with
  | zero => rwa [h.dropSemicolons_eq htokens]
  | succ count ih =>
    obtain ⟨line, tail, rfl, htail⟩ := exists_of_map_lexeme_eq_cons htokens
    have hsemicolon : isSemicolon ⟨.op ';', line⟩ = true := beq_self_eq_true _
    rw [dropSemicolons, List.dropWhile_cons_of_pos hsemicolon]
    exact ih htail

end Cursor

/-! ### Dotted names and annotations -/

/-- A dotted name is read alike wherever no dot follows it. -/
theorem Cursor.exists_front_of_dottedName {name : String} (h : Gives (dottedName lastLine tokens) name rest) :
    ∃ first front, isKeyword first = false ∧
      tokens.map Token.lexeme = .word first :: (front ++ rest.map Token.lexeme) ∧
      ∀ lastLine other, NotNext '.' other →
        Reads (dottedName lastLine) (.word first :: (front ++ other)) name other := by
  obtain ⟨first, middle, hfirst, rfl, rfl⟩ := gives_dottedName_iff.mp h
  obtain ⟨line, rfl, hkeyword⟩ := gives_identifier_iff.mp hfirst
  refine ⟨first, partLexemes (nameParts middle).value, hkeyword, ?_, fun lastLine other hdot others hothers => ?_⟩
  · rw [List.map_cons, lexemes_of_nameParts middle]
  · obtain ⟨line, behind, rfl, hbehind⟩ := exists_of_map_lexeme_eq_cons hothers
    obtain ⟨hvalue, hrest⟩ := nameParts_of_lexemes hdot hbehind
    refine ⟨_, gives_dottedName_iff.mpr ⟨first, behind, ?_, by rw [hvalue], rfl⟩, hrest⟩
    exact gives_identifier_iff.mpr ⟨line, rfl, hkeyword⟩

namespace Annotation

theorem exists_front_of_parseValue {value : Scalar} (h : Gives (parseValue lastLine tokens) value rest) :
    ∃ first front, tokens.map Token.lexeme = first :: (front ++ rest.map Token.lexeme) ∧
      ∀ lastLine other, NotNext '.' other →
        Reads (parseValue lastLine) (first :: (front ++ other)) value other := by
  rcases gives_parseValue_iff.mp h with ⟨lexeme, line, rfl, hleaf⟩ | ⟨name, hname, rfl⟩
  · refine ⟨lexeme, [], rfl, fun lastLine other _ others hothers => ?_⟩
    obtain ⟨line, tail, rfl, htail⟩ := exists_of_map_lexeme_eq_cons hothers
    exact ⟨tail, gives_parseValue_iff.mpr (.inl ⟨lexeme, line, rfl, hleaf⟩), htail⟩
  · obtain ⟨first, front, _, hfront, hreads⟩ := exists_front_of_dottedName hname
    refine ⟨.word first, front, hfront, fun lastLine other hdot others hothers => ?_⟩
    obtain ⟨tail, hgives, htail⟩ := hreads lastLine other hdot others hothers
    exact ⟨tail, gives_parseValue_iff.mpr (.inr ⟨name, hgives, rfl⟩), htail⟩

/-- A member has its name and a sign in front of its value. -/
theorem exists_of_named {name : String} {value : Scalar} {front other : List Lexeme} {others : List Token}
    (hreads : Reads (parseValue lastLine) front value other)
    (hothers : others.map Token.lexeme = .word name :: .op '=' :: front) :
    ∃ nameLine signLine behindSign behindValue,
      others = ⟨.word name, nameLine⟩ :: ⟨.op '=', signLine⟩ :: behindSign ∧
        Gives (parseValue lastLine behindSign) value behindValue ∧ behindValue.map Token.lexeme = other := by
  obtain ⟨nameLine, _, rfl, hsign⟩ := exists_of_map_lexeme_eq_cons hothers
  obtain ⟨signLine, behindSign, rfl, hbehind⟩ := exists_of_map_lexeme_eq_cons hsign
  obtain ⟨behindValue, hgives, hvalue⟩ := hreads behindSign hbehind
  exact ⟨nameLine, signLine, behindSign, behindValue, rfl, hgives, hvalue⟩

theorem exists_front_of_parseMembers {earlier members : List (String × Scalar)}
    (h : Gives (parseMembers lastLine earlier tokens) members rest) :
    ∃ front, tokens.map Token.lexeme = front ++ rest.map Token.lexeme ∧
      ∀ lastLine other, Reads (parseMembers lastLine earlier) (front ++ other) members other := by
  induction hlength : tokens.length using Nat.strongRecOn generalizing tokens earlier with
  | ind length ih =>
    obtain ⟨nameLine, signLine, name, value, afterSign, afterValue, rfl, hkeyword, hnew, hvalue, hothers⟩ :=
      gives_parseMembers_iff.mp h
    obtain ⟨first, forValue, hvalueFront, hreadsValue⟩ := exists_front_of_parseValue hvalue
    rcases hothers with ⟨line, afterComma, rfl, hmembers⟩ | ⟨line, rfl, rfl⟩
    · have hshorter := hvalue.shorter
      simp only [List.length_cons] at hshorter hlength
      obtain ⟨front, hfront, hreads⟩ := ih _ (by omega) hmembers rfl
      refine ⟨.word name :: .op '=' :: first :: (forValue ++ .op ',' :: front), by simp [hvalueFront, hfront],
        fun lastLine other others hothers => ?_⟩
      simp only [List.cons_append, List.append_assoc] at hothers
      obtain ⟨nameLine, signLine, behindSign, _, rfl, hgivesValue, hcomma⟩ :=
        exists_of_named (hreadsValue lastLine _ (notNext_symbol (by decide) _)) hothers
      obtain ⟨line, behindComma, rfl, hbehindComma⟩ := exists_of_map_lexeme_eq_cons hcomma
      obtain ⟨tail, hgives, htail⟩ := hreads lastLine other behindComma hbehindComma
      exact ⟨tail, gives_parseMembers_iff.mpr ⟨nameLine, signLine, name, value, behindSign, _, rfl, hkeyword, hnew,
        hgivesValue, .inl ⟨line, behindComma, rfl, hgives⟩⟩, htail⟩
    · refine ⟨.word name :: .op '=' :: first :: (forValue ++ [.op ')']), by simp [hvalueFront],
        fun lastLine other others hothers => ?_⟩
      simp only [List.cons_append, List.append_assoc] at hothers
      obtain ⟨nameLine, signLine, behindSign, _, rfl, hgivesValue, hclose⟩ :=
        exists_of_named (hreadsValue lastLine _ (notNext_symbol (by decide) _)) hothers
      obtain ⟨line, tail, rfl, htail⟩ := exists_of_map_lexeme_eq_cons hclose
      exact ⟨tail, gives_parseMembers_iff.mpr ⟨nameLine, signLine, name, value, behindSign, _, rfl, hkeyword, hnew,
        hgivesValue, .inr ⟨line, rfl, rfl⟩⟩, htail⟩

theorem startsNamed_eq_of_front {others : List Token} {front back other : List Lexeme} (h : 2 ≤ front.length)
    (htokens : tokens.map Token.lexeme = front ++ back) (hothers : others.map Token.lexeme = front ++ other) :
    startsNamed tokens = startsNamed others := by
  obtain ⟨first, second, _, _, _, _, _, _, rfl, rfl⟩ := exists_cons_cons_of_front h htokens hothers
  cases first <;> rfl

theorem exists_front_of_parseArguments {members : List (String × Scalar)}
    (h : Gives (parseArguments lastLine tokens) members rest) :
    ∃ front, tokens.map Token.lexeme = front ++ rest.map Token.lexeme ∧
      ∀ lastLine other, Reads (parseArguments lastLine) (front ++ other) members other := by
  rcases gives_parseArguments_iff.mp h with ⟨line, rfl, rfl⟩ |
    ⟨hclose, ⟨hnamed, hmembers⟩ | ⟨hnamed, value, line, hvalue, rfl⟩⟩
  · refine ⟨[.op ')'], rfl, fun lastLine other others hothers => ?_⟩
    obtain ⟨line, tail, rfl, htail⟩ := exists_of_map_lexeme_eq_cons hothers
    exact ⟨tail, gives_parseArguments_iff.mpr (.inl ⟨line, rfl, rfl⟩), htail⟩
  · obtain ⟨front, hfront, hreads⟩ := exists_front_of_parseMembers hmembers
    refine ⟨front, hfront, fun lastLine other others hothers => ?_⟩
    obtain ⟨tail, hgives, htail⟩ := hreads lastLine other others hothers
    -- What named members are read from starts with a name and a sign.
    obtain ⟨_, _, _, _, _, _, rfl, _⟩ := gives_parseMembers_iff.mp hgives
    exact ⟨tail, gives_parseArguments_iff.mpr (.inr ⟨rfl, .inl ⟨rfl, hgives⟩⟩), htail⟩
  · obtain ⟨first, front, hfront, hreads⟩ := exists_front_of_parseValue hvalue
    have hwhole : tokens.map Token.lexeme = first :: (front ++ [.op ')']) ++ rest.map Token.lexeme := by simp [hfront]
    refine ⟨_, hwhole, fun lastLine other others hothers => ?_⟩
    have hsame : SameNext (tokens.map Token.lexeme) (others.map Token.lexeme) := by
      rw [hwhole, hothers]
      exact .cons first
    have hnamedOthers : startsNamed others = false := by
      rw [← startsNamed_eq_of_front (by simp) hwhole hothers, hnamed]
    rw [List.cons_append, List.append_assoc] at hothers
    obtain ⟨_, hgives, hbehind⟩ := hreads lastLine _ (notNext_symbol (by decide) _) others hothers
    obtain ⟨line, tail, rfl, htail⟩ := exists_of_map_lexeme_eq_cons hbehind
    exact ⟨tail, gives_parseArguments_iff.mpr (.inr ⟨hsame.symbol?_eq_none hclose,
      .inr ⟨hnamedOthers, value, line, hgives, rfl⟩⟩), htail⟩

theorem exists_front_of_parse {mark : Annotation} (h : Gives (parse lastLine tokens) mark rest) :
    ∃ front, tokens.map Token.lexeme = front ++ rest.map Token.lexeme ∧
      ∀ lastLine other, NotNext '.' other → NotNext '(' other →
        Reads (parse lastLine) (front ++ other) mark other := by
  obtain ⟨name, afterName, hname, hmembers⟩ := gives_parse_iff.mp h
  obtain ⟨first, forName, _, hnameFront, hreadsName⟩ := exists_front_of_dottedName hname
  rcases hmembers with ⟨hopen, rfl, rfl⟩ | ⟨line, inside, members, rfl, harguments, rfl⟩
  · refine ⟨.word first :: forName, hnameFront, fun lastLine other hdot hopen others hothers => ?_⟩
    obtain ⟨tail, hgives, htail⟩ := hreadsName lastLine other hdot others hothers
    exact ⟨tail, gives_parse_iff.mpr ⟨name, tail, hgives, .inl ⟨hopen.symbol?_eq_none htail, rfl, rfl⟩⟩,
      htail⟩
  · obtain ⟨front, hfront, hreads⟩ := exists_front_of_parseArguments harguments
    refine ⟨.word first :: (forName ++ .op '(' :: front), by simp [hnameFront, hfront],
      fun lastLine other _ _ others hothers => ?_⟩
    simp only [List.cons_append, List.append_assoc] at hothers
    obtain ⟨_, hgivesName, hbehind⟩ := hreadsName lastLine _ (notNext_symbol (by decide) _) others hothers
    obtain ⟨line, behind, rfl, hinside⟩ := exists_of_map_lexeme_eq_cons hbehind
    obtain ⟨tail, hgives, htail⟩ := hreads lastLine other behind hinside
    exact ⟨tail, gives_parse_iff.mpr ⟨name, _, hgivesName, .inr ⟨line, behind, members, rfl, hgives, rfl⟩⟩,
      htail⟩

theorem exists_front_of_parseAll {marks : List Annotation} (h : Gives (parseAll lastLine tokens) marks rest) :
    ∃ front, (front = [] ∨ ∃ back, front = .op '@' :: back) ∧
      tokens.map Token.lexeme = front ++ rest.map Token.lexeme ∧
      ∀ lastLine word other,
        Reads (parseAll lastLine) (front ++ .word word :: other) marks (.word word :: other) := by
  induction hlength : tokens.length using Nat.strongRecOn generalizing tokens marks with
  | ind length ih =>
    rcases gives_parseAll_iff.mp h with
      ⟨line, after, rfl, first, middle, others, hfirst, hothers, rfl⟩ | ⟨hsign, rfl, rfl⟩
    · have hshorter := hfirst.shorter
      simp only [List.length_cons] at hlength
      obtain ⟨forFirst, hfirstFront, hreadsFirst⟩ := exists_front_of_parse hfirst
      obtain ⟨front, hempty, hfront, hreads⟩ := ih _ (by omega) hothers rfl
      refine ⟨.op '@' :: (forFirst ++ front), .inr ⟨_, rfl⟩, by simp [hfirstFront, hfront],
        fun lastLine word other list hlist => ?_⟩
      simp only [List.cons_append, List.append_assoc] at hlist
      -- Behind the first annotation stands the next one or the word.
      have hnext : ∀ symbol, symbol ≠ '@' → NotNext symbol (front ++ .word word :: other) := by
        intro symbol hsymbol
        rcases hempty with rfl | ⟨back, rfl⟩
        · exact notNext_word symbol word other
        · exact notNext_symbol hsymbol.symm _
      obtain ⟨line, behind, rfl, hbehind⟩ := exists_of_map_lexeme_eq_cons hlist
      obtain ⟨between, hgivesFirst, hbetween⟩ :=
        hreadsFirst lastLine _ (hnext '.' (by decide)) (hnext '(' (by decide)) behind hbehind
      obtain ⟨tail, hgives, htail⟩ := hreads lastLine word other between hbetween
      exact ⟨tail, gives_parseAll_iff.mpr (.inl ⟨line, behind, rfl, first, between, others, hgivesFirst, hgives,
        rfl⟩), htail⟩
    · refine ⟨[], .inl rfl, rfl, fun lastLine word other list hlist => ?_⟩
      have hsign : symbol? '@' list = none := (notNext_word '@' word other).symbol?_eq_none hlist
      exact ⟨list, gives_parseAll_iff.mpr (.inr ⟨hsign, rfl, rfl⟩), hlist⟩

end Annotation

theorem Modifiers.exists_front_of_parse {earlier modifiers : Modifiers}
    (h : Gives (parse earlier tokens) modifiers rest) :
    ∃ list : List Modifier, tokens.map Token.lexeme
        = list.map (fun modifier => .word modifier.word) ++ rest.map Token.lexeme ∧
      ∀ other, SameNext (rest.map Token.lexeme) other →
        Reads (parse earlier) (list.map (fun modifier => .word modifier.word) ++ other) modifiers other := by
  induction hlength : tokens.length using Nat.strongRecOn generalizing tokens earlier with
  | ind length ih =>
    rcases eq_cons_or_noModifier tokens with ⟨modifier, line, after, rfl⟩ | hno
    · obtain ⟨hnew, hothers⟩ := gives_parse_cons_iff.mp h
      obtain ⟨list, hlist, hreads⟩ := ih after.length (hlength ▸ Nat.lt_succ_self _) hothers rfl
      refine ⟨modifier :: list, by simp [hlist], fun other hnext others hothers => ?_⟩
      obtain ⟨line, behind, rfl, hbehind⟩ := exists_of_map_lexeme_eq_cons hothers
      obtain ⟨tail, hgives, htail⟩ := hreads other hnext behind hbehind
      exact ⟨tail, gives_parse_cons_iff.mpr ⟨hnew, hgives⟩, htail⟩
    · obtain ⟨rfl, rfl⟩ := (gives_parse_stay_iff hno).mp h
      refine ⟨[], rfl, fun other hnext others hothers => ?_⟩
      refine ⟨others, (gives_parse_stay_iff fun modifier hhead => ?_).mpr ⟨rfl, rfl⟩, hothers⟩
      rw [hothers, List.map_nil, List.nil_append, ← hnext] at hhead
      exact hno modifier hhead

/-! ### Parameters -/

namespace Parameter

theorem startsTyped_eq_of_front {others : List Token} {front back other : List Lexeme} (h : 2 ≤ front.length)
    (htokens : tokens.map Token.lexeme = front ++ back) (hothers : others.map Token.lexeme = front ++ other) :
    startsTyped tokens = startsTyped others := by
  obtain ⟨first, second, _, _, _, _, _, _, rfl, rfl⟩ := exists_cons_cons_of_front h htokens hothers
  cases first <;> cases second <;> rfl

theorem exists_front_of_parseType {package name : String} {second : Lexeme} {nameLine line : Nat}
    {type : Option TypeRef}
    (h : Gives (parseType (.plain package) lastLine tokens) type
      (⟨.word name, nameLine⟩ :: ⟨second, line⟩ :: rest)) :
    ∃ front, tokens.map Token.lexeme = front ++ [.word name, second] ++ rest.map Token.lexeme ∧
      ∀ scope lastLine other, Reads (parseType scope lastLine) (front ++ [.word name, second] ++ other)
        (type.map (TypeRef.inScope scope)) (.word name :: second :: other) := by
  rcases gives_parseType_iff.mp h with
    ⟨line, after, rfl, rfl, rfl⟩ | ⟨hdef, ⟨htyped, known, hname, rfl⟩ | ⟨htyped, rfl, rfl⟩⟩
  · refine ⟨[.word "def"], rfl, fun scope lastLine other others hothers => ?_⟩
    obtain ⟨line, tail, rfl, htail⟩ := exists_of_map_lexeme_eq_cons hothers
    exact ⟨tail, gives_parseType_iff.mpr (.inl ⟨line, tail, rfl, rfl, rfl⟩), htail⟩
  · obtain ⟨first, front, hkeyword, hfront, hreads⟩ := exists_front_of_dottedName hname
    have hwhole : tokens.map Token.lexeme
        = .word first :: front ++ [.word name, second] ++ rest.map Token.lexeme := by simp [hfront]
    refine ⟨_, hwhole, fun scope lastLine other others hothers => ?_⟩
    have htypedOthers : startsTyped others = true := by
      rw [← startsTyped_eq_of_front (by simp) hwhole hothers, htyped]
    rw [List.append_assoc] at hothers
    obtain ⟨tail, hgives, htail⟩ := hreads lastLine _ (notNext_word _ _ _) others hothers
    have hdef : word? "def" others = none :=
      word?_eq_none_of_lexemes (ne_of_isKeyword hkeyword (by decide)) hothers
    refine ⟨tail, gives_parseType_iff.mpr (.inr ⟨hdef, .inl ⟨htypedOthers, known, hgives, ?_⟩⟩), htail⟩
    rw [Option.map_some, TypeRef.inScope_plain]
  · refine ⟨[], rfl, fun scope lastLine other others hothers => ?_⟩
    let found : List Token := ⟨.word name, nameLine⟩ :: ⟨second, line⟩ :: rest
    have hwhole : found.map Token.lexeme = [.word name, second] ++ rest.map Token.lexeme := rfl
    have hsame : SameNext (found.map Token.lexeme) (others.map Token.lexeme) := by
      rw [hwhole, hothers]
      exact .cons _
    have htypedOthers : startsTyped others = false := by
      rw [← startsTyped_eq_of_front (by simp) hwhole hothers, htyped]
    exact ⟨others, gives_parseType_iff.mpr (.inr ⟨hsame.word?_eq_none hdef, .inr ⟨htypedOthers, rfl, rfl⟩⟩),
      hothers⟩

theorem exists_front_of_parseList {package : String} {earlier parameters : List Parameter}
    (h : Gives (parseList (.plain package) lastLine earlier tokens) parameters rest) :
    ∃ front, front ≠ [] ∧ tokens.map Token.lexeme = front ++ rest.map Token.lexeme ∧
      ∀ scope lastLine other, Reads (parseList scope lastLine (earlier.map (inScope scope))) (front ++ other)
        (parameters.map (inScope scope)) other := by
  induction hlength : tokens.length using Nat.strongRecOn generalizing tokens earlier with
  | ind length ih =>
    obtain ⟨type, name, nameLine, afterName, htype, hkeyword, hnew, hothers⟩ := gives_parseList_iff.mp h
    -- What was read so far is passed on, looked up in the scope.
    let parameter : Parameter := ⟨name, type⟩
    have hearlier : ∀ scope : NameScope,
        earlier.map (inScope scope) ++ [parameter.inScope scope] = (earlier ++ [parameter]).map (inScope scope) := by
      intro scope
      rw [List.map_append]
      rfl
    have hnewIn : ∀ scope : NameScope, name ∉ (earlier.map (inScope scope)).map (·.name) := by
      intro scope
      rwa [map_name_inScope]
    have hshorter := htype.shorter
    rcases hothers with ⟨line, afterComma, rfl, hothers⟩ | ⟨line, rfl, rfl⟩
    · obtain ⟨forType, htypeFront, hreadsType⟩ := exists_front_of_parseType htype
      simp only [List.length_cons] at hshorter
      obtain ⟨front, _, hfront, hreads⟩ := ih _ (by omega) hothers rfl
      refine ⟨forType ++ [.word name, .op ','] ++ front, by simp, by simp [htypeFront, hfront],
        fun scope lastLine other list hlist => ?_⟩
      rw [List.append_assoc] at hlist
      obtain ⟨_, hgivesType, hbehind⟩ := hreadsType scope lastLine _ list hlist
      obtain ⟨nameLine, _, rfl, hcomma⟩ := exists_of_map_lexeme_eq_cons hbehind
      obtain ⟨line, behindComma, rfl, hbehindComma⟩ := exists_of_map_lexeme_eq_cons hcomma
      obtain ⟨tail, hgives, htail⟩ := hreads scope lastLine other behindComma hbehindComma
      rw [← hearlier] at hgives
      exact ⟨tail, gives_parseList_iff.mpr ⟨_, name, nameLine, _, hgivesType, hkeyword, hnewIn scope,
        .inl ⟨line, behindComma, rfl, hgives⟩⟩, htail⟩
    · obtain ⟨forType, htypeFront, hreadsType⟩ := exists_front_of_parseType htype
      refine ⟨forType ++ [.word name, .op ')'], by simp, htypeFront, fun scope lastLine other list hlist => ?_⟩
      obtain ⟨_, hgivesType, hbehind⟩ := hreadsType scope lastLine _ list hlist
      obtain ⟨nameLine, _, rfl, hclose⟩ := exists_of_map_lexeme_eq_cons hbehind
      obtain ⟨line, tail, rfl, htail⟩ := exists_of_map_lexeme_eq_cons hclose
      exact ⟨tail, gives_parseList_iff.mpr ⟨_, name, nameLine, _, hgivesType, hkeyword, hnewIn scope,
        .inr ⟨line, rfl, (hearlier scope).symm⟩⟩, htail⟩

theorem exists_front_of_parseAll {package : String} {parameters : List Parameter}
    (h : Gives (parseAll (.plain package) lastLine tokens) parameters rest) :
    ∃ front, tokens.map Token.lexeme = front ++ rest.map Token.lexeme ∧
      ∀ scope lastLine other,
        Reads (parseAll scope lastLine) (front ++ other) (parameters.map (inScope scope)) other := by
  rcases gives_parseAll_iff.mp h with ⟨line, rfl, rfl⟩ | ⟨hclose, hlist⟩
  · refine ⟨[.op ')'], rfl, fun scope lastLine other others hothers => ?_⟩
    obtain ⟨line, tail, rfl, htail⟩ := exists_of_map_lexeme_eq_cons hothers
    exact ⟨tail, gives_parseAll_iff.mpr (.inl ⟨line, rfl, rfl⟩), htail⟩
  · obtain ⟨front, hne, hfront, hreads⟩ := exists_front_of_parseList hlist
    refine ⟨front, hfront, fun scope lastLine other others hothers => ?_⟩
    have hsame : SameNext (tokens.map Token.lexeme) (others.map Token.lexeme) := .of_ne_nil hne hfront hothers
    obtain ⟨tail, hgives, htail⟩ := hreads scope lastLine other others hothers
    exact ⟨tail, gives_parseAll_iff.mpr (.inr ⟨hsame.symbol?_eq_none hclose, hgives⟩), htail⟩

end Parameter

/-! ### Statements -/

namespace Statement

theorem readsFront_of_parseExpr {statement : Statement} (h : Gives (parseExpr lastLine tokens) statement rest) :
    ReadsFront parseExpr tokens statement rest := by
  rcases gives_parseExpr_iff.mp h with ⟨line, after, rfl, expr, hexpr, rfl⟩ | ⟨hreturn, expr, hexpr, rfl⟩
  · obtain ⟨front, hfront, hreads⟩ := (Expr.readsFronts lastLine after).ternary hexpr
    refine ⟨.word "return" :: front, by simp [hfront], fun lastLine other hnext others hothers => ?_⟩
    obtain ⟨line, behind, rfl, hbehind⟩ := exists_of_map_lexeme_eq_cons hothers
    obtain ⟨tail, hgives, htail⟩ := hreads lastLine other hnext behind hbehind
    exact ⟨tail, gives_parseExpr_iff.mpr (.inl ⟨line, behind, rfl, expr, hgives, rfl⟩), htail⟩
  · obtain ⟨front, hfront, hreads⟩ := (Expr.readsFronts lastLine tokens).ternary hexpr
    refine ⟨front, hfront, fun lastLine other hnext others hothers => ?_⟩
    have hsame : SameNext (tokens.map Token.lexeme) (others.map Token.lexeme) := hnext.of_front hfront hothers
    obtain ⟨tail, hgives, htail⟩ := hreads lastLine other hnext others hothers
    exact ⟨tail, gives_parseExpr_iff.mpr (.inr ⟨hsame.word?_eq_none hreturn, expr, hgives, rfl⟩), htail⟩

theorem readsFront_of_parse {statement : Statement} (h : Gives (parse lastLine tokens) statement rest) :
    ReadsFront parse tokens statement rest := by
  obtain ⟨middle, hexpr, rfl⟩ := gives_parse_iff.mp h
  obtain ⟨front, hfront, hreads⟩ := readsFront_of_parseExpr hexpr
  obtain ⟨count, hcount⟩ := exists_semicolons middle
  refine ⟨front ++ List.replicate count (.op ';'), by rw [hfront, hcount, List.append_assoc],
    fun lastLine other hnext others hothers => ?_⟩
  rw [List.append_assoc] at hothers
  have hsemicolon : NotNext ';' other := hnext.notNext (notNext_dropSemicolons middle)
  obtain ⟨between, hgives, hbetween⟩ := hreads lastLine _ (hnext.of_front hcount rfl) others hothers
  exact ⟨_, gives_parse_iff.mpr ⟨between, hgives, rfl⟩, dropSemicolons_of_lexemes hsemicolon hbetween⟩

/-- The statements of a method end in a brace, so nothing behind them matters. -/
theorem exists_front_of_parseBody {methodName : String} {body : List Statement}
    (h : Gives (parseBody lastLine methodName tokens) body rest) :
    ∃ front, front ≠ [] ∧ tokens.map Token.lexeme = front ++ rest.map Token.lexeme ∧
      ∀ lastLine other, Reads (parseBody lastLine methodName) (front ++ other) body other := by
  induction hlength : tokens.length using Nat.strongRecOn generalizing tokens body with
  | ind length ih =>
    rcases gives_parseBody_iff.mp h with
      ⟨line, rfl, rfl⟩ | ⟨hclose, _, first, middle, others, hfirst, hothers, rfl⟩
    · refine ⟨[.op '\x7d'], List.cons_ne_nil _ _, rfl, fun lastLine other others hothers => ?_⟩
      obtain ⟨line, tail, rfl, htail⟩ := exists_of_map_lexeme_eq_cons hothers
      exact ⟨tail, gives_parseBody_iff.mpr (.inl ⟨line, rfl, rfl⟩), htail⟩
    · obtain ⟨forFirst, hfirstFront, hreadsFirst⟩ := readsFront_of_parse hfirst
      obtain ⟨front, hne, hfront, hreads⟩ := ih _ (hlength ▸ hfirst.shorter) hothers rfl
      refine ⟨forFirst ++ front, by simp [hne], by rw [hfirstFront, hfront, List.append_assoc],
        fun lastLine other list hlist => ?_⟩
      rw [List.append_assoc] at hlist
      have hnext : SameNext (middle.map Token.lexeme) (front ++ other) := .of_ne_nil hne hfront rfl
      have hsame : SameNext (tokens.map Token.lexeme) (list.map Token.lexeme) := hnext.of_front hfirstFront hlist
      have hlistNe : list ≠ [] := by
        rintro rfl
        simp [hne] at hlist
      obtain ⟨between, hgivesFirst, hbetween⟩ := hreadsFirst lastLine _ hnext list hlist
      obtain ⟨tail, hgives, htail⟩ := hreads lastLine other between hbetween
      exact ⟨tail, gives_parseBody_iff.mpr (.inr ⟨hsame.symbol?_eq_none hclose, hlistNe, first, between, others,
        hgivesFirst, hgives, rfl⟩), htail⟩

end Statement

/-! ### Members -/

/-- The field that was written, as the class with this name declares it in the scope. -/
def Field.declaredIn (scope : NameScope) (owner : String) (field : Field) : Field :=
  { field.inScope scope with owner }

def Member.declaredIn (scope : NameScope) (owner : String) : Member → Member
  | .field declared => .field (declared.declaredIn scope owner)
  | .method declared => .method (declared.inScope scope)

theorem Field.map_name_declaredIn (owner : String) (fields : List Field) :
    (fields.map (declaredIn scope owner)).map (·.name) = fields.map (·.name) := by
  rw [List.map_map]
  rfl

namespace Member

theorem exists_front_of_parseType {package : String} {type : Option TypeRef}
    (h : Gives (parseType (.plain package) lastLine tokens) type rest) :
    ∃ word front, tokens.map Token.lexeme = .word word :: (front ++ rest.map Token.lexeme) ∧
      ∀ scope lastLine other, NotNext '.' other → Reads (parseType scope lastLine) (.word word :: (front ++ other))
        (type.map (TypeRef.inScope scope)) other := by
  rcases gives_parseType_iff.mp h with ⟨line, after, rfl, rfl, rfl⟩ | ⟨hdef, known, hname, rfl⟩
  · refine ⟨"def", [], rfl, fun scope lastLine other _ others hothers => ?_⟩
    obtain ⟨line, tail, rfl, htail⟩ := exists_of_map_lexeme_eq_cons hothers
    exact ⟨tail, gives_parseType_iff.mpr (.inl ⟨line, tail, rfl, rfl, rfl⟩), htail⟩
  · obtain ⟨first, front, hkeyword, hfront, hreads⟩ := exists_front_of_dottedName hname
    refine ⟨first, front, hfront, fun scope lastLine other hdot others hothers => ?_⟩
    obtain ⟨tail, hgives, htail⟩ := hreads lastLine other hdot others hothers
    have hdef : word? "def" others = none :=
      word?_eq_none_of_lexemes (ne_of_isKeyword hkeyword (by decide)) hothers
    refine ⟨tail, gives_parseType_iff.mpr (.inr ⟨hdef, known, hgives, ?_⟩), htail⟩
    rw [Option.map_some, TypeRef.inScope_plain]

theorem exists_front_of_head {package name : String} {modifiers : Modifiers} {type : Option TypeRef}
    {afterModifiers afterName : List Token} {nameLine : Nat}
    (hmodifiers : Gives (Modifiers.parse .none tokens) modifiers afterModifiers)
    (htype : Gives (parseType (.plain package) lastLine afterModifiers) type
      (⟨.word name, nameLine⟩ :: afterName)) :
    ∃ front, front ≠ [] ∧ tokens.map Token.lexeme = front ++ .word name :: afterName.map Token.lexeme ∧
      ∀ (scope : NameScope) (lastLine : Nat) (other : List Lexeme) (others : List Token),
        others.map Token.lexeme = front ++ .word name :: other →
          ∃ behindModifiers line behindName, Gives (Modifiers.parse .none others) modifiers behindModifiers ∧
            Gives (parseType scope lastLine behindModifiers) (type.map (TypeRef.inScope scope))
              (⟨.word name, line⟩ :: behindName) ∧
            behindName.map Token.lexeme = other := by
  obtain ⟨list, hlist, hreadsModifiers⟩ := Modifiers.exists_front_of_parse hmodifiers
  obtain ⟨word, front, hfront, hreads⟩ := exists_front_of_parseType htype
  refine ⟨list.map (fun modifier => .word modifier.word) ++ .word word :: front, by simp, by simp [hlist, hfront],
    fun scope lastLine other others hothers => ?_⟩
  rw [List.append_assoc] at hothers
  have hnext : SameNext (afterModifiers.map Token.lexeme) (.word word :: front ++ .word name :: other) := by
    rw [hfront]
    exact .cons _
  obtain ⟨behindModifiers, hgivesModifiers, hbehind⟩ := hreadsModifiers _ hnext others hothers
  obtain ⟨_, hgives, hname⟩ := hreads scope lastLine _ (notNext_word _ _ _) behindModifiers hbehind
  obtain ⟨line, behindName, rfl, hbehindName⟩ := exists_of_map_lexeme_eq_cons hname
  exact ⟨behindModifiers, line, behindName, hgivesModifiers, hgives, hbehindName⟩

/-- A method ends in a brace, so nothing behind it matters. -/
theorem exists_front_of_parseMethod {package name : String} {modifiers : Modifiers} {returnType : Option TypeRef}
    {member : Member} (h : Gives (parseMethod (.plain package) lastLine name modifiers returnType tokens) member rest) :
    ∃ front, tokens.map Token.lexeme = front ++ rest.map Token.lexeme ∧
      ∀ scope lastLine owner other,
        Reads (parseMethod scope lastLine name modifiers (returnType.map (TypeRef.inScope scope))) (front ++ other)
          (member.declaredIn scope owner) other := by
  obtain ⟨parameters, line, inside, body, hparameters, hbody, rfl⟩ := Method.gives_parseMethod_iff.mp h
  obtain ⟨forParameters, hparametersFront, hreadsParameters⟩ := Parameter.exists_front_of_parseAll hparameters
  obtain ⟨count, hcount⟩ := exists_semicolons inside
  obtain ⟨front, hne, hfront, hreads⟩ := Statement.exists_front_of_parseBody hbody
  refine ⟨forParameters ++ .op '\x7b' :: (List.replicate count (.op ';') ++ front),
    by simp [hparametersFront, hcount, hfront], fun scope lastLine owner other others hothers => ?_⟩
  simp only [List.append_assoc, List.cons_append] at hothers
  have hnext : SameNext ((dropSemicolons inside).map Token.lexeme) (front ++ other) := .of_ne_nil hne hfront rfl
  obtain ⟨_, hgivesParameters, hbehind⟩ := hreadsParameters scope lastLine _ others hothers
  obtain ⟨line, behind, rfl, hinside⟩ := exists_of_map_lexeme_eq_cons hbehind
  have hbehindInside := dropSemicolons_of_lexemes (hnext.notNext (notNext_dropSemicolons inside)) hinside
  obtain ⟨tail, hgives, htail⟩ := hreads lastLine other _ hbehindInside
  exact ⟨tail, Method.gives_parseMethod_iff.mpr ⟨_, line, behind, body, hgivesParameters, hgives, rfl⟩, htail⟩

theorem readsFront_of_parseInitial {expr : Expr} (h : Gives (parseInitial lastLine tokens) expr rest) :
    ReadsFront parseInitial tokens expr rest := by
  rcases gives_parseInitial_iff.mp h with ⟨line, after, rfl, hexpr⟩ | ⟨hsign, rfl, rfl⟩
  · obtain ⟨front, hfront, hreads⟩ := (Expr.readsFronts lastLine after).ternary hexpr
    refine ⟨.op '=' :: front, by simp [hfront], fun lastLine other hnext others hothers => ?_⟩
    obtain ⟨line, behind, rfl, hbehind⟩ := exists_of_map_lexeme_eq_cons hothers
    obtain ⟨tail, hgives, htail⟩ := hreads lastLine other hnext behind hbehind
    exact ⟨tail, gives_parseInitial_iff.mpr (.inl ⟨line, behind, rfl, hgives⟩), htail⟩
  · refine ⟨[], rfl, fun lastLine other hnext others hothers => ?_⟩
    have hsame : SameNext (rest.map Token.lexeme) (others.map Token.lexeme) := hnext.of_front rfl hothers
    exact ⟨others, gives_parseInitial_iff.mpr (.inr ⟨hsame.symbol?_eq_none hsign, rfl, rfl⟩), hothers⟩

theorem exists_front_of_parseField {field : Field} {member : Member}
    (h : Gives (parseField lastLine field tokens) member rest) :
    ∃ front initial, member = .field { field with initial } ∧
      tokens.map Token.lexeme = front ++ rest.map Token.lexeme ∧
      ∀ (declared : Field) (lastLine : Nat) (other : List Lexeme), SameNext (rest.map Token.lexeme) other →
        Reads (parseField lastLine declared) (front ++ other) (.field { declared with initial }) other := by
  obtain ⟨initial, middle, hinitial, rfl, rfl⟩ := gives_parseField_iff.mp h
  obtain ⟨front, hfront, hreads⟩ := readsFront_of_parseInitial hinitial
  obtain ⟨count, hcount⟩ := exists_semicolons middle
  refine ⟨front ++ List.replicate count (.op ';'), initial, rfl, by rw [hfront, hcount, List.append_assoc],
    fun declared lastLine other hnext others hothers => ?_⟩
  rw [List.append_assoc] at hothers
  have hsemicolon : NotNext ';' other := hnext.notNext (notNext_dropSemicolons middle)
  obtain ⟨between, hgives, hbetween⟩ := hreads lastLine _ (hnext.of_front hcount rfl) others hothers
  exact ⟨_, gives_parseField_iff.mpr ⟨initial, between, hgives, rfl, rfl⟩,
    dropSemicolons_of_lexemes hsemicolon hbetween⟩

theorem exists_front_of_parse {package className : String} {fields : List Field} {member : Member}
    (h : Gives (parse (.plain package) lastLine className fields tokens) member rest) :
    ∃ front, front ≠ [] ∧ tokens.map Token.lexeme = front ++ rest.map Token.lexeme ∧
      ∀ scope lastLine owner other, SameNext (rest.map Token.lexeme) other →
        Reads (parse scope lastLine owner (fields.map (Field.declaredIn scope owner))) (front ++ other)
          (member.declaredIn scope owner) other := by
  obtain ⟨hmark, modifiers, afterModifiers, type, name, nameLine, afterName, hmodifiers, htype, hkeyword,
    hmember⟩ := gives_parse_iff.mp h
  obtain ⟨head, hne, hhead, hreadsHead⟩ := exists_front_of_head hmodifiers htype
  have hmarkOthers : ∀ {back : List Lexeme} {others : List Token}, others.map Token.lexeme = head ++ back →
      symbol? '@' others = none := by
    intro back others hothers
    have hsame : SameNext (tokens.map Token.lexeme) (others.map Token.lexeme) := .of_ne_nil hne hhead hothers
    exact hsame.symbol?_eq_none hmark
  rcases hmember with ⟨line, inside, rfl, hmethod⟩ | ⟨hopen, hnew, hfield⟩
  · obtain ⟨front, hfront, hreads⟩ := exists_front_of_parseMethod hmethod
    refine ⟨head ++ .word name :: .op '(' :: front, by simp, by simp [hhead, hfront],
      fun scope lastLine owner other _ others hothers => ?_⟩
    simp only [List.append_assoc, List.cons_append] at hothers
    obtain ⟨behindModifiers, nameLine, _, hgivesModifiers, hgivesType, hbehind⟩ :=
      hreadsHead scope lastLine _ others hothers
    obtain ⟨line, behind, rfl, hinside⟩ := exists_of_map_lexeme_eq_cons hbehind
    obtain ⟨tail, hgives, htail⟩ := hreads scope lastLine owner other behind hinside
    exact ⟨tail, gives_parse_iff.mpr ⟨hmarkOthers hothers, modifiers, behindModifiers, _, name, nameLine, _,
      hgivesModifiers, hgivesType, hkeyword, .inl ⟨line, behind, rfl, hgives⟩⟩, htail⟩
  · obtain ⟨front, initial, rfl, hfront, hreads⟩ := exists_front_of_parseField hfield
    refine ⟨head ++ .word name :: front, by simp, by simp [hhead, hfront],
      fun scope lastLine owner other hnext others hothers => ?_⟩
    simp only [List.append_assoc, List.cons_append] at hothers
    obtain ⟨behindModifiers, nameLine, behindName, hgivesModifiers, hgivesType, hbehind⟩ :=
      hreadsHead scope lastLine _ others hothers
    have hsame : SameNext (afterName.map Token.lexeme) (behindName.map Token.lexeme) := hnext.of_front hfront hbehind
    obtain ⟨tail, hgives, htail⟩ := hreads _ lastLine other hnext behindName hbehind
    have hnewIn : name ∉ (fields.map (Field.declaredIn scope owner)).map (·.name) := by
      rwa [Field.map_name_declaredIn]
    exact ⟨tail, gives_parse_iff.mpr ⟨hmarkOthers hothers, modifiers, behindModifiers, _, name, nameLine,
      behindName, hgivesModifiers, hgivesType, hkeyword,
      .inr ⟨hsame.symbol?_eq_none hopen, hnewIn, hgives⟩⟩, htail⟩

end Member

/-! ### Classes -/

namespace ClassDecl

/-- The class that was written, as it is declared in the scope under this name. -/
def declaredIn (scope : NameScope) (name : String) (decl : ClassDecl) : ClassDecl :=
  { decl with
    name
    fields := decl.fields.map (Field.declaredIn scope name)
    methods := decl.methods.map (Method.inScope scope) }

theorem declaredIn_appendMember (name : String) (decl : ClassDecl) (member : Member) :
    (decl.declaredIn scope name).appendMember (member.declaredIn scope name)
      = (decl.appendMember member).declaredIn scope name := by
  cases member <;> simp [appendMember, Member.declaredIn, declaredIn]

/-- The members of a class end in a brace, so nothing behind them matters. The line of the brace is that of the source. -/
theorem exists_front_of_parseMembers {package simpleName : String} {decl whole : ClassDecl} {line : Nat}
    (h : Gives (parseMembers (.plain package) lastLine simpleName decl tokens) (whole, line) rest) :
    ∃ front, front ≠ [] ∧ tokens.map Token.lexeme = front ++ rest.map Token.lexeme ∧
      ∀ (scope : NameScope) (lastLine : Nat) (name : String) (other : List Lexeme) (others : List Token),
        others.map Token.lexeme = front ++ other →
          ∃ line tail, Gives (parseMembers scope lastLine simpleName (decl.declaredIn scope name) others)
              (whole.declaredIn scope name, line) tail ∧ tail.map Token.lexeme = other := by
  induction hlength : tokens.length using Nat.strongRecOn generalizing tokens decl with
  | ind length ih =>
    rcases gives_parseMembers_iff.mp h with
      ⟨closing, rfl, hwhole⟩ | ⟨hclose, _, member, middle, hmember, hothers⟩
    · cases hwhole
      refine ⟨[.op '\x7d'], List.cons_ne_nil _ _, rfl, fun scope lastLine name other others hothers => ?_⟩
      obtain ⟨closing, tail, rfl, htail⟩ := exists_of_map_lexeme_eq_cons hothers
      exact ⟨_, tail, gives_parseMembers_iff.mpr (.inl ⟨closing, rfl, rfl⟩), htail⟩
    · have hshorter := Nat.lt_of_le_of_lt (length_dropSemicolons_le middle) hmember.shorter
      obtain ⟨forMember, hmemberNe, hmemberFront, hreadsMember⟩ := Member.exists_front_of_parse hmember
      obtain ⟨count, hcount⟩ := exists_semicolons middle
      obtain ⟨front, hne, hfront, hreads⟩ := ih _ (hlength ▸ hshorter) hothers rfl
      refine ⟨forMember ++ (List.replicate count (.op ';') ++ front), by simp [hne],
        by simp [hmemberFront, hcount, hfront], fun scope lastLine name other list hlist => ?_⟩
      simp only [List.append_assoc] at hlist
      have hnext : SameNext ((dropSemicolons middle).map Token.lexeme) (front ++ other) := .of_ne_nil hne hfront rfl
      have hsame : SameNext (tokens.map Token.lexeme) (list.map Token.lexeme) :=
        .of_ne_nil hmemberNe hmemberFront hlist
      have hlistNe : list ≠ [] := by
        rintro rfl
        simp [hne] at hlist
      obtain ⟨between, hgivesMember, hbetween⟩ :=
        hreadsMember scope lastLine name _ (hnext.of_front hcount rfl) list hlist
      have hbehind := dropSemicolons_of_lexemes (hnext.notNext (notNext_dropSemicolons middle)) hbetween
      obtain ⟨line, tail, hgives, htail⟩ := hreads scope lastLine name other _ hbehind
      rw [← declaredIn_appendMember] at hgives
      exact ⟨line, tail, gives_parseMembers_iff.mpr (.inr ⟨hsame.symbol?_eq_none hclose, hlistNe, _, between,
        hgivesMember, hgives⟩), htail⟩

/-- A class is read alike wherever it stands and in every scope. -/
theorem exists_front_of_parse {package : String} {decl : ClassDecl} {line : Nat}
    (h : Gives (parse (.plain package) lastLine tokens) (decl, line) rest) :
    ∃ simpleName front, tokens.map Token.lexeme = front ++ rest.map Token.lexeme ∧
      ∀ (scope : NameScope) (lastLine : Nat) (other : List Lexeme) (others : List Token),
        others.map Token.lexeme = front ++ other →
          ∃ line tail, Gives (parse scope lastLine others)
              (decl.declaredIn scope (qualify scope.package simpleName), line) tail ∧
            tail.map Token.lexeme = other := by
  obtain ⟨annotations, afterAnnotations, modifiers, classLine, name, nameLine, openLine, inside,
    hannotations, hmodifiers, hkeyword, hmembers⟩ := gives_parse_iff.mp h
  obtain ⟨forMarks, _, hmarksFront, hreadsMarks⟩ := Annotation.exists_front_of_parseAll hannotations
  obtain ⟨list, hlist, hreadsModifiers⟩ := Modifiers.exists_front_of_parse hmodifiers
  obtain ⟨count, hcount⟩ := exists_semicolons inside
  obtain ⟨front, hne, hfront, hreads⟩ := exists_front_of_parseMembers hmembers
  refine ⟨name, forMarks ++ (list.map (fun modifier => .word modifier.word)
      ++ .word "class" :: .word name :: .op '\x7b' :: (List.replicate count (.op ';') ++ front)),
    by simp [hmarksFront, hlist, hcount, hfront], fun scope lastLine other others hothers => ?_⟩
  simp only [List.append_assoc, List.cons_append] at hothers
  -- Annotations end where a word follows, which is a modifier or the word for a class.
  let behindMarks : List Lexeme := list.map (fun modifier => .word modifier.word)
    ++ .word "class" :: .word name :: .op '\x7b' :: (List.replicate count (.op ';') ++ (front ++ other))
  obtain ⟨word, back, hword⟩ : ∃ word back, behindMarks = .word word :: back := by
    cases list <;> exact ⟨_, _, rfl⟩
  have hmarks : others.map Token.lexeme = forMarks ++ .word word :: back := by rw [hothers, ← hword]
  obtain ⟨afterMarks, hgivesMarks, hafterMarks⟩ := hreadsMarks lastLine word back others hmarks
  rw [← hword] at hafterMarks
  obtain ⟨_, hgivesModifiers, hclass⟩ := hreadsModifiers _ (.cons _) afterMarks hafterMarks
  obtain ⟨classLine, _, rfl, hname⟩ := exists_of_map_lexeme_eq_cons hclass
  obtain ⟨nameLine, _, rfl, hopen⟩ := exists_of_map_lexeme_eq_cons hname
  obtain ⟨openLine, behind, rfl, hbehind⟩ := exists_of_map_lexeme_eq_cons hopen
  have hnext : SameNext ((dropSemicolons inside).map Token.lexeme) (front ++ other) := .of_ne_nil hne hfront rfl
  have hinside := dropSemicolons_of_lexemes (hnext.notNext (notNext_dropSemicolons inside)) hbehind
  obtain ⟨line, tail, hgives, htail⟩ := hreads scope lastLine (qualify scope.package name) other _ hinside
  exact ⟨line, tail, gives_parse_iff.mpr ⟨annotations, afterMarks, modifiers, classLine, name, nameLine, openLine,
    behind, hgivesMarks, hgivesModifiers, hkeyword, hgives⟩, htail⟩

end ClassDecl

end GuardedLogging
