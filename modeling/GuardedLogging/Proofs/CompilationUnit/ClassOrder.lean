import GuardedLogging.Proofs.CompilationUnit.DeclaredNames
import GuardedLogging.Proofs.CompilationUnit.Lookahead

/-!
# The order of classes

A source is a header, which declares a package and imports, with class declarations behind it. Each of them ends where it ends by itself, and the names that types have in it depend on the header and on which classes are declared, not on where. So the declarations may stand in any order.
-/

namespace GuardedLogging

open Cursor

variable {scope : NameScope} {lastLine : Nat} {tokens rest : List Token}

instance {α : Type} {bound : Nat} (parsed : Parsed α bound) (rest : List Token) :
    Decidable (∃ value, Gives parsed value rest) :=
  match parsed with
  | .ok step => decidable_of_iff (step.rest = rest)
      ⟨fun h => ⟨step.value, Gives.ok_iff.mpr ⟨rfl, h⟩⟩, fun ⟨_, h⟩ => (Gives.ok_iff.mp h).2⟩
  | .error _ => .isFalse fun ⟨_, h⟩ => Gives.error_iff.mp h

/-! ### What a source consists of -/

/-- The lexemes of a class with its annotations, its modifiers and the semicolons behind it: by themselves they are read as a class, in some scope, and nothing is left. -/
def IsClassDeclaration (lexemes : List Lexeme) : Prop :=
  ∃ scope lastLine tokens, tokens.map Token.lexeme = lexemes ∧
    ∃ decl, Gives (skipSemicolons <$> ClassDecl.parse scope lastLine tokens) decl []

namespace CompilationUnit

/-- The lexemes of a package declaration, if there is one, and of imports. -/
def IsHeader (lexemes : List Lexeme) : Prop :=
  ∃ lastLine tokens package afterPackage imports, tokens.map Token.lexeme = lexemes ∧
    Gives (parsePackage lastLine tokens) package afterPackage ∧
    Gives (parseImports lastLine [] afterPackage) imports []

/-- The tokens of the source are those of a header and, behind it, of class declarations. -/
structure ConsistsOf (source : String) (header : List Lexeme) (declarations : List (List Lexeme)) : Prop where
  isHeader : IsHeader header
  areDeclarations : ∀ declaration ∈ declarations, IsClassDeclaration declaration
  tokens : ∃ list, tokenize source = .ok list ∧ list.tokens.map Token.lexeme = header ++ declarations.flatten

end CompilationUnit

/-- Tokens with these lexemes on one line. -/
def lineOf (lexemes : List Lexeme) : List Token := lexemes.map (⟨·, 1⟩)

theorem lexemes_lineOf (lexemes : List Lexeme) : (lineOf lexemes).map Token.lexeme = lexemes := by
  rw [lineOf, List.map_map]
  exact List.map_id lexemes

/-! ### What a declaration declares -/

/-- What a declaration says of a class by itself: its simple name, and the class with its types named as they are written. -/
structure ClassOutline where
  simpleName : String
  decl : ClassDecl
deriving Inhabited

/-- The class that is declared in the scope. -/
def ClassOutline.inScope (scope : NameScope) (outline : ClassOutline) : ClassDecl :=
  outline.decl.declaredIn scope (qualify scope.package outline.simpleName)

/-- Wherever the lexemes stand, with no semicolon behind them, they are read as the class that the outline declares in the scope. -/
def Declares (declaration : List Lexeme) (outline : ClassOutline) : Prop :=
  ∀ (scope : NameScope) (lastLine : Nat) (other : List Lexeme) (others : List Token), NotNext ';' other →
    others.map Token.lexeme = declaration ++ other →
      ∃ line middle, Gives (ClassDecl.parse scope lastLine others) (outline.inScope scope, line) middle ∧
        (dropSemicolons middle).map Token.lexeme = other

theorem ClassDecl.exists_declares {decl : ClassDecl} {line : Nat}
    (h : Gives (parse scope lastLine tokens) (decl, line) rest) :
    ∃ declaration outline, Declares declaration outline ∧
      tokens.map Token.lexeme = declaration ++ (dropSemicolons rest).map Token.lexeme := by
  obtain ⟨written, hwritten, _⟩ := exists_plain_of_parse h
  obtain ⟨simpleName, front, hfront, hreads⟩ := exists_front_of_parse hwritten
  obtain ⟨count, hcount⟩ := exists_semicolons rest
  refine ⟨front ++ List.replicate count (.op ';'), ⟨simpleName, written⟩, ?_,
    by rw [hfront, hcount, List.append_assoc]⟩
  intro scope lastLine other others hsemicolon hothers
  rw [List.append_assoc] at hothers
  obtain ⟨line, middle, hgives, hmiddle⟩ := hreads scope lastLine _ others hothers
  exact ⟨line, middle, hgives, dropSemicolons_of_lexemes hsemicolon hmiddle⟩

theorem IsClassDeclaration.exists_declares {declaration : List Lexeme} (h : IsClassDeclaration declaration) :
    ∃ outline, Declares declaration outline := by
  obtain ⟨scope, lastLine, tokens, rfl, ⟨decl, line⟩, hgives⟩ := h
  obtain ⟨middle, hparse, hmiddle⟩ := gives_skipSemicolons_iff.mp hgives
  obtain ⟨declaration, outline, hdeclares, htokens⟩ := ClassDecl.exists_declares hparse
  rw [← hmiddle, List.map_nil, List.append_nil] at htokens
  exact ⟨outline, htokens ▸ hdeclares⟩

namespace Declares

variable {declaration : List Lexeme} {outline : ClassOutline}

theorem isClassDeclaration (h : Declares declaration outline) : IsClassDeclaration declaration := by
  have hlexemes := lexemes_lineOf declaration
  obtain ⟨line, middle, hgives, hmiddle⟩ := h (.plain "") 1 [] _ nofun (by rw [hlexemes, List.append_nil])
  exact ⟨.plain "", 1, _, hlexemes, _,
    gives_skipSemicolons_iff.mpr ⟨middle, hgives, (List.map_eq_nil_iff.mp hmiddle).symm⟩⟩

theorem isWritten_plain (h : Declares declaration outline) (hwords : AreWords declaration) :
    (outline.inScope (.plain "")).IsWritten "" TypeRef.IsParsed Expr.IsParsed := by
  have hscope : (NameScope.plain "").IsWritten := by
    refine ⟨.inl rfl, fun imported himported => ?_⟩
    obtain ⟨name, hname, rfl⟩ := List.mem_map.mp himported
    exact isDottedName_of_isName (isName_of_mem_languageTypes hname)
  have hlexemes := lexemes_lineOf declaration
  obtain ⟨line, middle, hgives, _⟩ := h (.plain "") 1 [] _ nofun (by rw [hlexemes, List.append_nil])
  rw [← hlexemes] at hwords
  exact ClassDecl.isParsed_of_parse hscope hwords hgives

theorem isName (h : Declares declaration outline) (hwords : AreWords declaration) :
    GuardedLogging.isName outline.simpleName = true := by
  have hwritten := h.isWritten_plain hwords
  -- Without a package, the name of the class is its simple name.
  have hname : outline.simpleName = lastPart outline.simpleName := hwritten.name
  rw [hname]
  exact hwritten.simpleName

theorem isNamedIn (h : Declares declaration outline) (hwords : AreWords declaration) (scope : NameScope) :
    (outline.inScope scope).IsNamedIn scope.package := by
  have hname := h.isName hwords
  have hsimple : (outline.inScope scope).simpleName = outline.simpleName :=
    lastPart_qualify scope.package (dot_not_mem_of_isWord (isWord_of_isName hname))
  refine ⟨by rwa [hsimple], ?_⟩
  rw [hsimple]
  rfl

/-- What is declared depends on the package and on what the scope makes of dotted names. -/
theorem inScope_congr (h : Declares declaration outline) (hwords : AreWords declaration) {scope other : NameScope}
    (hpackage : scope.package = other.package)
    (hqualify : ∀ name, isDottedName name = true → scope.qualify name = other.qualify name) :
    outline.inScope scope = outline.inScope other := by
  have hwritten := h.isWritten_plain hwords
  -- Where every name means itself, the name of a type is what was written.
  have htype : ∀ {type : Option TypeRef},
      (∀ known ∈ type.map (TypeRef.inScope (.plain "")), known.IsParsed) →
        type.map (TypeRef.inScope scope) = type.map (TypeRef.inScope other) := by
    intro type hparsed
    cases type with
    | none => rfl
    | some known =>
      have hdotted := (hparsed _ rfl).dotted
      rw [TypeRef.inScope, NameScope.typeRef, NameScope.qualify_plain] at hdotted
      exact congrArg (fun name => some (TypeRef.mk name false)) (hqualify known.name hdotted)
  have hfields : ∀ name, outline.decl.fields.map (Field.declaredIn scope name)
      = outline.decl.fields.map (Field.declaredIn other name) := by
    intro name
    refine List.map_congr_left fun field hfield => ?_
    have hsame := htype (hwritten.fields _ (List.mem_map_of_mem hfield)).type
    rw [Field.declaredIn, Field.declaredIn, Field.inScope, Field.inScope, hsame]
  have hmethods : outline.decl.methods.map (Method.inScope scope)
      = outline.decl.methods.map (Method.inScope other) := by
    refine List.map_congr_left fun method hmethod => ?_
    have hplain := hwritten.methods _ (List.mem_map_of_mem hmethod)
    have hparameters : method.parameters.map (Parameter.inScope scope)
        = method.parameters.map (Parameter.inScope other) := by
      refine List.map_congr_left fun parameter hparameter => ?_
      have hsame := htype (hplain.parameters _ (List.mem_map_of_mem hparameter)).type
      rw [Parameter.inScope, Parameter.inScope, hsame]
    rw [Method.inScope, Method.inScope, htype hplain.returnType, hparameters]
  rw [ClassOutline.inScope, ClassOutline.inScope, ClassDecl.declaredIn, ClassDecl.declaredIn, hpackage, hfields,
    hmethods]

end Declares

/-! ### Names of classes in the scope -/

theorem ClassDecl.startsClass_of_parse {whole : ClassDecl × Nat} (h : Gives (parse scope lastLine tokens) whole rest) :
    CompilationUnit.StartsClass (tokens.map Token.lexeme) := by
  obtain ⟨annotations, afterAnnotations, modifiers, classLine, name, nameLine, openLine, inside,
    hannotations, hmodifiers, _, _⟩ := gives_parse_iff.mp h
  intro first hfirst
  rcases Annotation.gives_parseAll_iff.mp hannotations with ⟨line, after, rfl, _⟩ | ⟨_, _, rfl⟩
  · exact .inl (Option.some.inj hfirst).symm
  · rcases Modifiers.eq_cons_or_noModifier afterAnnotations with ⟨modifier, line, after, rfl⟩ | hno
    · exact .inr (.inr ⟨modifier, (Option.some.inj hfirst).symm⟩)
    · obtain ⟨_, rfl⟩ := (Modifiers.gives_parse_stay_iff hno).mp hmodifiers
      exact .inr (.inl (Option.some.inj hfirst).symm)

theorem IsClassDeclaration.startsClass {declaration : List Lexeme} (h : IsClassDeclaration declaration)
    (back : List Lexeme) :
    CompilationUnit.StartsClass (declaration ++ back) := by
  obtain ⟨scope, lastLine, tokens, rfl, decl, hgives⟩ := h
  obtain ⟨middle, hparse, _⟩ := gives_skipSemicolons_iff.mp hgives
  have hstarts := ClassDecl.startsClass_of_parse hparse
  cases tokens with
  | nil => exact absurd hparse.shorter (Nat.not_lt_zero _)
  | cons token tokens => exact hstarts

theorem mem_classWords_cons_iff {name : String} {lexeme : Lexeme} {lexemes : List Lexeme}
    (h : lexeme = .word "class" → lexemes.head? ≠ some (.word name)) :
    name ∈ classWords (lexeme :: lexemes) ↔ name ∈ classWords lexemes := by
  refine ⟨fun hmem => ?_, fun hmem => mem_classWords_cons hmem lexeme⟩
  unfold classWords at hmem
  split at hmem
  · rename_i found rest heq
    cases heq
    rcases List.mem_cons.mp hmem with rfl | hrest
    · exact absurd rfl (h rfl)
    · exact hrest
  · rename_i heq
    cases heq
    exact hmem
  · cases ‹_ = []›

/-- A class starts with no name, so none follows the word `class` where a class begins. -/
theorem mem_classWords_append {name : String} (hname : isKeyword name = false) {front back : List Lexeme}
    (hback : CompilationUnit.StartsClass back) :
    name ∈ classWords (front ++ back) ↔ name ∈ classWords front ∨ name ∈ classWords back := by
  fun_induction classWords front with
  | case1 found rest ih =>
    rw [List.cons_append, List.cons_append, classWords, List.mem_cons, List.mem_cons, or_assoc]
    exact or_congr_right ih
  | case2 lexeme rest hclass ih =>
    refine (mem_classWords_cons_iff fun hlexeme hhead => ?_).trans ih
    cases rest with
    | cons second rest =>
      cases hhead
      exact hclass name rest hlexeme rfl
    | nil =>
      rcases hback _ hhead with heq | heq | ⟨modifier, heq⟩
      · cases heq
      · exact ne_of_isKeyword hname (by decide) (Lexeme.word.inj heq)
      · exact ne_of_isKeyword hname modifier.isKeyword_word (Lexeme.word.inj heq)
  | case3 => simp

theorem startsClass_flatten {declarations : List (List Lexeme)}
    (h : ∀ declaration ∈ declarations, IsClassDeclaration declaration) :
    CompilationUnit.StartsClass declarations.flatten := by
  cases declarations with
  | nil => nofun
  | cons declaration declarations => exact (h declaration List.mem_cons_self).startsClass _

theorem mem_classWords_flatten {name : String} (hname : isKeyword name = false) {declarations : List (List Lexeme)}
    (h : ∀ declaration ∈ declarations, IsClassDeclaration declaration) :
    name ∈ classWords declarations.flatten ↔ ∃ declaration ∈ declarations, name ∈ classWords declaration := by
  induction declarations with
  | nil => exact ⟨nofun, nofun⟩
  | cons declaration declarations ih =>
    have hothers := (List.forall_mem_cons.mp h).2
    rw [List.flatten_cons, mem_classWords_append hname (startsClass_flatten hothers), ih hothers,
      List.exists_mem_cons_iff]

theorem NameScope.qualify_eq_of_perm {package : String} {imports : List (String × String)} {header : List Lexeme}
    {declarations permuted : List (List Lexeme)} (h : ∀ declaration ∈ declarations, IsClassDeclaration declaration)
    (hperm : declarations.Perm permuted) {name : String} (hname : isDottedName name = true) :
    qualify ⟨package, imports, classWords (header ++ declarations.flatten)⟩ name
      = qualify ⟨package, imports, classWords (header ++ permuted.flatten)⟩ name := by
  unfold qualify
  split
  · rfl
  · rename_i hdot
    have hkeyword := isKeyword_of_isName (isName_of_isDottedName hname hdot)
    have hpermuted : ∀ declaration ∈ permuted, IsClassDeclaration declaration :=
      fun declaration hdeclaration => h declaration (hperm.mem_iff.mpr hdeclaration)
    have hmem : name ∈ classWords (header ++ declarations.flatten)
        ↔ name ∈ classWords (header ++ permuted.flatten) := by
      rw [mem_classWords_append hkeyword (startsClass_flatten h), mem_classWords_flatten hkeyword h,
        mem_classWords_append hkeyword (startsClass_flatten hpermuted), mem_classWords_flatten hkeyword hpermuted]
      simp only [hperm.mem_iff]
    simp only [List.contains_iff_mem, hmem]

namespace CompilationUnit

/-! ### Headers -/

theorem exists_front_of_name {name : String} (h : Gives (dottedName lastLine tokens) name rest) :
    ∃ front, tokens.map Token.lexeme = front ++ (dropSemicolons rest).map Token.lexeme ∧
      ∀ (lastLine : Nat) (other : List Lexeme) (others : List Token), NotNext '.' other → NotNext ';' other →
        others.map Token.lexeme = front ++ other →
          ∃ middle, Gives (dottedName lastLine others) name middle ∧
            (dropSemicolons middle).map Token.lexeme = other := by
  obtain ⟨first, front, _, hfront, hreads⟩ := exists_front_of_dottedName h
  obtain ⟨count, hcount⟩ := exists_semicolons rest
  refine ⟨.word first :: (front ++ List.replicate count (.op ';')), by simp [hfront, hcount],
    fun lastLine other others hdot hsemicolon hothers => ?_⟩
  simp only [List.cons_append, List.append_assoc] at hothers
  have hbehind : NotNext '.' (List.replicate count (.op ';') ++ other) := by
    cases count with
    | zero => exact hdot
    | succ count => exact notNext_symbol (by decide) _
  obtain ⟨middle, hgives, hmiddle⟩ := hreads lastLine _ hbehind others hothers
  exact ⟨middle, hgives, dropSemicolons_of_lexemes hsemicolon hmiddle⟩

theorem exists_front_of_parsePackage {package : String} (h : Gives (parsePackage lastLine tokens) package rest) :
    ∃ front, tokens.map Token.lexeme = front ++ rest.map Token.lexeme ∧
      ∀ lastLine other, NotNext '.' other → NotNext ';' other → other.head? ≠ some (.word "package") →
        Reads (parsePackage lastLine) (front ++ other) package other := by
  rcases gives_parsePackage_iff.mp h with ⟨line, after, rfl, middle, hname, rfl⟩ | ⟨hnone, rfl, rfl⟩
  · obtain ⟨front, hfront, hreads⟩ := exists_front_of_name hname
    refine ⟨.word "package" :: front, by simp [hfront], fun lastLine other hdot hsemicolon _ others hothers => ?_⟩
    obtain ⟨line, behind, rfl, hbehind⟩ := exists_of_map_lexeme_eq_cons hothers
    obtain ⟨middle, hgives, hmiddle⟩ := hreads lastLine other behind hdot hsemicolon hbehind
    exact ⟨_, gives_parsePackage_iff.mpr (.inl ⟨line, behind, rfl, middle, hgives, rfl⟩), hmiddle⟩
  · refine ⟨[], rfl, fun lastLine other _ _ hword others hothers => ?_⟩
    rcases eq_cons_or_word?_eq_none "package" others with ⟨line, behind, rfl⟩ | hnone
    · rw [List.nil_append] at hothers
      exact absurd (hothers ▸ rfl) hword
    · exact ⟨others, gives_parsePackage_iff.mpr (.inr ⟨hnone, rfl, rfl⟩), hothers⟩

/-- Behind an import stands the next one or the first class. -/
theorem StartsClass.notNext_of_imports {front other : List Lexeme} (h : StartsClass other)
    (hfront : front = [] ∨ ∃ back, front = .word "import" :: back) {symbol : Char} (hsymbol : symbol ≠ '@') :
    NotNext symbol (front ++ other) := by
  rcases hfront with rfl | ⟨back, rfl⟩
  · exact h.notNext hsymbol
  · exact notNext_word symbol "import" _

theorem exists_front_of_parseImports {earlier imports : List (String × String)}
    (h : Gives (parseImports lastLine earlier tokens) imports rest) :
    ∃ front, (front = [] ∨ ∃ back, front = .word "import" :: back) ∧
      tokens.map Token.lexeme = front ++ rest.map Token.lexeme ∧
      ∀ lastLine other, StartsClass other →
        Reads (parseImports lastLine earlier) (front ++ other) imports other := by
  induction hlength : tokens.length using Nat.strongRecOn generalizing tokens earlier with
  | ind length ih =>
    rcases gives_parseImports_iff.mp h with ⟨line, after, rfl, name, middle, hname, hothers⟩ | ⟨_, rfl, rfl⟩
    · have hshorter := Nat.lt_of_le_of_lt (length_dropSemicolons_le middle) hname.shorter
      simp only [List.length_cons] at hlength
      obtain ⟨forName, hnameFront, hreadsName⟩ := exists_front_of_name hname
      obtain ⟨front, hempty, hfront, hreads⟩ := ih _ (by omega) hothers rfl
      refine ⟨.word "import" :: (forName ++ front), .inr ⟨_, rfl⟩, by simp [hnameFront, hfront],
        fun lastLine other hstarts others hothers => ?_⟩
      simp only [List.cons_append, List.append_assoc] at hothers
      have hnext : ∀ symbol, symbol ≠ '@' → NotNext symbol (front ++ other) :=
        fun _ => hstarts.notNext_of_imports hempty
      obtain ⟨line, behind, rfl, hbehind⟩ := exists_of_map_lexeme_eq_cons hothers
      obtain ⟨between, hgivesName, hbetween⟩ :=
        hreadsName lastLine _ behind (hnext '.' (by decide)) (hnext ';' (by decide)) hbehind
      obtain ⟨tail, hgives, htail⟩ := hreads lastLine other hstarts _ hbetween
      exact ⟨tail, gives_parseImports_iff.mpr (.inl ⟨line, behind, rfl, name, between, hgivesName, hgives⟩),
        htail⟩
    · refine ⟨[], .inl rfl, rfl, fun lastLine other hstarts others hothers => ?_⟩
      have hnone : word? "import" others = none :=
        hstarts.word?_eq_none (by decide) (Modifier.ofWord?_eq_none_iff.mp (by decide)) hothers
      exact ⟨others, gives_parseImports_iff.mpr (.inr ⟨hnone, rfl, rfl⟩), hothers⟩

/-- In front of classes, the lexemes are read as the package and the imports. -/
def Heads (header : List Lexeme) (package : String) (imports : List (String × String)) : Prop :=
  ∀ (lastLine : Nat) (other : List Lexeme) (others : List Token), StartsClass other →
    others.map Token.lexeme = header ++ other →
      ∃ afterPackage tail, Gives (parsePackage lastLine others) package afterPackage ∧
        Gives (parseImports lastLine [] afterPackage) imports tail ∧ tail.map Token.lexeme = other

theorem exists_heads {package : String} {imports : List (String × String)} {afterPackage : List Token}
    (hpackage : Gives (parsePackage lastLine tokens) package afterPackage)
    (himports : Gives (parseImports lastLine [] afterPackage) imports rest) :
    ∃ header, Heads header package imports ∧ tokens.map Token.lexeme = header ++ rest.map Token.lexeme := by
  obtain ⟨forPackage, hpackageFront, hreadsPackage⟩ := exists_front_of_parsePackage hpackage
  obtain ⟨front, hempty, hfront, hreads⟩ := exists_front_of_parseImports himports
  refine ⟨forPackage ++ front, fun lastLine other others hstarts hothers => ?_,
    by rw [hpackageFront, hfront, List.append_assoc]⟩
  rw [List.append_assoc] at hothers
  have hnext : ∀ symbol, symbol ≠ '@' → NotNext symbol (front ++ other) :=
    fun _ => hstarts.notNext_of_imports hempty
  have hword : (front ++ other).head? ≠ some (.word "package") := by
    rcases hempty with rfl | ⟨back, rfl⟩
    · intro hhead
      rcases hstarts _ hhead with heq | heq | ⟨modifier, heq⟩
      · cases heq
      · exact absurd (Lexeme.word.inj heq) (by decide)
      · exact Modifier.ofWord?_eq_none_iff.mp (by decide) modifier (Lexeme.word.inj heq)
    · exact fun hhead => absurd (Lexeme.word.inj (Option.some.inj hhead)) (by decide)
  obtain ⟨behindPackage, hgivesPackage, hbehind⟩ :=
    hreadsPackage lastLine _ (hnext '.' (by decide)) (hnext ';' (by decide)) hword others hothers
  obtain ⟨tail, hgives, htail⟩ := hreads lastLine other hstarts behindPackage hbehind
  exact ⟨behindPackage, tail, hgivesPackage, hgives, htail⟩

theorem Heads.isHeader {header : List Lexeme} {package : String} {imports : List (String × String)}
    (h : Heads header package imports) : IsHeader header := by
  have hlexemes := lexemes_lineOf header
  obtain ⟨afterPackage, tail, hpackage, himports, htail⟩ := h 1 [] _ nofun (by rw [hlexemes, List.append_nil])
  cases List.map_eq_nil_iff.mp htail
  exact ⟨1, _, package, afterPackage, imports, hlexemes, hpackage, himports⟩

theorem IsHeader.exists_heads {header : List Lexeme} (h : IsHeader header) :
    ∃ package imports, Heads header package imports := by
  obtain ⟨lastLine, tokens, package, afterPackage, imports, rfl, hpackage, himports⟩ := h
  obtain ⟨header, hheads, htokens⟩ := CompilationUnit.exists_heads hpackage himports
  rw [List.map_nil, List.append_nil] at htokens
  exact ⟨package, imports, htokens ▸ hheads⟩

/-! ### Classes one after another -/

section Outlines

variable {declarations : List (List Lexeme)} {outline : List Lexeme → ClassOutline}

/-- Declarations are read as the classes that they declare, one after another, exactly if these have different names. -/
theorem parseClasses_flatten_iff {unit whole : CompilationUnit}
    (h : ∀ declaration ∈ declarations, Declares declaration (outline declaration) ∧ AreWords declaration)
    (hearlier : ∀ other ∈ unit.classes, other.IsNamedIn scope.package) (hdistinct : unit.classNames.Nodup)
    (htokens : tokens.map Token.lexeme = declarations.flatten) :
    let classes := declarations.map fun declaration => (outline declaration).inScope scope
    parseClasses scope lastLine unit tokens = .ok whole ↔
      (unit.classNames ++ classes.map (·.name)).Nodup ∧
        whole = { unit with classes := unit.classes ++ classes } := by
  induction declarations generalizing unit tokens with
  | nil =>
    cases List.map_eq_nil_iff.mp htokens
    rw [parseClasses_eq_ok_iff]
    simp [hdistinct]
  | cons declaration declarations ih =>
    obtain ⟨⟨hdeclares, hwords⟩, hothers⟩ := List.forall_mem_cons.mp h
    have hstarts : StartsClass declarations.flatten :=
      startsClass_flatten fun other hother => (hothers other hother).1.isClassDeclaration
    obtain ⟨line, middle, hgives, hmiddle⟩ :=
      hdeclares scope lastLine _ tokens (hstarts.notNext (by decide)) htokens
    have hnamed := hdeclares.isNamedIn hwords scope
    intro classes
    let decl : ClassDecl := (outline declaration).inScope scope
    let more : CompilationUnit := { unit with classes := unit.classes ++ [decl] }
    have hnames : more.classNames = unit.classNames ++ [decl.name] := List.map_append
    have happend : unit.classes ++ classes
        = more.classes ++ declarations.map fun declaration => (outline declaration).inScope scope :=
      List.append_cons ..
    have hclassNames : unit.classNames ++ classes.map (·.name) = more.classNames
        ++ (declarations.map fun declaration => (outline declaration).inScope scope).map (·.name) := by
      rw [hnames]
      exact List.append_cons ..
    rw [happend, hclassNames]
    by_cases hnew : decl.name ∈ unit.classNames
    · have hrepeated : ¬more.classNames.Nodup := by
        rw [hnames, List.nodup_append]
        exact fun hnodup => hnodup.2.2 _ hnew _ (List.mem_singleton_self _) rfl
      refine iff_of_false (fun hwhole => ?_) fun hwhole => hrepeated (List.nodup_append.mp hwhole.1).1
      rcases parseClasses_eq_ok_iff.mp hwhole with
        ⟨rfl, _⟩ | ⟨_, found, foundLine, foundMiddle, hfound, hnone, _⟩
      · exact Nat.not_lt_zero _ hgives.shorter
      · obtain ⟨hsame, _⟩ := hgives.unique hfound
        cases hsame
        exact name_not_mem_of_class?_eq_none hnone hnew
    · rw [parseClasses_eq_ok_iff_of_gives hgives (class?_eq_none hearlier hnamed hnew)]
      refine ih hothers ?_ ?_ hmiddle
      · exact List.forall_mem_append.mpr ⟨hearlier, List.forall_mem_singleton.mpr hnamed⟩
      · exact nodup_map_append_singleton hdistinct hnew

end Outlines

theorem exists_declarations {unit whole : CompilationUnit} (h : parseClasses scope lastLine unit tokens = .ok whole) :
    ∃ declarations : List (List Lexeme), (∀ declaration ∈ declarations, IsClassDeclaration declaration) ∧
      tokens.map Token.lexeme = declarations.flatten := by
  induction hlength : tokens.length using Nat.strongRecOn generalizing tokens unit with
  | ind length ih =>
    rcases parseClasses_eq_ok_iff.mp h with ⟨rfl, _⟩ | ⟨_, decl, line, middle, hdecl, _, hothers⟩
    · exact ⟨[], List.forall_mem_nil _, rfl⟩
    · have hshorter := Nat.lt_of_le_of_lt (length_dropSemicolons_le middle) hdecl.shorter
      obtain ⟨declaration, _, hdeclares, hfront⟩ := ClassDecl.exists_declares hdecl
      obtain ⟨declarations, hdeclarations, hrest⟩ := ih _ (hlength ▸ hshorter) hothers rfl
      refine ⟨declaration :: declarations,
        List.forall_mem_cons.mpr ⟨hdeclares.isClassDeclaration, hdeclarations⟩, ?_⟩
      rw [hfront, hrest, List.flatten_cons]

theorem exists_consistsOf {source : String} {name : Scalar} {unit : CompilationUnit}
    (h : parse source name = .ok unit) :
    ∃ header declarations, ConsistsOf source header declarations := by
  obtain ⟨list, htokenize, _, htokens⟩ := exists_tokenize_of_parse h
  obtain ⟨package, afterPackage, imports, afterImports, hpackage, himports, hclasses⟩ :=
    ofTokens_eq_ok_iff.mp htokens
  obtain ⟨header, hheads, hheader⟩ := exists_heads hpackage himports
  obtain ⟨declarations, hdeclarations, hrest⟩ := exists_declarations hclasses
  exact ⟨header, declarations, hheads.isHeader, hdeclarations, list, htokenize, by rw [hheader, hrest]⟩

theorem areWords_of_consistsOf {source : String} {header : List Lexeme} {declarations : List (List Lexeme)}
    (h : ConsistsOf source header declarations) {declaration : List Lexeme}
    (hdeclaration : declaration ∈ declarations) :
    AreWords declaration := by
  obtain ⟨list, htokenize, hlexemes⟩ := h.tokens
  intro word hword
  refine Scan.isWord_of_cut (Scan.cut_of_tokensFrom htokenize) ?_
  rw [hlexemes]
  exact List.mem_append_right _ (List.mem_flatten.mpr ⟨declaration, hdeclaration, hword⟩)

theorem parse_eq_ofTokens {source : String} {name : Scalar} {list : TokenList} (h : tokenize source = .ok list) :
    parse source name = ofTokens name list := by
  rw [parse, h]
  rfl

theorem parse_eq_ok_iff {source : String} {name : Scalar} {unit : CompilationUnit} {header : List Lexeme}
    {declarations : List (List Lexeme)} {package : String} {imports : List (String × String)}
    {outline : List Lexeme → ClassOutline} (hsource : ConsistsOf source header declarations)
    (hheader : Heads header package imports)
    (hdeclares : ∀ declaration ∈ declarations, Declares declaration (outline declaration)) :
    let scope : NameScope := ⟨package, imports, classWords (header ++ declarations.flatten)⟩
    let classes := declarations.map fun declaration => (outline declaration).inScope scope
    parse source name = .ok unit ↔
      (classes.map (·.name)).Nodup ∧ unit = { name, package := .text package, classes } := by
  intro scope classes
  obtain ⟨list, htokenize, hlexemes⟩ := hsource.tokens
  have hwords : wordsAfterClass list.tokens = scope.classNames := by rw [wordsAfterClass_eq, hlexemes]
  obtain ⟨afterPackage, tail, hpackage, himports, htail⟩ :=
    hheader list.lastLine _ list.tokens (startsClass_flatten hsource.areDeclarations) hlexemes
  let empty : CompilationUnit := { name, package := .text package }
  have hearlier : ∀ other ∈ empty.classes, other.IsNamedIn scope.package := List.forall_mem_nil _
  have hclasses : parseClasses scope list.lastLine empty tail = .ok unit ↔ _ :=
    parseClasses_flatten_iff
      (fun declaration hdeclaration =>
        ⟨hdeclares declaration hdeclaration, areWords_of_consistsOf hsource hdeclaration⟩)
      hearlier List.nodup_nil htail
  rw [parse_eq_ofTokens htokenize, ofTokens_eq_ok_iff]
  refine Iff.trans ⟨?_, fun hwhole => ?_⟩ hclasses
  · rintro ⟨_, _, _, _, hfound, hmore, hwhole⟩
    obtain ⟨rfl, rfl⟩ := hpackage.unique hfound
    obtain ⟨rfl, rfl⟩ := himports.unique hmore
    rwa [hwords] at hwhole
  · refine ⟨package, afterPackage, imports, tail, hpackage, himports, ?_⟩
    rwa [hwords]

/-- The declarations of an accepted source may stand in any order: the source is accepted again, and each declaration is read as the same class. -/
theorem classes_in_any_order {source : String} {name : Scalar} {unit : CompilationUnit}
    (h : parse source name = .ok unit) :
    (∃ header declarations, ConsistsOf source header declarations) ∧
      ∀ header declarations, ConsistsOf source header declarations →
        ∃ read : List Lexeme → ClassDecl, unit.classes = declarations.map read ∧
          ∀ permuted other, declarations.Perm permuted → ConsistsOf other header permuted →
            parse other name = .ok { unit with classes := permuted.map read } := by
  refine ⟨exists_consistsOf h, fun header declarations hsource => ?_⟩
  obtain ⟨package, imports, hheader⟩ := hsource.isHeader.exists_heads
  choose! outline hdeclares using
    fun declaration hdeclaration => (hsource.areDeclarations declaration hdeclaration).exists_declares
  obtain ⟨hdistinct, rfl⟩ := (parse_eq_ok_iff hsource hheader hdeclares).mp h
  refine ⟨_, rfl, fun permuted other hperm hother => ?_⟩
  have hpermuted : ∀ declaration ∈ permuted, Declares declaration (outline declaration) :=
    fun declaration hdeclaration => hdeclares declaration (hperm.mem_iff.mpr hdeclaration)
  let scope : NameScope := ⟨package, imports, classWords (header ++ declarations.flatten)⟩
  let otherScope : NameScope := ⟨package, imports, classWords (header ++ permuted.flatten)⟩
  have hsame : permuted.map (fun declaration => (outline declaration).inScope scope)
      = permuted.map fun declaration => (outline declaration).inScope otherScope :=
    List.map_congr_left fun declaration hdeclaration =>
      (hpermuted declaration hdeclaration).inScope_congr (areWords_of_consistsOf hother hdeclaration) rfl
        fun _ hname => NameScope.qualify_eq_of_perm hsource.areDeclarations hperm hname
  refine (parse_eq_ok_iff hother hheader hpermuted).mpr ⟨?_, ?_⟩
  · rw [← hsame]
    exact ((hperm.map _).map _).nodup_iff.mp hdistinct
  · rw [← hsame]

/-! Two classes that refer to each other. -/

def pairHeader : List Lexeme := [.word "package", .word "p", .word "import", .word "q", .op '.', .word "C", .op ';']

/-- The class `A` has a field whose type the unit declares behind it, and one whose type is imported. -/
def firstLexemes : List Lexeme :=
  [.word "class", .word "A", .op '\x7b', .word "B", .word "b", .word "C", .word "c", .op '\x7d']

/-- The class `B` is marked, and a semicolon follows it. -/
def secondLexemes : List Lexeme :=
  [.op '@', .word "M", .word "class", .word "B", .op '\x7b', .word "def", .word "f", .op '(', .word "A", .word "a",
    .op ')', .op '\x7b', .word "a", .op '.', .word "g", .op '\x7d', .op '\x7d', .op ';']

def firstClass : ClassDecl :=
  let b : Field := { name := "b", type := some ⟨"p.B", false⟩, owner := "p.A" }
  let c : Field := { name := "c", type := some ⟨"q.C", false⟩, owner := "p.A" }
  { name := "p.A", fields := [b, c] }

def secondClass : ClassDecl :=
  let parameter : Parameter := { name := "a", type := some ⟨"p.A", false⟩ }
  let method : Method := { name := "f", parameters := [parameter], body := [⟨false, .property (.var "a") "g"⟩] }
  { name := "p.B", annotations := [⟨"M", []⟩], methods := [method] }

def pairUnit (classes : List ClassDecl) : CompilationUnit :=
  { name := .text defaultName, package := .text "p", classes }

def pairSource : String := "package p import q.C; class A { B b C c } @M class B { def f(A a) { a.g } };"

def swappedSource : String := "package p import q.C; @M class B { def f(A a) { a.g } }; class A { B b C c }"

theorem tokenize_pairSource :
    tokenize pairSource = .ok ⟨lineOf (pairHeader ++ [firstLexemes, secondLexemes].flatten), 1⟩ := by
  decide +kernel

theorem tokenize_swappedSource :
    tokenize swappedSource = .ok ⟨lineOf (pairHeader ++ [secondLexemes, firstLexemes].flatten), 1⟩ := by
  decide +kernel

theorem parse_pairSource : parse pairSource = .ok (pairUnit [firstClass, secondClass]) := by
  decide +kernel

theorem pair_is_read_in_both_orders :
    parse pairSource = .ok (pairUnit [firstClass, secondClass]) ∧
      ConsistsOf pairSource pairHeader [firstLexemes, secondLexemes] ∧
      ConsistsOf swappedSource pairHeader [secondLexemes, firstLexemes] ∧
      parse swappedSource = .ok (pairUnit [secondClass, firstClass]) := by
  have hheader : IsHeader pairHeader :=
    ⟨1, _, "p", lineOf (pairHeader.drop 2), [("C", "q.C")], lexemes_lineOf _, by decide +kernel, by decide +kernel⟩
  have hfirst : IsClassDeclaration firstLexemes := ⟨.plain "", 1, _, lexemes_lineOf _, by decide +kernel⟩
  have hsecond : IsClassDeclaration secondLexemes := ⟨.plain "", 1, _, lexemes_lineOf _, by decide +kernel⟩
  have hsource : ConsistsOf pairSource pairHeader [firstLexemes, secondLexemes] :=
    ⟨hheader, by simp [hfirst, hsecond], _, tokenize_pairSource, lexemes_lineOf _⟩
  have hswapped : ConsistsOf swappedSource pairHeader [secondLexemes, firstLexemes] :=
    ⟨hheader, by simp [hfirst, hsecond], _, tokenize_swappedSource, lexemes_lineOf _⟩
  obtain ⟨read, hread, hpermuted⟩ := (classes_in_any_order parse_pairSource).2 _ _ hsource
  have hwhole := hpermuted _ swappedSource (List.Perm.swap _ _ _) hswapped
  obtain ⟨hfirstClass, hsecondClass⟩ := List.cons.inj hread
  rw [List.map_cons, List.map_cons, ← hfirstClass, ← (List.cons.inj hsecondClass).1] at hwhole
  exact ⟨parse_pairSource, hsource, hswapped, hwhole⟩

end CompilationUnit

end GuardedLogging
