import GuardedLogging.Proofs.CompilationUnit.Units
import GuardedLogging.Proofs.Expr.Continuation

/-!
# Statements that are read as one

A statement that starts with a parenthesis goes on with the statement in front of it if that ends in the name of a member. So a unit with such statements has the same text as another unit, in which they are one, and it is the other unit that is read. Where the statement in front ends in a variable, nothing is read.
-/

namespace GuardedLogging

open Cursor

variable {scope : NameScope} {localTypes : List String} {lastLine : Nat} {tokens rest : List Token}

namespace Statement

variable {statement first second : Statement} {body : List Statement}

/-- The first statement ends in the name of a member, and the second starts with a parenthesis, so that they are read as one. -/
def JoinsWith (localTypes : List String) (first second : Statement) : Prop :=
  (first.expr.reread localTypes).endsInMember = true ∧ second.OpensParenthesis localTypes

instance (first second : Statement) : Decidable (first.JoinsWith localTypes second) :=
  inferInstanceAs (Decidable ((first.expr.reread localTypes).endsInMember = true ∧
    second.OpensParenthesis localTypes))

/-- The statement that the two are read as. -/
def join (localTypes : List String) (first second : Statement) : Statement :=
  { first with expr := first.expr.continuedBy localTypes second.expr }

theorem OpensParenthesis.lexemes_eq (h : second.OpensParenthesis localTypes) :
    second.lexemes localTypes = second.expr.lexemes localTypes := by
  unfold OpensParenthesis lexemes at h
  unfold lexemes
  split at h
  · cases h
  · rename_i hreturns
    exact if_neg hreturns

theorem lexemes_join (hfirst : first.expr.IsWritten localTypes) (hsecond : second.expr.IsWritten localTypes)
    (h : first.JoinsWith localTypes second) :
    (first.join localTypes second).lexemes localTypes
      = first.lexemes localTypes ++ second.lexemes localTypes := by
  have hopen : (second.expr.lexemes localTypes).head? = some (.op '(') := h.2.lexemes_eq ▸ h.2
  have hexpr := Expr.lexemes_continuedBy hfirst h.1 hsecond hopen
  rw [h.2.lexemes_eq]
  unfold join lexemes
  dsimp only
  rw [hexpr]
  split
  · rfl
  · rfl

theorem joinsWith_join_iff (h : first.JoinsWith localTypes second) (third : Statement) :
    (first.join localTypes second).JoinsWith localTypes third ↔ second.JoinsWith localTypes third :=
  and_congr_left fun _ => by rw [join, (Expr.endsLike_continuedBy h.1).1]

/-- The statement in front of a body that is read already. -/
def prependTo (localTypes : List String) (first : Statement) : List Statement → List Statement
  | [] => [first]
  | second :: body =>
    if first.JoinsWith localTypes second then first.join localTypes second :: body
    else first :: second :: body

/-- The statements that a written body is read as. -/
def joinAll (localTypes : List String) (body : List Statement) : List Statement :=
  body.foldr (prependTo localTypes) []

theorem isWritten_prependTo (h : ∀ statement ∈ first :: body, statement.expr.IsWritten localTypes) :
    ∀ statement ∈ first.prependTo localTypes body, statement.expr.IsWritten localTypes := by
  cases body with
  | nil => exact h
  | cons second body =>
    rw [prependTo]
    split
    · obtain ⟨hfirst, hbody⟩ := List.forall_mem_cons.mp h
      obtain ⟨hsecond, hothers⟩ := List.forall_mem_cons.mp hbody
      exact List.forall_mem_cons.mpr ⟨Expr.isWritten_continuedBy hfirst hsecond, hothers⟩
    · exact h

theorem lexemes_prependTo (h : ∀ statement ∈ first :: body, statement.expr.IsWritten localTypes) :
    (first.prependTo localTypes body).flatMap (lexemes localTypes)
      = (first :: body).flatMap (lexemes localTypes) := by
  cases body with
  | nil => rfl
  | cons second body =>
    obtain ⟨hfirst, hbody⟩ := List.forall_mem_cons.mp h
    rw [prependTo]
    split
    · rename_i hjoins
      rw [List.flatMap_cons, lexemes_join hfirst (hbody second List.mem_cons_self) hjoins, List.flatMap_cons,
        List.flatMap_cons, List.append_assoc]
    · rfl

theorem isChain_prependTo (h : body.IsChain fun first second => ¬first.JoinsWith localTypes second) :
    (first.prependTo localTypes body).IsChain fun first second => ¬first.JoinsWith localTypes second := by
  cases body with
  | nil => exact .singleton first
  | cons second body =>
    rw [prependTo]
    split
    · rename_i hjoins
      obtain ⟨hsecond, hbody⟩ := List.isChain_cons.mp h
      exact List.isChain_cons.mpr
        ⟨fun third hthird => (joinsWith_join_iff hjoins third).not.mpr (hsecond third hthird), hbody⟩
    · rename_i hjoins
      exact List.isChain_cons_cons.mpr ⟨hjoins, h⟩

theorem length_prependTo_le (first : Statement) (body : List Statement) :
    (first.prependTo localTypes body).length ≤ body.length + 1 := by
  cases body with
  | nil => exact Nat.le_refl _
  | cons second body =>
    rw [prependTo]
    split
    · exact Nat.le_succ _
    · exact Nat.le_refl _

theorem isWritten_joinAll (h : ∀ statement ∈ body, statement.expr.IsWritten localTypes) :
    ∀ statement ∈ joinAll localTypes body, statement.expr.IsWritten localTypes := by
  induction body with
  | nil => exact h
  | cons first body ih =>
    obtain ⟨hfirst, hbody⟩ := List.forall_mem_cons.mp h
    exact isWritten_prependTo (List.forall_mem_cons.mpr ⟨hfirst, ih hbody⟩)

theorem lexemes_joinAll (h : ∀ statement ∈ body, statement.expr.IsWritten localTypes) :
    (joinAll localTypes body).flatMap (lexemes localTypes) = body.flatMap (lexemes localTypes) := by
  induction body with
  | nil => rfl
  | cons first body ih =>
    obtain ⟨hfirst, hbody⟩ := List.forall_mem_cons.mp h
    have hwhole : joinAll localTypes (first :: body) = first.prependTo localTypes (joinAll localTypes body) :=
      rfl
    rw [hwhole, lexemes_prependTo (List.forall_mem_cons.mpr ⟨hfirst, isWritten_joinAll hbody⟩),
      List.flatMap_cons, ih hbody, List.flatMap_cons]

theorem isChain_joinAll (body : List Statement) :
    (joinAll localTypes body).IsChain fun first second => ¬first.JoinsWith localTypes second := by
  induction body with
  | nil => exact .nil
  | cons first body ih => exact isChain_prependTo ih

theorem joinAll_eq_self (h : body.IsChain fun first second => ¬first.JoinsWith localTypes second) :
    joinAll localTypes body = body := by
  induction body with
  | nil => rfl
  | cons first body ih =>
    obtain ⟨hfirst, hbody⟩ := List.isChain_cons.mp h
    show first.prependTo localTypes (joinAll localTypes body) = first :: body
    rw [ih hbody]
    cases body with
    | nil => rfl
    | cons second body => exact if_neg (hfirst second rfl)

theorem length_joinAll_lt (h : ¬body.IsChain fun first second => ¬first.JoinsWith localTypes second) :
    (joinAll localTypes body).length < body.length := by
  induction body with
  | nil => exact absurd .nil h
  | cons first body ih =>
    show (first.prependTo localTypes (joinAll localTypes body)).length < body.length + 1
    by_cases hbody : body.IsChain fun first second => ¬first.JoinsWith localTypes second
    · rw [joinAll_eq_self hbody]
      cases body with
      | nil => exact absurd (.singleton first) h
      | cons second body =>
        have hjoins : first.JoinsWith localTypes second := by
          by_contra hjoins
          exact h (List.isChain_cons_cons.mpr ⟨hjoins, hbody⟩)
        rw [prependTo, if_pos hjoins]
        exact Nat.lt_succ_self _
    · exact Nat.lt_of_le_of_lt (length_prependTo_le _ _) (Nat.succ_lt_succ (ih hbody))

/-- The statements of a body keep their number and their kinds if and only if none of them join. -/
theorem map_returns_joinAll_iff :
    (joinAll localTypes body).map (·.returns) = body.map (·.returns) ↔
      body.IsChain fun first second => ¬first.JoinsWith localTypes second := by
  constructor
  · intro hsame
    by_contra hjoins
    have hlength := congrArg List.length hsame
    rw [List.length_map, List.length_map] at hlength
    exact absurd (length_joinAll_lt hjoins) (hlength ▸ Nat.lt_irrefl _)
  · intro h
    rw [joinAll_eq_self h]

/-! ### No receiver -/

theorem endsInVariable_of_runsInto (hruns : first.RunsInto localTypes second)
    (hjoins : ¬first.JoinsWith localTypes second) :
    (first.expr.reread localTypes).endsInVariable = true := by
  have hname := hruns.1
  rw [Expr.endsInName_eq] at hname
  exact (Bool.or_eq_true_iff.mp hname).resolve_left fun hmember => hjoins ⟨hmember, hruns.2⟩

theorem refuses_parse (h : statement.expr.IsWritten localTypes)
    (hend : (statement.expr.reread localTypes).endsInVariable = true) (after : List Lexeme) :
    Refuses (parse lastLine) (statement.lexemes localTypes ++ .op '(' :: after) := by
  have hexpr : Refuses (Expr.parseTernary lastLine) (statement.expr.lexemes localTypes ++ .op '(' :: after) :=
    (Expr.refuses_lexemes h hend after).1
  intro tokens htokens value rest hgives
  obtain ⟨middle, hparse, _⟩ := gives_parse_iff.mp hgives
  unfold lexemes at htokens
  split at htokens
  · obtain ⟨line, inside, rfl, hinside⟩ := exists_of_map_lexeme_eq_cons htokens
    rcases gives_parseExpr_iff.mp hparse with ⟨_, _, hcons, expr, hfound, _⟩ | ⟨hnone, _⟩
    · cases hcons
      exact hexpr _ hinside _ _ hfound
    · rw [word?_cons] at hnone
      cases hnone
  · rcases gives_parseExpr_iff.mp hparse with ⟨_, _, rfl, _⟩ | ⟨_, expr, hfound, _⟩
    · have hnone := word?_return_eq_none h htokens
      rw [word?_cons] at hnone
      cases hnone
    · exact hexpr _ htokens _ _ hfound

theorem refuses_parseBody {methodName : String}
    (h : ∀ statement ∈ body, statement.expr.IsWritten localTypes)
    (hjoins : body.IsChain fun first second => ¬first.JoinsWith localTypes second)
    (hruns : ¬body.IsChain fun first second => ¬first.RunsInto localTypes second) (after : List Lexeme) :
    Refuses (parseBody lastLine methodName) (body.flatMap (lexemes localTypes) ++ .op '\x7d' :: after) := by
  induction body with
  | nil => exact absurd .nil hruns
  | cons first body ih =>
    intro tokens htokens value rest hgives
    obtain ⟨hfirst, hbody⟩ := List.forall_mem_cons.mp h
    obtain ⟨hnext, hothers⟩ := List.isChain_cons.mp hjoins
    by_cases hhead : ∀ second ∈ body.head?, ¬first.RunsInto localTypes second
    · obtain ⟨middle, hmiddle, hiff⟩ := gives_parseBody_cons_iff h hhead htokens
      obtain ⟨others, hmore, _⟩ := (hiff value rest).mp hgives
      refine ih hbody hothers (fun happart => hruns ?_) middle hmiddle others rest hmore
      exact List.isChain_cons.mpr ⟨hhead, happart⟩
    · obtain ⟨second, hhead⟩ := not_forall.mp hhead
      obtain ⟨hsecond, hinto⟩ := Classical.not_imp.mp hhead
      obtain ⟨others, rfl⟩ := List.head?_eq_some_iff.mp hsecond
      have hinto := not_not.mp hinto
      have hvariable := endsInVariable_of_runsInto hinto (hnext second hsecond)
      obtain ⟨after', hlexemes⟩ := List.head?_eq_some_iff.mp hinto.2
      rw [List.flatMap_cons, List.append_assoc, List.flatMap_cons, hlexemes, List.cons_append,
        List.cons_append] at htokens
      rcases gives_parseBody_iff.mp hgives with ⟨_, rfl, _⟩ | ⟨_, _, _, _, _, hparse, _⟩
      · exact absurd (congrArg List.head? htokens.symm) (notNext_lexemes hfirst (by decide) (by decide) _)
      · exact refuses_parse hfirst hvariable _ tokens htokens _ _ hparse

end Statement

namespace Method

variable {method : Method}

/-- No two statements of the method are read as one. -/
def JoinsNone (localTypes : List String) (method : Method) : Prop :=
  method.body.IsChain fun first second => ¬first.JoinsWith localTypes second

instance (method : Method) : Decidable (method.JoinsNone localTypes) :=
  inferInstanceAs (Decidable (method.body.IsChain fun first second => ¬first.JoinsWith localTypes second))

/-- The method with the statements that its body is read as. -/
def joined (localTypes : List String) (method : Method) : Method :=
  { method with body := Statement.joinAll localTypes method.body }

theorem IsWritten.joined {types : TypeRef → Prop} (h : method.IsWritten types (Expr.IsWritten localTypes)) :
    (method.joined localTypes).IsWritten types (Expr.IsWritten localTypes) :=
  { h with body := Statement.isWritten_joinAll h.body }

theorem lexemes_joined {types : TypeRef → Prop} (h : method.IsWritten types (Expr.IsWritten localTypes)) :
    (method.joined localTypes).lexemes localTypes = method.lexemes localTypes := by
  have hbody := Statement.lexemes_joinAll h.body
  rw [lexemes, lexemes, tailLexemes, tailLexemes, joined]
  dsimp only
  rw [hbody]

theorem refuses_parse {className : String} {fields : List Field}
    (h : method.IsWritten (TypeRef.IsSaid localTypes) (Expr.IsWritten localTypes))
    (hjoins : method.JoinsNone localTypes) (hruns : ¬method.KeepsApart localTypes) (after : List Lexeme) :
    Refuses (Member.parse scope lastLine className fields) (method.lexemes localTypes ++ after) := by
  intro tokens htokens value rest hgives
  obtain ⟨inside, hinside, hiff⟩ := Member.gives_method_iff h htokens
  obtain ⟨body, hbody, _⟩ := (hiff value rest).mp hgives
  exact Statement.refuses_parseBody h.body hjoins hruns after inside hinside body rest hbody

end Method

namespace ClassDecl

variable {decl : ClassDecl}

/-- No two statements in the class are read as one. -/
def JoinsNone (localTypes : List String) (decl : ClassDecl) : Prop :=
  ∀ method ∈ decl.methods, method.JoinsNone localTypes

instance (decl : ClassDecl) : Decidable (decl.JoinsNone localTypes) :=
  inferInstanceAs (Decidable (∀ method ∈ decl.methods, method.JoinsNone localTypes))

/-- The class with the statements that the bodies of its methods are read as. -/
def joined (localTypes : List String) (decl : ClassDecl) : ClassDecl :=
  { decl with methods := decl.methods.map (Method.joined localTypes) }

theorem IsWritten.joined {package : String} {types : TypeRef → Prop}
    (h : decl.IsWritten package types (Expr.IsWritten localTypes)) :
    (decl.joined localTypes).IsWritten package types (Expr.IsWritten localTypes) :=
  { h with methods := List.forall_mem_map.mpr fun method hmethod => (h.methods method hmethod).joined }

theorem lexemes_joined {package : String} {types : TypeRef → Prop}
    (h : decl.IsWritten package types (Expr.IsWritten localTypes)) :
    (decl.joined localTypes).lexemes localTypes = decl.lexemes localTypes := by
  have hmethods : (decl.methods.map (Method.joined localTypes)).flatMap (Method.lexemes localTypes)
      = decl.methods.flatMap (Method.lexemes localTypes) := by
    rw [List.flatMap_map]
    exact List.flatMap_congr fun method hmethod => Method.lexemes_joined (h.methods method hmethod)
  rw [lexemes_eq, lexemes_eq, memberLexemes, memberLexemes, joined]
  dsimp only
  rw [hmethods]
  rfl

theorem joinsNone_joined (decl : ClassDecl) : (decl.joined localTypes).JoinsNone localTypes :=
  List.forall_mem_map.mpr fun method _ => Statement.isChain_joinAll method.body

theorem refuses_parse
    (h : decl.IsWritten scope.package (TypeRef.IsSaid localTypes) (Expr.IsWritten localTypes))
    (hjoins : decl.JoinsNone localTypes) (hruns : ¬∀ method ∈ decl.methods, method.KeepsApart localTypes)
    (after : List Lexeme) :
    Refuses (parse scope lastLine) (decl.lexemes localTypes ++ after) := by
  intro tokens htokens value rest hgives
  rcases forall_mem_or_exists_first fun method (_ : method ∈ decl.methods) =>
    Classical.em (method.KeepsApart localTypes) with hall | ⟨earlier, method, later, hsplit, hearlier, hmethod⟩
  · exact hruns hall
  · have hmem : method ∈ decl.methods := by
      rw [hsplit]
      exact List.mem_append_right _ List.mem_cons_self
    have hwritten := h.methods method hmem
    rw [lexemes_eq, memberLexemes, hsplit, List.flatMap_append, List.flatMap_cons] at htokens
    simp only [List.append_assoc] at htokens
    have hfollows : Member.Follows (method.lexemes localTypes
        ++ (later.flatMap (Method.lexemes localTypes) ++ ([.op '\x7d'] ++ after))) := by
      rw [Method.lexemes, List.append_assoc]
      exact .head hwritten.returnType _
    obtain ⟨middle, hmiddle, hiff⟩ := gives_parse_iff_of_lexemes h
      (fun other hother => h.methods other (hsplit ▸ List.mem_append_left _ hother)) hearlier hfollows htokens
    rcases gives_parseMembers_iff.mp ((hiff value rest).mp hgives) with ⟨_, rfl, _⟩ |
      ⟨_, _, _, _, hmember, _⟩
    · rw [Method.lexemes, List.append_assoc] at hmiddle
      exact absurd (congrArg List.head? hmiddle.symm) (notNext_headLexemes hwritten.returnType '\x7d' _)
    · exact Method.refuses_parse hwritten (hjoins method hmem) hmethod _ middle hmiddle _ _ hmember

end ClassDecl

namespace CompilationUnit

variable {unit whole : CompilationUnit} {name : Scalar} {package : String} {decls : List ClassDecl}
  {list : TokenList} {after : List Lexeme}

/-- No two statements in the unit are read as one. -/
def JoinsNone (unit : CompilationUnit) : Prop := ∀ decl ∈ unit.classes, decl.JoinsNone unit.classNames

instance (unit : CompilationUnit) : Decidable unit.JoinsNone :=
  inferInstanceAs (Decidable (∀ decl ∈ unit.classes, decl.JoinsNone unit.classNames))

/-- The unit with the statements that the bodies of its methods are read as. -/
def joined (unit : CompilationUnit) : CompilationUnit :=
  { unit with classes := unit.classes.map (ClassDecl.joined unit.classNames) }

theorem classNames_joined (unit : CompilationUnit) : unit.joined.classNames = unit.classNames := by
  rw [classNames, joined, List.map_map]
  rfl

theorem IsWritten.joined {types : TypeRef → Prop} (h : unit.IsWritten types (Expr.IsWritten unit.classNames)) :
    unit.joined.IsWritten types (Expr.IsWritten unit.classNames) :=
  { text := h.text
    package := h.package
    classes := List.forall_mem_map.mpr fun decl hdecl => (h.classes decl hdecl).joined
    distinct := unit.classNames_joined.symm ▸ h.distinct }

theorem flatMap_lexemes_joined {types : TypeRef → Prop}
    (h : ∀ decl ∈ decls, decl.IsWritten package types (Expr.IsWritten localTypes)) :
    (decls.map (ClassDecl.joined localTypes)).flatMap (ClassDecl.lexemes localTypes)
      = decls.flatMap (ClassDecl.lexemes localTypes) := by
  rw [List.flatMap_map]
  exact List.flatMap_congr fun decl hdecl => ClassDecl.lexemes_joined (h decl hdecl)

theorem ofTokens_ne_ok (hpackage : package = "" ∨ isDottedName package = true)
    (h : ∀ decl ∈ decls, decl.IsWritten package (TypeRef.IsSaid localTypes) (Expr.IsWritten localTypes))
    (hapart : ∀ decl ∈ decls, ∀ method ∈ decl.methods, method.KeepsApart localTypes)
    (hdistinct : (decls.map (·.name)).Nodup) (hafter : StartsClass after) (hne : after ≠ [])
    (hrefuses : ∀ scope : NameScope, scope.package = package →
      Refuses (ClassDecl.parse scope list.lastLine) after)
    (htokens : list.tokens.map Token.lexeme
      = packageLexemes package ++ (decls.flatMap (ClassDecl.lexemes localTypes) ++ after)) :
    ofTokens name list ≠ .ok whole := by
  intro hread
  obtain ⟨rest, hrest, hwhole⟩ :=
    ofTokens_eq_ok_iff_of_lexemes hpackage h hapart hdistinct hafter htokens
  rcases parseClasses_eq_ok_iff.mp ((hwhole whole).mp hread) with ⟨rfl, _⟩ | ⟨_, _, _, _, hgives, _⟩
  · exact hne hrest.symm
  · exact hrefuses _ rfl rest hrest _ _ hgives

theorem keepsApart_of_ofTokens (hpackage : package = "" ∨ isDottedName package = true)
    (h : ∀ decl ∈ decls, decl.IsWritten package (TypeRef.IsSaid localTypes) (Expr.IsWritten localTypes))
    (hjoins : ∀ decl ∈ decls, decl.JoinsNone localTypes)
    (hdistinct : (decls.map (·.name)).Nodup) (htokens : list.tokens.map Token.lexeme
      = packageLexemes package ++ (decls.flatMap (ClassDecl.lexemes localTypes) ++ after))
    (hread : ofTokens name list = .ok whole) :
    ∀ decl ∈ decls, ∀ method ∈ decl.methods, method.KeepsApart localTypes := by
  rcases forall_mem_or_exists_first fun decl (_ : decl ∈ decls) =>
    Classical.em (∀ method ∈ decl.methods, method.KeepsApart localTypes) with
    hall | ⟨earlier, decl, later, rfl, hearlier, hruns⟩
  · exact hall
  · obtain ⟨hwritten, hothers⟩ := List.forall_mem_append.mp h
    obtain ⟨hdecl, _⟩ := List.forall_mem_cons.mp hothers
    have hjoin := hjoins decl (List.mem_append_right _ List.mem_cons_self)
    rw [List.map_append] at hdistinct
    rw [List.flatMap_append, List.append_assoc, List.flatMap_cons, List.append_assoc] at htokens
    have hstarts : StartsClass (decl.lexemes localTypes
        ++ (later.flatMap (ClassDecl.lexemes localTypes) ++ after)) := by
      rw [ClassDecl.lexemes_eq, List.append_assoc]
      exact startsClass_openingLexemes decl _
    refine absurd hread (ofTokens_ne_ok hpackage hwritten hearlier hdistinct.of_append_left hstarts ?_ ?_ htokens)
    · simp [ClassDecl.lexemes]
    · rintro scope rfl
      exact ClassDecl.refuses_parse hdecl hjoin hruns _

theorem lexemes_joined {types : TypeRef → Prop} (h : unit.IsWritten types (Expr.IsWritten unit.classNames)) :
    unit.joined.lexemes = unit.lexemes := by
  rw [lexemes, lexemes, classNames_joined]
  exact congrArg (packageLexemes unit.packageName ++ ·) (flatMap_lexemes_joined h.classes)

/-- From the lexemes of a unit, the unit with the joined statements is read, unless one of them still runs into the next. -/
theorem ofTokens_eq_reread_joined
    (h : unit.IsWritten (TypeRef.IsSaid unit.classNames) (Expr.IsWritten unit.classNames))
    (hapart : ∀ decl ∈ unit.joined.classes, ∀ method ∈ decl.methods, method.KeepsApart unit.classNames)
    (hlexemes : list.tokens.map Token.lexeme = unit.lexemes) :
    ofTokens unit.name list
      = .ok (unit.joined.reread ⟨unit.packageName, [], wordsAfterClass list.tokens⟩) := by
  have hjoined := h.joined
  rw [← classNames_joined] at hjoined hapart
  exact ofTokens_of_lexemes hjoined hapart (hlexemes.trans (lexemes_joined h).symm)

theorem keepsApart_joined_of_ofTokens
    (h : unit.IsWritten (TypeRef.IsSaid unit.classNames) (Expr.IsWritten unit.classNames))
    (hlexemes : list.tokens.map Token.lexeme = unit.lexemes) (hread : ofTokens unit.name list = .ok whole) :
    ∀ decl ∈ unit.joined.classes, ∀ method ∈ decl.methods, method.KeepsApart unit.classNames := by
  have hjoins : ∀ decl ∈ unit.joined.classes, decl.JoinsNone unit.classNames :=
    List.forall_mem_map.mpr fun decl _ => decl.joinsNone_joined
  have htokens : list.tokens.map Token.lexeme = packageLexemes unit.packageName
      ++ (unit.joined.classes.flatMap (ClassDecl.lexemes unit.classNames) ++ []) := by
    rw [hlexemes, ← lexemes_joined h, lexemes, classNames_joined, List.append_nil]
    rfl
  exact keepsApart_of_ofTokens h.package h.joined.classes hjoins h.joined.distinct htokens hread

theorem eq_reread_joined
    (h : unit.IsWritten (TypeRef.IsSaid unit.classNames) (Expr.IsWritten unit.classNames))
    (hlexemes : list.tokens.map Token.lexeme = unit.lexemes) (hread : ofTokens unit.name list = .ok whole) :
    whole = unit.joined.reread ⟨unit.packageName, [], wordsAfterClass list.tokens⟩ := by
  have hapart := keepsApart_joined_of_ofTokens h hlexemes hread
  exact Except.ok.inj (hread.symm.trans (ofTokens_eq_reread_joined h hapart hlexemes))

end CompilationUnit

end GuardedLogging
