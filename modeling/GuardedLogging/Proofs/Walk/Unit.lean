import GuardedLogging.Proofs.CompilationUnit.ClassWords
import GuardedLogging.Proofs.Walk.Declarations

/-!
# Walks through classes and units

The walks beside the readers of classes, imports and whole sources. The reader of a class also tells the line of its closing brace; the walk needs no line for that, since the brace is the lexeme in front of its position. So a class that is declared twice is refused there.
-/

namespace GuardedLogging

open Cursor

namespace Lexemes

section Walks

variable (lexemes : Lexemes)

/-- The members of a class and its closing brace. -/
def classMembers (lexemes : Lexemes) (scope : NameScope) (simpleName : String) (decl : ClassDecl) (position : Nat) :
    Walk (ClassDecl × Nat) := do
  if ← meets lexemes (.op '\x7d') position then return (decl, position + 1)
  else if (← look lexemes position).isNone then refuse lexemes position (.unclosedClass simpleName)
  else
    let (member, position) ← pastSemicolons lexemes (member lexemes scope decl.name decl.fields position)
    lexemes |>.classMembers scope simpleName (decl.appendMember member) position
partial_fixpoint

def classDecl (scope : NameScope) (position : Nat) : Walk (ClassDecl × Nat) := do
  let (annotations, position) ← annotations lexemes position
  let (modifiers, position) ← modifiers lexemes .none position
  if ← meets lexemes (.word "class") position then
    let (name, position) ← identifier lexemes (position + 1)
    let position ← symbol lexemes '\x7b' position
    let position ← skipSemicolons lexemes position
    classMembers lexemes scope name { name := qualify scope.package name, annotations, modifiers } position
  else refuse lexemes position (.expectedClass (shown (← look lexemes position)))

def imports (lexemes : Lexemes) (earlier : List (String × String)) (position : Nat) : Walk (List (String × String) × Nat) := do
  if ← meets lexemes (.word "import") position then
    let (name, position) ← pastSemicolons lexemes (dottedName lexemes (position + 1))
    lexemes |>.imports ((lastPart name, name) :: earlier) position
  else return (earlier, position)
partial_fixpoint

def package (position : Nat) : Walk (String × Nat) := do
  if ← meets lexemes (.word "package") position then
    pastSemicolons lexemes (dottedName lexemes (position + 1))
  else return ("", position)

/-- The words behind the word `class`, from a position on. -/
def classNames (lexemes : Lexemes) (position : Nat) : Walk (List String) := do
  match ← look lexemes position with
  | none => return []
  | some lexeme =>
    let others ← lexemes |>.classNames (position + 1)
    if lexeme = .word "class" then
      match ← look lexemes (position + 1) with
      | some (.word name) => return name :: others
      | _ => return others
    else return others
partial_fixpoint

/-- All classes up to the end of the source. -/
def classes (lexemes : Lexemes) (scope : NameScope) (unit : CompilationUnit) (position : Nat) : Walk CompilationUnit := do
  if (← look lexemes position).isNone then return unit
  else
    let (decl, position) ← classDecl lexemes scope position
    if (unit.class? decl.name).isSome then refuse lexemes (position - 1) (.duplicateClass decl.name)
    else
      let position ← skipSemicolons lexemes position
      lexemes |>.classes scope { unit with classes := unit.classes ++ [decl] } position
partial_fixpoint

/-- The walk through a whole source. -/
def unit (name : Scalar) : Walk CompilationUnit := do
  let (package, position) ← package lexemes 0
  let (imports, position) ← imports lexemes [] position
  let classNames ← classNames lexemes 0
  classes lexemes ⟨package, imports, classNames⟩ { name, package := .text package } position

end Walks

end Lexemes

namespace TokenList.IsRest

variable {list : TokenList} {position : Nat} {rest : List Token}

theorem classNames (h : list.IsRest position rest) :
    Lexemes.classNames list.lexemes position = pure (wordsAfterClass rest) := by
  fun_induction wordsAfterClass rest generalizing position with
  | case1 classLine name line rest ih =>
    rw [Lexemes.classNames, h.look, pure_bind]
    show (Lexemes.classNames list.lexemes (position + 1) >>= _) = _
    rw [ih h.next, pure_bind, if_pos rfl, h.next.look]
    rfl
  | case2 token rest hnext ih =>
    rw [Lexemes.classNames, h.look, pure_bind]
    show (Lexemes.classNames list.lexemes (position + 1) >>= _) = _
    rw [ih h.next, pure_bind]
    by_cases hclass : token.lexeme = .word "class"
    · rw [if_pos hclass, h.next.look, pure_bind]
      obtain ⟨_, line⟩ := token
      cases hclass
      cases rest with
      | nil => rfl
      | cons next rest =>
        obtain ⟨lexeme, nextLine⟩ := next
        cases lexeme with
        | word name => exact (hnext line name nextLine rest rfl rfl).elim
        | _ => rfl
    · rw [if_neg hclass]
  | case3 =>
    rw [Lexemes.classNames, h.look]
    rfl

end TokenList.IsRest

namespace FollowsAs

variable {list : TokenList} {position : Nat} {rest : List Token}

/-- The declaration, with the line of what stands in front of the position. -/
def closing (list : TokenList) (decl : ClassDecl) (position : Nat) : ClassDecl × Nat :=
  (decl, list.lineAt (position - 1))

theorem classMembers {position : Nat} {rest : List Token} (scope : NameScope) (simpleName : String) (decl : ClassDecl)
    (hrest : list.IsRest position rest) :
    FollowsAs list (closing list) (ClassDecl.parseMembers scope list.lastLine simpleName decl rest)
      (Lexemes.classMembers list.lexemes scope simpleName decl position) := by
  rw [ClassDecl.parseMembers, Lexemes.classMembers]
  refine onMeeting hrest (fun line after hclose hafter => ?_) fun hclose => ?_
  · subst hclose
    rw [symbol?_cons, ← hrest.lineAt]
    exact .read hafter
  · rw [symbol?_eq_none_iff.mpr hclose, hrest.look, pure_bind]
    cases rest with
    | nil => exact fail hrest _
    | cons token after =>
      have hmember := pastSemicolons (member scope decl.name decl.fields hrest)
      refine bind hmember fun member after shorter position hafter => ?_
      exact rebound (classMembers scope simpleName (decl.appendMember member) hafter) _ fun _ => ⟨rfl, rfl⟩
termination_by rest.length

theorem classDecl (scope : NameScope) (hrest : list.IsRest position rest) :
    FollowsAs list (closing list) (ClassDecl.parse scope list.lastLine rest)
      (Lexemes.classDecl list.lexemes scope position) := by
  refine bind (annotations hrest) fun annotations afterAnnotations _ position hafterAnnotations => ?_
  refine bind (modifiers .none hafterAnnotations) fun modifiers afterModifiers _ position hafterModifiers => ?_
  refine onMeeting hafterModifiers (fun line afterClass hclass hafterClass => ?_) fun hclass => ?_
  · subst hclass
    refine bind (identifier hafterClass) fun name afterName hname position hafterName => ?_
    refine onOpening hafterName fun inside hinside position hopened => ?_
    let decl : ClassDecl := { name := qualify scope.package name, annotations, modifiers }
    exact rebound (classMembers scope name decl hopened) _ fun _ => ⟨rfl, rfl⟩
  · simp only [word?_eq_none_iff.mpr hclass]
    rw [hafterModifiers.look, pure_bind, shown_head?]
    exact fail hafterModifiers _

theorem imports {position : Nat} {rest : List Token} (earlier : List (String × String))
    (hrest : list.IsRest position rest) :
    Follows list (CompilationUnit.parseImports list.lastLine earlier rest)
      (Lexemes.imports list.lexemes earlier position) := by
  rw [CompilationUnit.parseImports, Lexemes.imports]
  refine onMeeting hrest (fun line afterImport himport hafterImport => ?_) fun himport => ?_
  · subst himport
    rw [word?_cons]
    refine bind (pastSemicolons (dottedName hafterImport)) fun name afterName hname position hafterName => ?_
    exact rebound (imports ((lastPart name, name) :: earlier) hafterName) _ fun _ => ⟨rfl, rfl⟩
  · rw [word?_eq_none_iff.mpr himport]
    exact .read hrest
termination_by rest.length
decreasing_by
  rw [himport, List.length_cons]
  omega

theorem package (hrest : list.IsRest position rest) :
    Follows list (CompilationUnit.parsePackage list.lastLine rest) (Lexemes.package list.lexemes position) := by
  rw [CompilationUnit.parsePackage, Lexemes.package]
  refine onMeeting hrest (fun line after hpackage hafter => ?_) fun hpackage => ?_
  · subst hpackage
    rw [word?_cons]
    exact rebound (pastSemicolons (dottedName hafter)) _ fun _ => ⟨rfl, rfl⟩
  · rw [word?_eq_none_iff.mpr hpackage]
    exact .read hrest

end FollowsAs

namespace Agrees

variable {list : TokenList} {position : Nat} {rest : List Token}

theorem classes {position : Nat} {rest : List Token} (scope : NameScope) (unit : CompilationUnit)
    (hrest : list.IsRest position rest) :
    Agrees list (CompilationUnit.parseClasses scope list.lastLine unit rest)
      (Lexemes.classes list.lexemes scope unit position) := by
  rw [CompilationUnit.parseClasses, Lexemes.classes, hrest.look, pure_bind]
  cases hrestEq : rest with
  | nil => exact .value unit
  | cons token after =>
    rw [hrestEq] at hrest
    rw [bind_map_left]
    refine bind (FollowsAs.classDecl scope hrest) fun decl after shorter position hafter => ?_
    show Agrees list (if (unit.class? decl.name).isSome = true then _ else _)
      (if (unit.class? decl.name).isSome = true then _ else _)
    by_cases htwice : (unit.class? decl.name).isSome = true
    · rw [if_pos htwice, if_pos htwice]
      have hinside : position - 1 ≤ list.tokens.length := Nat.le_trans (Nat.sub_le position 1) hafter.inside
      rw [TokenList.IsRest.refuse ⟨hinside, rfl⟩]
      exact .refused hinside _
    · rw [if_neg htwice, if_neg htwice]
      obtain ⟨behind, hwalk, hbehind⟩ := hafter.skipSemicolons
      rw [hwalk]
      exact classes scope { unit with classes := unit.classes ++ [decl] } hbehind
termination_by rest.length
decreasing_by
  have hle := length_dropSemicolons_le after
  rw [hrestEq]
  omega

end Agrees

namespace CompilationUnit

theorem agrees_ofTokens (name : Scalar) (list : TokenList) :
    Agrees list (ofTokens name list) (Lexemes.unit list.lexemes name) := by
  refine .bind (FollowsAs.package list.isRest_zero) fun package rest shorter position hrest => ?_
  refine .bind (FollowsAs.imports [] hrest) fun imports rest shorter position hrest => ?_
  show Agrees list _ (Lexemes.classNames list.lexemes 0 >>= _)
  rw [list.isRest_zero.classNames, pure_bind]
  exact Agrees.classes _ _ hrest

theorem agrees_parse {source : String} {list : TokenList} (name : Scalar) (htokens : tokenize source = .ok list) :
    Agrees list (parse source name) (Lexemes.unit list.lexemes name) := by
  rw [parse, htokens]
  exact agrees_ofTokens name list

end CompilationUnit

end GuardedLogging
