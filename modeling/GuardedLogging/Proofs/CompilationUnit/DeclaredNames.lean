import GuardedLogging.Proofs.CompilationUnit.ClassWords
import GuardedLogging.Proofs.CompilationUnit.Units

/-!
# Declared names in a source

What is left of a source at any point is its end. So where a class is read in it, the name of the class is found in the source behind the word `class`.
-/

namespace GuardedLogging

open Cursor

variable {scope : NameScope} {lastLine : Nat} {tokens rest : List Token}

theorem mem_classWords_cons {name : String} {lexemes : List Lexeme} (h : name ∈ classWords lexemes)
    (lexeme : Lexeme) : name ∈ classWords (lexeme :: lexemes) := by
  unfold classWords
  split
  · rename_i found after heq
    cases heq
    exact List.mem_cons_of_mem _ h
  · rename_i heq
    cases heq
    exact h
  · cases ‹_ = []›

theorem Leaves.mem_wordsAfterClass {name : String} (h : Leaves tokens rest) (hname : name ∈ wordsAfterClass rest) :
    name ∈ wordsAfterClass tokens := by
  rw [wordsAfterClass_eq] at hname ⊢
  obtain ⟨front, hfront⟩ := h
  rw [← hfront]
  clear hfront
  induction front with
  | nil => exact hname
  | cons lexeme front ih => exact mem_classWords_cons ih lexeme

theorem ClassDecl.simpleName_mem_of_parse {decl : ClassDecl} {line : Nat}
    (hwords : AreWords (tokens.map Token.lexeme))
    (h : Gives (parse scope lastLine tokens) (decl, line) rest) : decl.simpleName ∈ wordsAfterClass tokens := by
  obtain ⟨classLine, nameLine, inside, _, hleaves⟩ := exists_name_of_parse hwords h
  refine hleaves.mem_wordsAfterClass ?_
  rw [wordsAfterClass_eq]
  exact List.mem_cons_self

namespace CompilationUnit

theorem simpleNames_subset_of_parseClasses {source : List Token} {unit whole : CompilationUnit}
    (hwords : AreWords (source.map Token.lexeme)) (hsource : Leaves source tokens)
    (hunit : unit.simpleNames ⊆ wordsAfterClass source)
    (h : parseClasses scope lastLine unit tokens = .ok whole) : whole.simpleNames ⊆ wordsAfterClass source := by
  induction hlength : tokens.length using Nat.strongRecOn generalizing tokens unit with
  | ind length ih =>
    rcases parseClasses_eq_ok_iff.mp h with ⟨_, rfl⟩ | ⟨_, decl, line, middle, hdecl, _, hothers⟩
    · exact hunit
    · have hname := ClassDecl.simpleName_mem_of_parse (hsource.areWords hwords) hdecl
      have hmore : simpleNames { unit with classes := unit.classes ++ [decl] } ⊆ wordsAfterClass source := by
        rw [simpleNames, List.map_append, List.append_subset]
        exact ⟨hunit, List.cons_subset.mpr ⟨hsource.mem_wordsAfterClass hname, List.nil_subset _⟩⟩
      have hmiddle := hsource.trans (ClassDecl.leaves_of_parse hdecl).dropSemicolons
      have hshorter := Nat.lt_of_le_of_lt (length_dropSemicolons_le middle) hdecl.shorter
      exact ih _ (hlength ▸ hshorter) hmiddle hmore hothers rfl

theorem simpleNames_subset_of_ofTokens {name : Scalar} {list : TokenList} {unit : CompilationUnit}
    (hwords : AreWords (list.tokens.map Token.lexeme)) (h : ofTokens name list = .ok unit) :
    unit.simpleNames ⊆ wordsAfterClass list.tokens := by
  obtain ⟨package, afterPackage, imports, afterImports, hpackage, himports, hclasses⟩ :=
    ofTokens_eq_ok_iff.mp h
  have hsource := (leaves_of_parsePackage hpackage).trans (leaves_of_parseImports himports)
  exact simpleNames_subset_of_parseClasses hwords hsource (List.nil_subset _) hclasses

end CompilationUnit

end GuardedLogging
