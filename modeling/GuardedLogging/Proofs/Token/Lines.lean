import GuardedLogging.Proofs.Token.Spelling
import Mathlib.Data.List.Forall2

/-!
# Lines that spell lexemes

A text is written line by line. Each line spells lexemes of its own, so blanks in front of a line and empty lines between others do not matter.
-/

namespace GuardedLogging

variable {cut : Scan.Cutting}

/-- The lines spell these lexemes one after another. -/
def SpellsLines (cut : Scan.Cutting) (lines : List String) (lexemes : List Lexeme) : Prop :=
  ∃ parts, List.Forall₂ (Spells cut) lines parts ∧ parts.flatten = lexemes

/-- An indentation is made of spaces and tabs. -/
def IsIndent (indent : String) : Prop := ∀ c ∈ indent.toList, c = ' ' ∨ c = '\t'

instance (indent : String) : Decidable (IsIndent indent) :=
  List.decidableBAll _ indent.toList

theorem spells_empty : Spells cut "" [] := fun _ _ _ tail => tail

theorem spells_close : Spells cut "\x7d" [.op '\x7d'] :=
  fun _ _ _ tail => Scan.cut_symbol (by decide) tail

theorem IsIndent.isBlank {indent : String} (h : IsIndent indent) :
    ∀ c ∈ indent.toList, Scan.isBlank c = true := by
  intro c hc
  rcases h c hc with rfl | rfl <;> decide

theorem Scan.cut_blanks {blanks rest : List Char} {lexemes : List Lexeme}
    (h : ∀ c ∈ blanks, Scan.isBlank c = true) (tail : cut.Relates rest lexemes) :
    cut.Relates (blanks ++ rest) lexemes := by
  induction blanks with
  | nil => exact tail
  | cons c blanks ih =>
    obtain ⟨hc, hblanks⟩ := List.forall_mem_cons.mp h
    exact Scan.cut_blank hc (ih hblanks)

theorem spells_indented {indent line : String} {lexemes : List Lexeme} (hindent : IsIndent indent)
    (h : Spells cut line lexemes) : Spells cut (indent ++ line) lexemes := by
  intro rest next hbreaks tail
  rw [String.toList_append, List.append_assoc]
  exact Scan.cut_blanks hindent.isBlank (h rest next hbreaks tail)

namespace SpellsLines

variable {lines otherLines : List String} {lexemes otherLexemes : List Lexeme}

theorem nil : SpellsLines cut [] [] := ⟨[], .nil, rfl⟩

theorem cons {line : String} (hline : Spells cut line lexemes) (h : SpellsLines cut lines otherLexemes) :
    SpellsLines cut (line :: lines) (lexemes ++ otherLexemes) := by
  obtain ⟨parts, hparts, rfl⟩ := h
  exact ⟨lexemes :: parts, .cons hline hparts, rfl⟩

theorem singleton {line : String} (h : Spells cut line lexemes) : SpellsLines cut [line] lexemes := by
  have hline := cons h nil
  rwa [List.append_nil] at hline

theorem append (h : SpellsLines cut lines lexemes) (hother : SpellsLines cut otherLines otherLexemes) :
    SpellsLines cut (lines ++ otherLines) (lexemes ++ otherLexemes) := by
  obtain ⟨parts, hparts, rfl⟩ := h
  obtain ⟨otherParts, hotherParts, rfl⟩ := hother
  exact ⟨parts ++ otherParts, List.rel_append hparts hotherParts, List.flatten_append⟩

theorem map {α : Type} {items : List α} {write : α → String} {lexemes : α → List Lexeme}
    (h : ∀ item ∈ items, Spells cut (write item) (lexemes item)) :
    SpellsLines cut (items.map write) (items.flatMap lexemes) := by
  induction items with
  | nil => exact nil
  | cons item items ih =>
    obtain ⟨hitem, hitems⟩ := List.forall_mem_cons.mp h
    exact cons hitem (ih hitems)

/-- Indented lines spell the same; empty lines are left empty. -/
theorem indented {indent : String} (hindent : IsIndent indent) (h : SpellsLines cut lines lexemes) :
    SpellsLines cut (lines.map fun line => if line.isEmpty then "" else indent ++ line) lexemes := by
  obtain ⟨parts, hparts, rfl⟩ := h
  refine ⟨parts, List.forall₂_map_left_iff.mpr (hparts.imp fun line lexemes hline => ?_), rfl⟩
  split
  · rename_i hempty
    rwa [String.isEmpty_iff.mp hempty] at hline
  · exact spells_indented hindent hline

/-- Blocks of lines with empty lines between them spell their lexemes one after another. -/
theorem blocks {blocks : List (List String)} {parts : List (List Lexeme)}
    (h : List.Forall₂ (SpellsLines cut) blocks parts) :
    SpellsLines cut ([""].intercalate blocks) parts.flatten := by
  cases h with
  | nil => exact nil
  | cons hfirst hothers =>
    rw [intercalate_singleton_cons]
    refine hfirst.append ?_
    induction hothers with
    | nil => exact nil
    | cons hblock _ ih => exact (cons spells_empty hblock).append ih

/-- What follows the first line stands for its lexemes, in front of what follows the last. -/
theorem relates_following {parts : List (List Lexeme)} (h : List.Forall₂ (Spells cut) lines parts)
    {after : List Char} {next : List Lexeme} (hbreaks : Scan.Breaks after)
    (tail : cut.Relates after next) :
    Scan.Breaks ((lines.flatMap fun line => "\n".toList ++ line.toList) ++ after) ∧
      cut.Relates ((lines.flatMap fun line => "\n".toList ++ line.toList) ++ after)
        (parts.flatten ++ next) := by
  induction h with
  | nil => exact ⟨hbreaks, tail⟩
  | cons hline _ ih =>
    obtain ⟨hends, hcut⟩ := ih
    rw [List.flatMap_cons, List.append_assoc, List.append_assoc, List.flatten_cons, List.append_assoc]
    exact ⟨Scan.breaks_blank (by decide) _, Scan.cut_blank (by decide) (hline _ _ hends hcut)⟩

theorem spells (h : SpellsLines cut lines lexemes) : Spells cut ("\n".intercalate lines) lexemes := by
  intro after next hbreaks tail
  obtain ⟨parts, hparts, rfl⟩ := h
  cases hparts with
  | nil => exact tail
  | cons hfirst hlines =>
    obtain ⟨hends, hcut⟩ := relates_following hlines hbreaks tail
    rw [toList_intercalate_cons, List.append_assoc, List.flatten_cons, List.append_assoc]
    exact hfirst _ _ hends hcut

end SpellsLines

/-! ### Lines of which the front is known -/

/-- Whatever follows it, the text starts with these lexemes. -/
def Opens (cut : Scan.Cutting) (text : String) (lexemes : List Lexeme) : Prop :=
  ∀ rest, Scan.Breaks rest → cut.Relates (text.toList ++ rest) lexemes

/-- The lines start with these lexemes, of which the last ones are on a line that may go on with others. -/
def OpensLines (cut : Scan.Cutting) (lines : List String) (lexemes : List Lexeme) : Prop :=
  ∃ before line after spelled opened, lines = before ++ line :: after ∧
    SpellsLines cut before spelled ∧ Opens cut line opened ∧ lexemes = spelled ++ opened

theorem opens_indented {indent line : String} {lexemes : List Lexeme} (hindent : IsIndent indent)
    (h : Opens cut line lexemes) : Opens cut (indent ++ line) lexemes := by
  intro rest hbreaks
  rw [String.toList_append, List.append_assoc]
  exact Scan.cut_blanks hindent.isBlank (h rest hbreaks)

namespace OpensLines

variable {lines : List String} {lexemes : List Lexeme}

theorem line {text : String} (h : Opens cut text lexemes) (after : List String) :
    OpensLines cut (text :: after) lexemes :=
  ⟨[], text, after, [], lexemes, rfl, .nil, h, rfl⟩

theorem prepend {front : List String} {earlier : List Lexeme} (hfront : SpellsLines cut front earlier)
    (h : OpensLines cut lines lexemes) : OpensLines cut (front ++ lines) (earlier ++ lexemes) := by
  obtain ⟨before, line, after, spelled, opened, rfl, hbefore, hline, rfl⟩ := h
  exact ⟨front ++ before, line, after, earlier ++ spelled, opened, (List.append_assoc _ _ _).symm,
    hfront.append hbefore, hline, (List.append_assoc _ _ _).symm⟩

theorem append (h : OpensLines cut lines lexemes) (later : List String) :
    OpensLines cut (lines ++ later) lexemes := by
  obtain ⟨before, line, after, spelled, opened, rfl, hbefore, hline, rfl⟩ := h
  exact ⟨before, line, after ++ later, spelled, opened, by rw [List.append_assoc, List.cons_append],
    hbefore, hline, rfl⟩

/-- Indented lines start with the same; empty lines are left empty. -/
theorem indented {indent : String} (hindent : IsIndent indent) (h : OpensLines cut lines lexemes) :
    OpensLines cut (lines.map fun line => if line.isEmpty then "" else indent ++ line) lexemes := by
  obtain ⟨before, line, after, spelled, opened, rfl, hbefore, hline, rfl⟩ := h
  rw [List.map_append, List.map_cons]
  refine ⟨_, _, _, spelled, opened, rfl, hbefore.indented hindent, ?_, rfl⟩
  split
  · rename_i hempty
    rwa [String.isEmpty_iff.mp hempty] at hline
  · exact opens_indented hindent hline

/-- In front of the block that opens stand blocks that spell their lexemes, with empty lines between them. -/
theorem blocks {blocks : List (List String)} {parts : List (List Lexeme)}
    (hblocks : List.Forall₂ (SpellsLines cut) blocks parts) (h : OpensLines cut lines lexemes)
    (later : List (List String)) :
    OpensLines cut ([""].intercalate (blocks ++ lines :: later)) (parts.flatten ++ lexemes) := by
  have hlines : OpensLines cut (lines ++ later.flatMap ("" :: ·)) lexemes := h.append _
  cases hblocks with
  | nil =>
    rw [List.nil_append, intercalate_singleton_cons]
    exact hlines
  | @cons first _ blocks _ hfirst hothers =>
    rw [List.cons_append, intercalate_singleton_cons, List.flatMap_append, List.flatMap_cons,
      List.flatten_cons, List.append_assoc]
    refine prepend hfirst ?_
    induction hothers with
    | nil =>
      show OpensLines cut ([""] ++ (lines ++ later.flatMap ("" :: ·))) ([] ++ lexemes)
      exact prepend (.singleton spells_empty) hlines
    | cons hblock _ ih =>
      rw [List.flatMap_cons, List.append_assoc, List.flatten_cons, List.append_assoc]
      exact prepend (.cons spells_empty hblock) ih

theorem opens (h : OpensLines cut lines lexemes) : Opens cut ("\n".intercalate lines) lexemes := by
  intro rest hbreaks
  obtain ⟨before, line, after, spelled, opened, rfl, hbefore, hline, rfl⟩ := h
  have hends : Scan.Breaks ((after.flatMap fun line => "\n".toList ++ line.toList) ++ rest) := by
    cases after with
    | nil => exact hbreaks
    | cons next after => exact Scan.breaks_blank (by decide) _
  have hopens := hline _ hends
  cases before with
  | nil =>
    obtain ⟨parts, hparts, rfl⟩ := hbefore
    cases hparts
    rw [List.nil_append, toList_intercalate_cons, List.append_assoc]
    exact hopens
  | cons first before =>
    have hspells := hbefore.spells _ _ (Scan.breaks_blank (by decide) _)
      (Scan.cut_blank (show Scan.isBlank '\n' = true by decide) hopens)
    rw [toList_intercalate_cons, List.append_assoc] at hspells
    rw [List.cons_append, toList_intercalate_cons, List.flatMap_append, List.flatMap_cons]
    simp only [List.append_assoc, String.reduceToList, List.cons_append, List.nil_append] at hspells ⊢
    exact hspells

end OpensLines

end GuardedLogging
