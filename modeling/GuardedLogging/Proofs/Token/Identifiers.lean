import GuardedLogging.Proofs.Token.Spelling
import GuardedLogging.Text.Identifier

/-!
# Identifiers that are no names

An identifier may be a keyword, and its letters and digits may be of any script; the words of a source may not. So an identifier that is no name is no name in a source either: it is a keyword there, or the scan stops at the first letter that is not ASCII, or it cuts the identifier apart in front of a digit that is not ASCII.
-/

namespace GuardedLogging

namespace Scan

/-- What an identifier that is no name is cut into starts like this. -/
inductive BrokenName : List Lexeme → Prop
  | keyword (word : String) (h : isKeyword word = true) (after : List Lexeme) :
      BrokenName (.word word :: after)
  | number (text : String) (after : List Lexeme) : BrokenName (.number text :: after)
  | split (word text : String) (after : List Lexeme) :
      BrokenName (.word word :: .number text :: after)

/-- Among the characters that are not ASCII, only digits are cut off. -/
theorem takePiece?_of_not_ascii {c : Char} (h : 128 ≤ c.toNat) (rest : List Char) :
    takePiece? (c :: rest) =
      if isDecimalDigit c then
        some (.token (.number (String.ofList (takeNumber (c :: rest)).1)), (takeNumber (c :: rest)).2)
      else none := by
  have hother : ∀ other : Char, other.toNat < 128 → c ≠ other := by
    rintro other hascii rfl
    omega
  have hblank : isBlank c = false := by
    simp only [isBlank, Bool.or_eq_false_iff, beq_eq_false_iff_ne]
    exact ⟨⟨⟨hother _ (by decide), hother _ (by decide)⟩, hother _ (by decide)⟩, hother _ (by decide)⟩
  have hopens : opensNothing c = true :=
    opensNothing_iff.mpr ⟨hother _ (by decide), hother _ (by decide), hother _ (by decide)⟩
  have hstart : isWordStart c = false := by
    rw [isWordStart, Bool.or_eq_false_iff, beq_eq_false_iff_ne, Bool.eq_false_iff, Ne, isAlpha_iff]
    exact ⟨by omega, hother _ (by decide)⟩
  have hsymbol : isSymbol c = false := by
    refine Bool.eq_false_iff.mpr fun hsymbol => ?_
    simp only [isSymbol, List.contains_iff_mem, List.mem_cons, List.not_mem_nil, or_false] at hsymbol
    rcases hsymbol with hc | hc | hc | hc | hc | hc | hc | hc | hc | hc | hc | hc
    all_goals exact hother _ (by decide) hc
  rw [takePiece?_plain hopens hblank, hstart, hsymbol, if_neg Bool.false_ne_true, if_neg Bool.false_ne_true]

/-- A text that starts with a character which is not ASCII starts with a number, if it can be cut. -/
theorem Cut.exists_number {c : Char} (hascii : 128 ≤ c.toNat) {rest : List Char} {all : List Lexeme}
    (h : Cut (c :: rest) all) : ∃ text after, all = .number text :: after := by
  have hfirst := takePiece?_of_not_ascii hascii rest
  cases h with
  | piece hpiece _ =>
    rw [hfirst] at hpiece
    split at hpiece
    · cases hpiece
      exact ⟨_, _, rfl⟩
    · cases hpiece

theorem isWordStart_or_not_ascii {c : Char} (h : Identifier.isStart c = true) :
    isWordStart c = true ∨ 128 ≤ c.toNat := by
  unfold Identifier.isStart at h
  split at h
  · exact .inl h
  · exact .inr (by omega)

theorem isWordPart_or_not_ascii {c : Char} (h : Identifier.isContinue c = true) :
    isWordPart c = true ∨ 128 ≤ c.toNat := by
  unfold Identifier.isContinue at h
  split at h
  · exact .inl h
  · exact .inr (by omega)

/-- An identifier that is no name is no name in a source. -/
theorem Cut.brokenName {name : String} (hidentifier : isIdentifier name = true)
    (hname : isName name = false) {rest : List Char} (hbreaks : Breaks rest) {all : List Lexeme}
    (h : Cut (name.toList ++ rest) all) : BrokenName all := by
  unfold isIdentifier at hidentifier
  split at hidentifier
  · cases hidentifier
  · rename_i c part htext
    obtain ⟨hstart, hpart⟩ := Bool.and_eq_true_iff.mp hidentifier
    rw [htext, List.cons_append] at h
    rcases isWordStart_or_not_ascii hstart with hword | hascii
    · obtain ⟨others, hothers, rfl⟩ := h.exists_of_takePiece? (takePiece?_word hword (part ++ rest))
      cases hend : part.dropWhile isWordPart with
      | nil =>
        have hall : part.all isWordPart = true :=
          List.all_eq_true.mpr (List.dropWhile_eq_nil_iff.mp hend)
        have htake := (takeWhile_append_of_ends (List.all_eq_true.mp hall) hbreaks.isWordPart_head).1
        have hkeyword : isKeyword name = true := by
          rw [isName, isWord, htext] at hname
          simpa [hword, hall] using hname
        rw [htake, ← htext, String.ofList_toList]
        exact .keyword name hkeyword others
      | cons d more =>
        have hd : isWordPart d = false := by
          have hhead := List.head?_dropWhile_not isWordPart part
          rw [hend] at hhead
          simpa using hhead
        have hmem : d ∈ part := (List.dropWhile_suffix isWordPart).subset (hend ▸ List.mem_cons_self)
        have hascii : 128 ≤ d.toNat := by
          rcases isWordPart_or_not_ascii (List.all_eq_true.mp hpart d hmem) with hyes | hascii
          · rw [hd] at hyes
            cases hyes
          · exact hascii
        rw [List.dropWhile_append, hend] at hothers
        obtain ⟨text, after, rfl⟩ := hothers.exists_number hascii
        exact .split _ text after
    · obtain ⟨text, after, rfl⟩ := h.exists_number hascii
      exact .number text after

end Scan

end GuardedLogging
