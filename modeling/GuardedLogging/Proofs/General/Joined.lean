import Mathlib.Data.List.Basic

/-!
# Joined parts

What parts are joined to with a separator, and what can be told of the parts from it.
-/

namespace GuardedLogging

variable {α : Type}

theorem toList_intercalate_cons (separator first : String) (texts : List String) :
    (separator.intercalate (first :: texts)).toList
      = first.toList ++ texts.flatMap fun text => separator.toList ++ text.toList := by
  induction texts generalizing first with
  | nil => simp
  | cons text texts ih =>
    rw [String.intercalate_cons_cons, String.toList_append, ih, List.flatMap_cons,
      String.toList_append, List.append_assoc, List.append_assoc]

theorem intercalate_singleton_cons (separator : α) (first : List α) (lists : List (List α)) :
    [separator].intercalate (first :: lists) = first ++ lists.flatMap (separator :: ·) := by
  induction lists generalizing first with
  | nil => simp
  | cons list lists ih =>
    rw [List.intercalate_cons_cons, ih, List.flatMap_cons, List.append_assoc]
    rfl

/-- Parts of the same lengths can be told from what they are joined to. -/
theorem eq_of_intercalate_eq {separator : List α} {left right : List (List α)}
    (hlengths : left.map List.length = right.map List.length)
    (h : separator.intercalate left = separator.intercalate right) : left = right := by
  induction left generalizing right with
  | nil =>
    cases right with
    | nil => rfl
    | cons other others => cases hlengths
  | cons first rest ih =>
    cases right with
    | nil => cases hlengths
    | cons other others =>
      obtain ⟨hfirst, hrest⟩ := List.cons.inj hlengths
      cases rest with
      | nil =>
        cases others with
        | nil => simpa using h
        | cons next others => cases hrest
      | cons second rest =>
        cases others with
        | nil => cases hrest
        | cons next others =>
          rw [List.intercalate_cons_cons, List.intercalate_cons_cons] at h
          obtain ⟨hhead, htail⟩ := List.append_inj h (by simp only [List.length_append, hfirst])
          rw [List.append_cancel_right hhead, ih hrest htail]

theorem length_intercalate_of_perm {separator : List α} {left right : List (List α)} (h : left.Perm right) :
    (separator.intercalate left).length = (separator.intercalate right).length := by
  have hlength (parts : List (List α)) : (separator.intercalate parts).length
      = (parts.map List.length).sum + separator.length * (parts.length - 1) := by
    induction parts with
    | nil => rfl
    | cons first rest ih =>
      cases rest with
      | nil => simp
      | cons second rest =>
        rw [List.intercalate_cons_cons, List.length_append, List.length_append, ih]
        simp only [List.map_cons, List.sum_cons, List.length_cons, Nat.add_sub_cancel, Nat.mul_succ]
        omega
  rw [hlength, hlength, (h.map List.length).sum_nat, h.length_eq]

theorem map_intercalate {β : Type} (f : α → β) (separator : List α) (lists : List (List α)) :
    (separator.intercalate lists).map f = (separator.map f).intercalate (lists.map (List.map f)) := by
  induction lists with
  | nil => rfl
  | cons first rest ih =>
    cases rest with
    | nil => simp
    | cons second rest =>
      rw [List.intercalate_cons_cons, List.map_append, List.map_append, ih, List.map_cons, List.map_cons,
        List.map_cons, List.intercalate_cons_cons]

/-- Two texts agree up to a character that neither part in front of it contains. -/
theorem eq_of_append_cons_eq {c : α} {left right rest others : List α} (hleft : c ∉ left) (hright : c ∉ right)
    (h : left ++ c :: rest = right ++ c :: others) : left = right := by
  induction left generalizing right with
  | nil =>
    cases right with
    | nil => rfl
    | cons d right => exact absurd (List.cons.inj h).1 (List.ne_of_not_mem_cons hright)
  | cons d left ih =>
    cases right with
    | nil => exact absurd (List.cons.inj h).1.symm (List.ne_of_not_mem_cons hleft)
    | cons e right =>
      obtain ⟨hhead, htail⟩ := List.cons.inj h
      rw [hhead, ih (List.not_mem_of_not_mem_cons hleft) (List.not_mem_of_not_mem_cons hright) htail]

theorem texts_eq_of_intercalate_eq {separator : String} {left right : List String}
    (hlengths : left.map String.length = right.map String.length)
    (h : separator.intercalate left = separator.intercalate right) : left = right := by
  have hlists := congrArg String.toList h
  rw [String.toList_intercalate, String.toList_intercalate] at hlists
  have hchars : left.map String.toList = right.map String.toList := by
    refine eq_of_intercalate_eq ?_ hlists
    simp only [List.map_map, Function.comp_def, String.length_toList]
    exact hlengths
  exact List.map_injective_iff.mpr (fun _ _ => String.toList_inj.mp) hchars

end GuardedLogging
