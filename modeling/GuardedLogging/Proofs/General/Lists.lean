import Mathlib.Data.List.Forall2
import Mathlib.Data.List.Nodup
import Mathlib.Data.List.TakeWhile

/-!
# Lists

Lists of things that have names, entries that are looked up by their names, and what stands in front of the first item of another kind.
-/

namespace GuardedLogging

variable {α β : Type}

/-! ### Names and entries -/

section Names

variable {nameOf : α → String} {items : List α}

theorem any_name_eq_false_iff {name : String} :
    items.any (nameOf · == name) = false ↔ name ∉ items.map nameOf := by
  rw [List.any_eq_false, List.mem_map]
  constructor
  · rintro h ⟨item, hitem, rfl⟩
    exact h item hitem (beq_self_eq_true _)
  · intro h item hitem hname
    exact h ⟨item, hitem, beq_iff_eq.mp hname⟩

theorem nodup_map_append_singleton {item : α} (h : (items.map nameOf).Nodup)
    (hnew : nameOf item ∉ items.map nameOf) : ((items ++ [item]).map nameOf).Nodup := by
  rw [List.map_append, List.map_singleton, ← List.concat_eq_append]
  exact h.concat hnew

theorem lookup_eq_none_iff_not_mem {entries : List (String × α)} {name : String} :
    entries.lookup name = none ↔ name ∉ entries.map Prod.fst := by
  rw [List.lookup_eq_none_iff, List.mem_map]
  constructor
  · rintro h ⟨entry, hentry, rfl⟩
    exact absurd rfl (bne_iff_ne.mp (h entry hentry))
  · intro h entry hentry
    exact bne_iff_ne.mpr fun hname => h ⟨entry, hentry, hname.symm⟩

theorem mem_of_lookup_eq_some {entries : List (String × α)} {name : String} {value : α}
    (h : entries.lookup name = some value) : (name, value) ∈ entries := by
  obtain ⟨front, back, rfl, _⟩ := List.lookup_eq_some_iff.mp h
  simp

end Names

theorem map_eq_self_of_forall {items : List α} {f : α → α} (h : ∀ item ∈ items, f item = item) :
    items.map f = items :=
  (List.map_congr_left h).trans (List.map_id items)

theorem forall₂_map_map {related : β → β → Prop} {items : List α} {write otherWrite : α → β}
    (h : ∀ item ∈ items, related (write item) (otherWrite item)) :
    List.Forall₂ related (items.map write) (items.map otherWrite) :=
  List.forall₂_map_left_iff.mpr (List.forall₂_map_right_iff.mpr (List.forall₂_same.mpr h))

/-! ### Up to the first item of another kind -/

/-- All items of a list are of one kind, or all up to an item of the other kind. -/
theorem forall_mem_or_exists_first {p q : α → Prop} {items : List α} (h : ∀ item ∈ items, p item ∨ q item) :
    (∀ item ∈ items, p item) ∨ ∃ earlier item later, items = earlier ++ item :: later ∧
      (∀ other ∈ earlier, p other) ∧ q item := by
  induction items with
  | nil => exact .inl (List.forall_mem_nil _)
  | cons first items ih =>
    obtain ⟨hfirst, hitems⟩ := List.forall_mem_cons.mp h
    cases hfirst with
    | inr hq => exact .inr ⟨[], first, items, rfl, List.forall_mem_nil _, hq⟩
    | inl hp =>
      obtain hall | ⟨earlier, item, later, rfl, hearlier, hitem⟩ := ih hitems
      · exact .inl (List.forall_mem_cons.mpr ⟨hp, hall⟩)
      · exact .inr ⟨first :: earlier, item, later, rfl, List.forall_mem_cons.mpr ⟨hp, hearlier⟩, hitem⟩

/-- What has the property is taken up to the first item without it. -/
theorem takeWhile_append_of_ends {p : α → Bool} {front rest : List α} (hfront : ∀ item ∈ front, p item = true)
    (hends : ∀ item ∈ rest.head?, p item = false) :
    (front ++ rest).takeWhile p = front ∧ (front ++ rest).dropWhile p = rest := by
  rw [List.takeWhile_append_of_pos hfront, List.dropWhile_append_of_pos hfront]
  cases rest with
  | nil => exact ⟨List.append_nil front, rfl⟩
  | cons item rest =>
    have hitem : ¬p item = true := Bool.eq_false_iff.mp (hends item rfl)
    rw [List.takeWhile_cons_of_neg hitem, List.dropWhile_cons_of_neg hitem, List.append_nil]
    exact ⟨rfl, rfl⟩

theorem takeWhile_append_of_head {p : α → Bool} {item : α} (hitem : p item = false) (front rest : List α) :
    (front ++ item :: rest).takeWhile p = front.takeWhile p ∧
      (front ++ item :: rest).dropWhile p = front.dropWhile p ++ item :: rest := by
  induction front with
  | nil => simp [hitem]
  | cons first front ih =>
    obtain ⟨htake, hdrop⟩ := ih
    by_cases hfirst : p first = true
    · simp [hfirst, htake, hdrop]
    · simp [hfirst]

theorem head?_dropWhile_eq_false {p : α → Bool} {items : List α} :
    ∀ item ∈ (items.dropWhile p).head?, p item = false := by
  intro item hitem
  have hnot := List.head?_dropWhile_not p items
  rw [hitem] at hnot
  simpa using hnot

end GuardedLogging
