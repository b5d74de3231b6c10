/-!
# Results

When a sequence of steps that may fail succeeds, and with what.
-/

namespace GuardedLogging

theorem bind_eq_ok_iff {ε α β : Type} {first : Except ε α} {next : α → Except ε β} {value : β} :
    first >>= next = .ok value ↔ ∃ between, first = .ok between ∧ next between = .ok value := by
  cases first with
  | error error => simp [bind, Except.bind]
  | ok between => simp [bind, Except.bind]

theorem bind_eq_error_iff {ε α β : Type} {first : Except ε α} {next : α → Except ε β} {error : ε} :
    (first >>= next) = .error error ↔
      first = .error error ∨ ∃ value, first = .ok value ∧ next value = .error error := by
  cases first with
  | error e =>
    refine ⟨fun h => .inl (by cases h; rfl), ?_⟩
    rintro (h | ⟨value, h, _⟩)
    · cases h
      rfl
    · cases h
  | ok value =>
    refine ⟨fun h => .inr ⟨value, rfl, h⟩, ?_⟩
    rintro (h | ⟨other, h, hnext⟩)
    · cases h
    · cases h
      exact hnext

theorem mapM_map_eq_map {ε α β γ : Type} {write : α → β} {read : β → Except ε γ} {change : α → γ} {parts : List α}
    (h : ∀ part ∈ parts, read (write part) = .ok (change part)) :
    (parts.map write).mapM read = .ok (parts.map change) := by
  induction parts with
  | nil => rfl
  | cons part rest ih =>
    obtain ⟨hpart, hrest⟩ := List.forall_mem_cons.mp h
    rw [List.map_cons, List.mapM_cons, hpart, ih hrest]
    rfl

theorem mapM_map_eq_ok {ε α β : Type} {write : α → β} {read : β → Except ε α} {parts : List α}
    (h : ∀ part ∈ parts, read (write part) = .ok part) : (parts.map write).mapM read = .ok parts :=
  (mapM_map_eq_map h).trans (congrArg Except.ok (List.map_id parts))

/-- What every reading of a part brings about holds of all parts that are read together. -/
theorem forall_of_mapM_eq_ok {ε α β : Type} {read : α → Except ε β} {p : β → Prop}
    (h : ∀ part result, read part = .ok result → p result) {parts : List α} {results : List β}
    (hresults : parts.mapM read = .ok results) : ∀ result ∈ results, p result := by
  induction parts generalizing results with
  | nil =>
    cases hresults
    exact List.forall_mem_nil _
  | cons part rest ih =>
    rw [List.mapM_cons] at hresults
    obtain ⟨result, hresult, hrest⟩ := bind_eq_ok_iff.mp hresults
    obtain ⟨others, hothers, hall⟩ := bind_eq_ok_iff.mp hrest
    cases hall
    exact List.forall_mem_cons.mpr ⟨h part result hresult, ih hothers⟩

end GuardedLogging
