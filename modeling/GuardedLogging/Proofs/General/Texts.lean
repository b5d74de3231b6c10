/-!
# Texts

Letters and digits by their code points, and texts that are not empty.
-/

namespace GuardedLogging

theorem isAlpha_iff {c : Char} :
    c.isAlpha = true ↔ (65 ≤ c.toNat ∧ c.toNat ≤ 90) ∨ (97 ≤ c.toNat ∧ c.toNat ≤ 122) := by
  show (decide (65 ≤ c.val ∧ c.val ≤ 90) || decide (97 ≤ c.val) && decide (c.val ≤ 122)) = true ↔ _
  simp only [Bool.or_eq_true, Bool.and_eq_true, decide_eq_true_eq, UInt32.le_iff_toNat_le]
  rfl

theorem isDigit_iff {c : Char} : c.isDigit = true ↔ 48 ≤ c.toNat ∧ c.toNat ≤ 57 := by
  simp only [Char.isDigit, Bool.and_eq_true, decide_eq_true_eq, ge_iff_le, UInt32.le_iff_toNat_le]
  rfl

theorem all_isDigit_toDigits (n : Nat) : (Nat.toDigits 10 n).all Char.isDigit = true :=
  List.all_eq_true.mpr fun _ hc => Nat.isDigit_of_mem_toDigits (by decide) (by decide) hc

theorem toString_ne_empty (value : Int) : toString value ≠ "" := by
  cases value with
  | ofNat n =>
    show (toString n) ≠ ""
    rw [Nat.toString_eq_ofList_toDigits]
    intro hempty
    exact Nat.toDigits_ne_nil (String.ofList_eq_empty_iff.mp hempty)
  | negSucc n => exact fun hempty => absurd (String.append_eq_empty_iff.mp hempty).1 (by decide)

theorem append_ne_empty {front back : String} (h : back ≠ "") : front ++ back ≠ "" :=
  fun hempty => h (String.append_eq_empty_iff.mp hempty).2

end GuardedLogging
