import GuardedLogging.Proofs.Token.Spelling

/-!
# Written numbers

The text of a number with a fraction is a numeral, or it has a sign in it: in front of a negative number or in the exponent of a very small or very great one. A numeral is cut off as it was written; where a sign comes, no source can be cut.
-/

namespace GuardedLogging

open Scan

namespace FloatLayout

variable {digits : String} {power : Int}

theorem all_isDigit_zeros (count : Int) : (zeros count).toList.all Char.isDigit = true := by
  rw [zeros, String.toList_ofList]
  exact List.all_eq_true.mpr fun c hc => by rw [List.eq_of_mem_replicate hc]; decide

theorem isNumeral_positional (hne : digits.toList ≠ [])
    (h : digits.toList.all Char.isDigit = true) : IsNumeral (positional digits power).toList := by
  have hlength : 0 < digits.toList.length := List.length_pos_iff.mpr hne
  unfold positional
  simp only [← String.length_toList]
  split
  · rw [String.toList_append, String.toList_append, List.append_assoc]
    show IsNumeral (['0'] ++ '.' :: ((zeros (-power - 1)).toList ++ digits.toList))
    refine .fraction (List.cons_ne_nil _ _) (List.append_ne_nil_of_right_ne_nil _ hne) ?_
    rw [List.all_append, List.all_append, all_isDigit_zeros, h]
    rfl
  · split
    · rw [String.toList_append, String.toList_append]
      refine .fraction (List.append_ne_nil_of_left_ne_nil hne _) (List.cons_ne_nil '0' []) ?_
      rw [List.all_append, List.all_append, all_isDigit_zeros, h]
      rfl
    · rename_i hpower hcount
      simp only [String.toList_append, String.toList_ofList, String.reduceToList, List.append_assoc,
        List.cons_append, List.nil_append]
      refine .fraction ?_ ?_ (by rw [List.take_append_drop, h])
      · rw [Ne, List.take_eq_nil_iff]
        rintro (hzero | hnil)
        · omega
        · exact hne hnil
      · rw [Ne, List.drop_eq_nil_iff]
        omega

/-- A text has the sign of an exponent if it is a numeral, the letter of the exponent and a sign, and goes on from there. -/
def HasExponentSign (text : List Char) : Prop :=
  ∃ mantissa sign size, IsNumeral mantissa ∧ (sign = '+' ∨ sign = '-') ∧
    text = mantissa ++ 'e' :: sign :: size

theorem hasExponentSign_append {mantissa : List Char} (h : IsNumeral mantissa) (size : String) :
    HasExponentSign (mantissa ++ 'e' :: ((if power < 0 then "-" else "+").toList ++ size.toList)) := by
  split
  · exact ⟨mantissa, '-', size.toList, h, .inr rfl, rfl⟩
  · exact ⟨mantissa, '+', size.toList, h, .inl rfl, rfl⟩

theorem hasExponentSign_scientific (hne : digits.toList ≠ [])
    (h : digits.toList.all Char.isDigit = true) :
    HasExponentSign (scientific digits power).toList := by
  unfold scientific
  cases hdigits : digits.toList with
  | nil => exact absurd hdigits hne
  | cons first rest =>
    rw [hdigits] at h
    simp only [String.toList_append, List.append_assoc]
    cases rest with
    | nil =>
      rw [String.toList_ofList]
      exact hasExponentSign_append (.whole (List.cons_ne_nil _ _) h) _
    | cons second rest =>
      have hmantissa : IsNumeral ([first] ++ '.' :: second :: rest) :=
        .fraction (List.cons_ne_nil _ _) (List.cons_ne_nil _ _) h
      rw [String.toList_ofList]
      exact hasExponentSign_append hmantissa _

theorem isNumeral_or_hasExponentSign (layout : FloatLayout) (significand : Nat) (exponent : Int) :
    IsNumeral (layout.magnitude significand exponent).toList ∨
      HasExponentSign (layout.magnitude significand exponent).toList := by
  unfold magnitude
  split
  · exact .inl (.fraction (List.cons_ne_nil '0' []) (List.cons_ne_nil '0' []) (by decide))
  · have hshown (n : Nat) : (toString n).toList = Nat.toDigits 10 n := by
      rw [Nat.toString_eq_ofList_toDigits, String.toList_ofList]
    have hne (n : Nat) : (toString n).toList ≠ [] := hshown n ▸ Nat.toDigits_ne_nil
    have hdigits (n : Nat) : (toString n).toList.all Char.isDigit = true :=
      hshown n ▸ all_isDigit_toDigits n
    simp only
    split
    · exact .inl (isNumeral_positional (hne _) (hdigits _))
    · exact .inr (hasExponentSign_scientific (hne _) (hdigits _))

end FloatLayout

namespace Scalar

/-- Whether the scalar is a number that is written with a sign: a negative one, or one with an exponent. -/
def hasSign : Scalar → Bool
  | real value => (realLayout.render value).toList.any isSign
  | _ => false

/-- A text with a sign in front, or in an exponent, has a sign in it and cannot be cut. -/
theorem isSigned_of_minus {text : String} (magnitude : String) (h : text = "-" ++ magnitude) :
    text.toList.any isSign = true ∧ ∀ rest all, ¬Cut (text.toList ++ rest) all := by
  rw [h, String.toList_append]
  exact ⟨rfl, fun rest all => not_cut_sign (.inr rfl) _ all⟩

theorem isSigned_of_hasExponentSign {text : String} (h : FloatLayout.HasExponentSign text.toList) :
    text.toList.any isSign = true ∧ ∀ rest all, ¬Cut (text.toList ++ rest) all := by
  obtain ⟨mantissa, sign, size, hmantissa, hsign, htext⟩ := h
  rw [htext]
  constructor
  · refine List.any_eq_true.mpr ⟨sign, by simp, ?_⟩
    rcases hsign with rfl | rfl <;> rfl
  · intro rest all
    rw [List.append_assoc, List.cons_append, List.cons_append]
    exact not_cut_exponent hmantissa hsign _ all

/-- A scalar is spelled, or it is a number with a sign and no source can be cut there. -/
theorem isSpelled_or_hasSign (cut : Cutting) {value : Scalar} (h : value.isWritten = true) :
    value.IsSpelled cut ∨
      (value.hasSign = true ∧ ∀ rest all, ¬Cut ((Literal.ofScalar value).toList ++ rest) all) := by
  cases value with
  | real value =>
    have hwords : isWord "inf" = true ∧ isWord "nan" = true := by decide
    cases value with
    | nan => exact .inl fun _ _ hbreaks tail => cut_word hwords.2 hbreaks tail
    | infinite negative =>
      cases negative with
      | false => exact .inl fun _ _ hbreaks tail => cut_word hwords.1 hbreaks tail
      | true => exact .inr (isSigned_of_minus "inf" rfl)
    | finite negative significand exponent =>
      cases negative with
      | true => exact .inr (isSigned_of_minus _ rfl)
      | false =>
        have hrender : realLayout.render (.finite false significand exponent)
            = realLayout.magnitude significand exponent := String.empty_append
        have hcases := realLayout.isNumeral_or_hasExponentSign significand exponent
        rw [← hrender] at hcases
        refine hcases.imp (fun hnumeral rest next hbreaks tail => ?_) isSigned_of_hasExponentSign
        have hcut := cut_number hnumeral hbreaks tail
        rwa [String.ofList_toList] at hcut
  | _ => exact .inl (isSpelled_of_not_isReal h rfl)

theorem isSpelled_of_hasSign_eq_false {cut : Cutting} {value : Scalar} (h : value.isWritten = true)
    (hsign : value.hasSign = false) : value.IsSpelled cut := by
  refine (isSpelled_or_hasSign cut h).resolve_right fun hsigned => ?_
  rw [hsign] at hsigned
  cases hsigned.1

/-- A scalar that can be cut is cut as its lexeme; nothing can be said of numbers with a sign, which cannot be cut. -/
theorem isSpelled_ifAtAll (known : List Lexeme → Prop) {value : Scalar} (h : value.isWritten = true) :
    value.IsSpelled (Cutting.ifAtAll known) := by
  rcases isSpelled_or_hasSign (Cutting.ifAtAll known) h with hspelled | ⟨_, hnever⟩
  · exact hspelled
  · exact fun rest _ _ _ all hall => absurd hall (hnever rest all)

/-- In a text that can be cut, no number has a sign. -/
theorem hasSign_eq_false_of_cut {value : Scalar} {input : List Char} {lexemes : List Lexeme}
    (h : Cut input lexemes) (hmem : value.lexeme ∈ lexemes) : value.hasSign = false := by
  cases value with
  | real value =>
    have htext : (real value).lexeme.text = realLayout.render value := by cases value <;> rfl
    have hliteral : ∀ text, (real value).lexeme ≠ .literal text := by cases value <;> nofun
    have hsigns := isSign_eq_false_of_cut h hmem hliteral
    rw [htext] at hsigns
    rw [hasSign, List.any_eq_false]
    exact fun c hc => Bool.eq_false_iff.mp (hsigns c hc)
  | _ => rfl

end Scalar

end GuardedLogging
