import Formula.Number.Reading
import Formula.Number.Text
import Mathlib.Algebra.Order.Field.Rat

/-!
# Digits and their values

The digits of a natural number stand for that number again, and there are as many of them as its
size says.
-/

namespace Formula.Number

/-! ## Values -/

theorem digitsValue_decimalDigits (n : Nat) : digitsValue 0 (decimalDigits n) = n :=
  Nat.ofDigitChars_ten_toDigits

theorem digitsValue_append (n : Nat) (digits digits' : List Char) :
    digitsValue n (digits ++ digits') = digitsValue (digitsValue n digits) digits' :=
  Nat.ofDigitChars_append n

theorem digitsValue_zeros (n count : Nat) :
    digitsValue n (List.replicate count '0') = 10 ^ count * n := Nat.ofDigitChars_replicate_zero

/-! ## Counts -/

theorem digitCount_pos (n : Nat) : 0 < digitCount n := Nat.length_toDigits_pos

theorem digitCount_le_iff {n k : Nat} (hk : 0 < k) : digitCount n ≤ k ↔ n < 10 ^ k :=
  Nat.length_toDigits_le_iff (by decide) hk

/-- A natural number lies between the powers of ten that its digits tell. -/
theorem digitCount_bounds {n : Nat} (hn : 0 < n) :
    10 ^ (digitCount n - 1) ≤ n ∧ n < 10 ^ digitCount n := by
  refine ⟨?_, (digitCount_le_iff (digitCount_pos n)).mp (Nat.le_refl _)⟩
  by_cases hone : digitCount n - 1 = 0
  · rw [hone, Nat.pow_zero]
    exact hn
  · refine Nat.not_lt.mp fun hlt => ?_
    have hle := (digitCount_le_iff (Nat.pos_of_ne_zero hone)).mpr hlt
    have hcount := digitCount_pos n
    omega

end Formula.Number
