import Formula.Proofs.Number.Nearest
import Formula.Proofs.Number.Order

/-!
# Numbers that floats denote

A finite float is a rational number.  Where floats compare, these compare the same way
(`Denotes.lt`), and a float that denotes a whole number is cut to it (`Denotes.toCount_eq`).
-/

namespace Formula.Number

open Float.Model (UnpackedFloat)
open Float.Model.UnpackedFloat (Sign)

/-- The rational number that the parts make up. -/
def Parts.value (p : Parts) : ℚ := (if p.negative then -1 else 1) * (p.mantissa * 2 ^ p.exponent)

/-- Whether a float is exactly a rational number. -/
def Denotes (x : Float) (q : ℚ) : Prop := ∃ p, parts? x = some p ∧ p.value = q

/-! ## Order -/

/-- A stored magnitude that compares less is less: with a larger exponent the mantissa has all its
bits. -/
theorem Canonical.lt_of_compare {m m' : Nat} {e e' : Int} (hc : Canonical m e)
    (hc' : Canonical m' e') (h : (compare e e').then (compare m m') = .lt) :
    (m : ℚ) * 2 ^ e < m' * 2 ^ e' := by
  rcases Ordering.then_eq_lt.mp h with he | ⟨he, hm⟩
  · have hlt : e + 1 ≤ e' := Int.compare_eq_lt.mp he
    have hnormal : (2 : ℚ) ^ 52 ≤ m' := by
      exact_mod_cast hc'.normal.resolve_right (by have := hc.ge; omega)
    have hmantissa : (m : ℚ) < 2 ^ 53 := by exact_mod_cast hc.lt
    calc (m : ℚ) * 2 ^ e < 2 ^ 53 * 2 ^ e := mul_lt_mul_of_pos_right hmantissa (two_zpow_pos e)
      _ = 2 ^ 52 * 2 ^ (e + 1) := by rw [zpow_add_one₀ two_ne_zero]; ring
      _ ≤ m' * 2 ^ e' := mul_le_mul hnormal (zpow_le_zpow_right₀ one_le_two hlt)
        (two_zpow_pos _).le (Nat.cast_nonneg _)
  · obtain rfl := Int.compare_eq_eq.mp he
    have hlt : (m : ℚ) < m' := by exact_mod_cast Nat.compare_eq_lt.mp hm
    exact mul_lt_mul_of_pos_right hlt (two_zpow_pos e)

/-- What a float denotes is read off its unpacked form. -/
theorem Denotes.unpack {x : Float} {q : ℚ} (h : Denotes x q) :
    (q = 0 ∧ ∃ s, x.toModel.unpack = .zero s) ∨
      ∃ m e, ∃ hc : Canonical m e,
        q = m * 2 ^ e ∧ x.toModel.unpack = .finite .positive m e hc.pos ∨
          q = -(m * 2 ^ e) ∧ x.toModel.unpack = .finite .negative m e hc.pos := by
  obtain ⟨p, hp, rfl⟩ := h
  rcases unpack_of_parts? hp with ⟨hzero, hunpack⟩ | ⟨hc, hunpack⟩
  · exact .inl ⟨by simp [Parts.value, hzero], _, hunpack⟩
  · refine .inr ⟨_, _, hc, ?_⟩
    rw [Parts.value]
    cases hsign : p.negative with
    | false => exact .inl ⟨one_mul _, by rw [hunpack, hsign]; rfl⟩
    | true => exact .inr ⟨neg_one_mul _, by rw [hunpack, hsign]; rfl⟩

/-- A float is less than another only if the number it denotes is. -/
theorem Denotes.lt {x y : Float} {q r : ℚ} (hx : Denotes x q) (hy : Denotes y r) (h : x < y) :
    q < r := by
  rw [lt_iff_unpacked] at h
  have hpos {m : Nat} {e : Int} (hc : Canonical m e) : (0 : ℚ) < m * 2 ^ e :=
    mul_pos (Nat.cast_pos.mpr hc.pos) (two_zpow_pos e)
  rcases hx.unpack with ⟨rfl, s, hu⟩ | ⟨m, e, hc, ⟨rfl, hu⟩ | ⟨rfl, hu⟩⟩ <;>
    rcases hy.unpack with ⟨rfl, t, hv⟩ | ⟨m', e', hc', ⟨rfl, hv⟩ | ⟨rfl, hv⟩⟩ <;>
    rw [hu, hv] at h
  case inl.inr.inl => exact hpos hc'
  case inr.inl.inr.inl => exact hc.lt_of_compare hc' (Option.some.inj h)
  case inr.inr.inl => exact neg_lt_zero.mpr (hpos hc)
  case inr.inr.inr.inl => exact (neg_lt_zero.mpr (hpos hc)).trans (hpos hc')
  case inr.inr.inr.inr =>
    -- Of negative numbers that one is less whose magnitude is greater.
    have hcompare := compare_swap_magnitude m m' e e'
    rw [Ordering.swap_eq_lt.mp (Option.some.inj h)] at hcompare
    exact neg_lt_neg (hc'.lt_of_compare hc hcompare)
  all_goals cases h

theorem denotes_one : Denotes 1 1 :=
  ⟨⟨false, 2 ^ 52, -52⟩, by decide +kernel, by norm_num [Parts.value]⟩

theorem denotes_two : Denotes 2 2 :=
  ⟨⟨false, 2 ^ 52, -51⟩, by decide +kernel, by norm_num [Parts.value]⟩

/-! ## Whole numbers -/

namespace Parts

variable {p : Parts}

/-- Where the magnitude is whole nothing is cut off. -/
theorem wholePart_of_magnitude {n : Int} (h : (p.mantissa : ℚ) * 2 ^ p.exponent = n) :
    wholePart p = if p.negative then -n else n := by
  have hmagnitude : ((if 0 ≤ p.exponent then p.mantissa * twoPow p.exponent.natAbs
      else Rounding.magnitude .truncate p.negative p.mantissa p.exponent.natAbs : Nat) : Int) =
        n := by
    split
    · next hexponent =>
      obtain ⟨k, hk⟩ := Int.eq_ofNat_of_zero_le hexponent
      rw [hk, zpow_natCast] at h
      rw [hk]
      exact_mod_cast h
    · next hexponent =>
      obtain ⟨k, hk⟩ : ∃ k : Nat, p.exponent = -k := ⟨p.exponent.natAbs, by omega⟩
      rw [hk, zpow_neg, zpow_natCast, ← div_eq_mul_inv, div_eq_iff (by positivity)] at h
      have hmantissa : (p.mantissa : Int) = n * 2 ^ k := by exact_mod_cast h
      rw [hk, Int.natAbs_neg, Int.natAbs_natCast]
      show ((p.mantissa / 2 ^ k : Nat) : Int) = n
      rw [Int.natCast_div, hmantissa, Nat.cast_pow]
      exact Int.mul_ediv_cancel _ (pow_ne_zero k two_ne_zero)
  rw [wholePart, ← hmagnitude]

/-- A float whose value is whole is its whole part. -/
theorem wholePart_of_value {i : Int} (h : p.value = i) : wholePart p = i := by
  rw [value] at h
  cases hsign : p.negative with
  | false =>
    rw [hsign, if_neg Bool.false_ne_true, one_mul] at h
    rw [wholePart_of_magnitude h, hsign]
    rfl
  | true =>
    rw [hsign, if_pos rfl, neg_one_mul, neg_eq_iff_eq_neg, ← Int.cast_neg] at h
    rw [wholePart_of_magnitude h, hsign]
    exact neg_neg i

end Parts

/-- A float that denotes an integer is cut to it, clamped to the bounds. -/
theorem Denotes.toIntWithin_eq {x : Float} {i : Int} (h : Denotes x i) (low high : Int) :
    toIntWithin low high x = max low (min high i) := by
  obtain ⟨p, hp, hvalue⟩ := h
  rw [toIntWithin, hp]
  dsimp only
  rw [Parts.wholePart_of_value hvalue]

section
variable {x : Float} {n : Nat} (h : Denotes x n)
include h

/-- A float that denotes a natural number counts so much, up to the greatest count. -/
theorem Denotes.toCount_eq : toCount x = min (2 ^ 64 - 1) n := by
  have hint : toIntWithin 0 (twoPow 64 - 1) x = max 0 (min ((twoPow 64 : Int) - 1) n) :=
    Denotes.toIntWithin_eq (i := n) h 0 (twoPow 64 - 1)
  have htwoPow : (twoPow 64 : Int) = 2 ^ 64 := rfl
  rw [toCount, toUnsigned, hint, htwoPow]
  omega

theorem Denotes.not_lt_one (hn : 1 ≤ n) : ¬x < 1 := by
  intro hlt
  have hone : (1 : ℚ) ≤ n := by exact_mod_cast hn
  exact (h.lt denotes_one hlt).not_ge hone

end

end Formula.Number
