import Formula.Proofs.Number.Digits
import Formula.Proofs.Number.Stored
import Mathlib.Tactic.LinearCombination

/-!
# Decimals read as the nearest float

A decimal is read as the float in whose interval it lies (`ofScientific_eq`).  Small ones are
multiplied or divided as floats, with a power of ten that is one itself; others are multiplied or
divided exactly, and rounded then.
-/

namespace Formula.Number

open Float.Model (Format UnpackedFloat totalExponent)
open Float.Model.UnpackedFloat

variable {M : Nat} {E : Int}

/-! ## Operations on unpacked floats -/

theorem describes_exact (m : Nat) : Describes .exact ((m : ℚ) - m) := sub_self _

/-- The accuracy of a fraction below one says whether it is zero, below a half, a half or above. -/
theorem describes_fraction {num den : Nat} (h : num < den) :
    Describes (accuracyOfFraction num den) (num / den) := by
  have hden : (0 : ℚ) < den := by exact_mod_cast Nat.zero_lt_of_lt h
  rw [accuracyOfFraction]
  split
  · next hzero =>
    rw [hzero, Nat.cast_zero, zero_div]
    rfl
  · next hne =>
    have hpos : (0 : ℚ) < num := by exact_mod_cast Nat.pos_of_ne_zero hne
    rcases lt_trichotomy (2 * num) den with hlt | heq | hgt
    · rw [Nat.compare_eq_lt.mpr hlt]
      have hlt : (2 * num : ℚ) < den := by exact_mod_cast hlt
      refine ⟨div_pos hpos hden, ?_⟩
      rw [div_lt_div_iff₀ hden two_pos]
      linarith
    · rw [Nat.compare_eq_eq.mpr heq]
      have heq : (2 * num : ℚ) = den := by exact_mod_cast heq
      show (num : ℚ) / den = 1 / 2
      rw [div_eq_div_iff hden.ne' two_ne_zero]
      linarith
    · rw [Nat.compare_eq_gt.mpr hgt]
      have hgt : (den : ℚ) < 2 * num := by exact_mod_cast hgt
      have hlt : (num : ℚ) < den := by exact_mod_cast h
      refine ⟨?_, (div_lt_one₀ hden).mpr hlt⟩
      rw [div_lt_div_iff₀ two_pos hden]
      linarith

/-- What a division leaves says where the fraction of the quotient lies. -/
theorem describes_quotient (num : Nat) {den : Nat} (h : 0 < den) :
    Describes (accuracyOfFraction (num % den) den) ((num : ℚ) / den - (num / den : Nat)) := by
  have hden : (den : ℚ) ≠ 0 := by exact_mod_cast h.ne'
  have hdiv : (num : ℚ) = den * (num / den : Nat) + (num % den : Nat) := by
    exact_mod_cast (Nat.div_add_mod num den).symm
  have hfraction : (num : ℚ) / den - (num / den : Nat) = (num % den : Nat) / den := by
    conv_lhs => rw [hdiv]
    rw [add_div, mul_div_cancel_left₀ _ hden, add_sub_cancel_left]
  rw [hfraction]
  exact describes_fraction (Nat.mod_lt _ h)

/-- A product of floats is the float that it rounds to, if there are enough bits. -/
theorem mul_finite (hc : Canonical M E) {m₁ m₂ : Nat} {e₁ e₂ : Int} {h₁ : 0 < m₁} {h₂ : 0 < m₂}
    (hbits : 52 ≤ (m₁ * m₂).log2) (hr : Rounds M E (m₁ * 2 ^ e₁ * (m₂ * 2 ^ e₂))) :
    mul Format.binary64 (.finite .positive m₁ e₁ h₁) (.finite .positive m₂ e₂ h₂) =
      .finite .positive M E hc.pos := by
  have hproduct : (m₁ * 2 ^ e₁ * (m₂ * 2 ^ e₂) : ℚ) = (m₁ * m₂ : Nat) * 2 ^ (e₁ + e₂) := by
    rw [zpow_add₀ two_ne_zero]
    push_cast
    ring
  rw [hproduct] at hr
  exact roundWithAccuracy_eq hc (describes_exact _) (.inl hbits) hr .positive

/-- The exponent at which a quotient is taken, so low that the quotient has enough bits. -/
def quotientExponent (m₁ : Nat) (e₁ : Int) (m₂ : Nat) (e₂ : Int) : Int :=
  min (e₁ - e₂) (max (m₁.log2 + e₁ - (m₂.log2 + e₂) - 53) (-1074))

/-- A division shifts the dividend so far that the quotient has bits to spare, and keeps what the
remainder says of the rest. -/
theorem divCore_eq (m₁ : Nat) (e₁ : Int) (m₂ : Nat) (e₂ : Int) {shift : Nat}
    (hshift : (shift : Int) = e₁ - e₂ - quotientExponent m₁ e₁ m₂ e₂) :
    divCore Format.binary64 m₁ e₁ m₂ e₂ = (m₁ * 2 ^ shift / m₂, quotientExponent m₁ e₁ m₂ e₂,
      accuracyOfFraction (m₁ * 2 ^ shift % m₂) m₂) := by
  have htarget : min (e₁ - e₂)
      (Format.binary64.targetExponent (totalExponent m₁ e₁ - totalExponent m₂ e₂)) =
        quotientExponent m₁ e₁ m₂ e₂ := by
    show min (e₁ - e₂)
      (max ((m₁.log2 : Int) + 1 + e₁ - (m₂.log2 + 1 + e₂) - 53) (-1074)) = _
    rw [quotientExponent]
    omega
  have htoNat : (e₁ - e₂ - quotientExponent m₁ e₁ m₂ e₂).toNat = shift := by omega
  rw [divCore, htarget, htoNat, Nat.shiftLeft_eq]

/-- A quotient has enough bits. -/
theorem log2_quotient {m₁ m₂ shift : Nat} (h₁ : 0 < m₁) (h₂ : 0 < m₂)
    (h : 53 + m₂.log2 ≤ m₁.log2 + shift) : 52 ≤ (m₁ * 2 ^ shift / m₂).log2 := by
  have hle : 2 ^ 52 ≤ m₁ * 2 ^ shift / m₂ := by
    rw [Nat.le_div_iff_mul_le h₂]
    calc 2 ^ 52 * m₂ ≤ 2 ^ 52 * 2 ^ (m₂.log2 + 1) :=
          Nat.mul_le_mul_left _ Nat.lt_log2_self.le
      _ = 2 ^ (53 + m₂.log2) := by rw [← pow_add]; ring
      _ ≤ 2 ^ (m₁.log2 + shift) := Nat.pow_le_pow_right two_pos h
      _ = 2 ^ m₁.log2 * 2 ^ shift := pow_add ..
      _ ≤ m₁ * 2 ^ shift := Nat.mul_le_mul_right _ (Nat.log2_self_le h₁.ne')
  exact (Nat.le_log2 (Nat.zero_lt_of_lt hle).ne').mpr hle

/-- A quotient of floats is the float that it rounds to. -/
theorem div_finite (hc : Canonical M E) {m₁ m₂ : Nat} {e₁ e₂ : Int} {h₁ : 0 < m₁} {h₂ : 0 < m₂}
    (hr : Rounds M E (m₁ * 2 ^ e₁ / (m₂ * 2 ^ e₂))) :
    div Format.binary64 (.finite .positive m₁ e₁ h₁) (.finite .positive m₂ e₂ h₂) =
      .finite .positive M E hc.pos := by
  obtain ⟨shift, hshift⟩ : ∃ shift : Nat,
      (shift : Int) = e₁ - e₂ - quotientExponent m₁ e₁ m₂ e₂ := by
    refine Int.eq_ofNat_of_zero_le ?_ |>.imp fun _ h => h.symm
    rw [quotientExponent]
    omega
  have hbits : 52 ≤ (m₁ * 2 ^ shift / m₂).log2 ∨ quotientExponent m₁ e₁ m₂ e₂ ≤ -1074 := by
    by_cases hleast : quotientExponent m₁ e₁ m₂ e₂ ≤ -1074
    · exact .inr hleast
    · left
      refine log2_quotient h₁ h₂ ?_
      rw [quotientExponent] at hshift hleast
      omega
  -- The quotient at that exponent is the quotient of the floats.
  have hm₂ : (m₂ : ℚ) ≠ 0 := by exact_mod_cast h₂.ne'
  have hquotient : (m₁ * 2 ^ e₁ / (m₂ * 2 ^ e₂) : ℚ) =
      ((m₁ * 2 ^ shift : Nat) : ℚ) / m₂ * 2 ^ quotientExponent m₁ e₁ m₂ e₂ := by
    have he₁ : e₁ = shift + quotientExponent m₁ e₁ m₂ e₂ + e₂ := by omega
    have hpower : (2 : ℚ) ^ e₁ = 2 ^ shift * 2 ^ quotientExponent m₁ e₁ m₂ e₂ * 2 ^ e₂ := by
      conv_lhs => rw [he₁]
      rw [zpow_add₀ two_ne_zero, zpow_add₀ two_ne_zero, zpow_natCast]
    have he₂ := (two_zpow_pos e₂).ne'
    rw [hpower]
    push_cast
    field_simp
  rw [hquotient] at hr
  have hround := roundWithAccuracy_eq hc (a := accuracyOfFraction (m₁ * 2 ^ shift % m₂) m₂)
    (describes_quotient _ h₂) hbits hr .positive
  have hdiv : div Format.binary64 (.finite .positive m₁ e₁ h₁) (.finite .positive m₂ e₂ h₂) =
      roundWithAccuracy Format.binary64 .positive (divCore Format.binary64 m₁ e₁ m₂ e₂).1
        (divCore Format.binary64 m₁ e₁ m₂ e₂).2.1 (divCore Format.binary64 m₁ e₁ m₂ e₂).2.2 := rfl
  rw [hdiv, divCore_eq m₁ e₁ m₂ e₂ hshift]
  exact hround

/-! ## Whole numbers and powers of ten -/

/-- A natural number of at most 53 bits is a float. -/
theorem exists_ofNat {m : Nat} (hpos : 0 < m) (hlt : m < 2 ^ 53) :
    ∃ M E, ∃ hc : Canonical M E, (M : ℚ) * 2 ^ E = m ∧ 2 ^ 52 ≤ M ∧
      UnpackedFloat.ofNat Format.binary64 m = .finite .positive M E hc.pos := by
  have hlog : m.log2 < 53 := (Nat.log2_lt hpos.ne').mpr hlt
  obtain ⟨shift, hshift⟩ : ∃ shift, m.log2 + shift = 52 := ⟨52 - m.log2, by omega⟩
  have hlow : 2 ^ 52 ≤ m * 2 ^ shift := by
    calc 2 ^ 52 = 2 ^ m.log2 * 2 ^ shift := by rw [← pow_add, hshift]
      _ ≤ m * 2 ^ shift := Nat.mul_le_mul_right _ (Nat.log2_self_le hpos.ne')
  have hhigh : m * 2 ^ shift < 2 ^ 53 := by
    calc m * 2 ^ shift < 2 ^ (m.log2 + 1) * 2 ^ shift :=
          Nat.mul_lt_mul_of_pos_right Nat.lt_log2_self (Nat.two_pow_pos _)
      _ = 2 ^ 53 := by rw [← pow_add]; congr 1; omega
  have hc : Canonical (m * 2 ^ shift) (-shift) := .of_normal hlow hhigh (by omega) (by omega)
  have hvalue : ((m * 2 ^ shift : Nat) : ℚ) * 2 ^ (-shift : Int) = m := by
    rw [zpow_neg, zpow_natCast]
    push_cast
    field_simp
  refine ⟨_, _, hc, hvalue, hlow, ?_⟩
  have hround : UnpackedFloat.ofNat Format.binary64 m =
      UnpackedFloat.round Format.binary64 .positive m 0 := by
    rw [UnpackedFloat.ofNat, UnpackedFloat.ofInt, UnpackedFloat.normalize,
      Int.compare_eq_gt.mpr (by omega : (0 : Int) < m)]
    rfl
  have htarget : Format.binary64.targetExponent (totalExponent m 0) = -shift := by
    show max ((m.log2 : Int) + 1 + 0 - 53) (-1074) = _
    omega
  have hdecreased : decreaseExponent m 0 (-shift) = (m * 2 ^ shift, -(shift : Int)) := by
    rw [decreaseExponent, show ((0 : Int) - -shift).toNat = shift by omega, Nat.shiftLeft_eq]
    rw [zero_sub]
  rw [hround, UnpackedFloat.round, htarget, hdecreased]
  exact roundWithAccuracy_eq hc (describes_exact _)
    (.inl ((Nat.le_log2 hc.pos.ne').mpr hlow)) (rounds_self _ _) .positive

/-- Whether the parts of a number are those of a power of ten. -/
def ArePowerOfTen (e : Nat) (p : Parts) : Prop :=
  p.negative = false ∧ -52 ≤ p.exponent ∧
    p.mantissa * twoPow (p.exponent + 52).toNat = tenPow e * twoPow 52

instance (e : Nat) (p : Parts) : Decidable (ArePowerOfTen e p) :=
  inferInstanceAs (Decidable (_ ∧ _ ∧ _))

/-- The parts of a power of ten have exactly its value; both sides are compared at the least
exponent. -/
theorem ArePowerOfTen.value_eq {e : Nat} {p : Parts} (h : ArePowerOfTen e p) :
    (p.mantissa : ℚ) * 2 ^ p.exponent = 10 ^ e := by
  obtain ⟨-, hge, hvalue⟩ := h
  have hvalue : (p.mantissa : ℚ) * 2 ^ (p.exponent + 52).toNat = 10 ^ e * 2 ^ 52 := by
    exact_mod_cast hvalue
  have hpower : (2 : ℚ) ^ (p.exponent + 52).toNat = 2 ^ p.exponent * 2 ^ 52 := by
    rw [← zpow_natCast, Int.toNat_of_nonneg (by omega), zpow_add₀ two_ne_zero]
    norm_cast
  rw [hpower, ← mul_assoc] at hvalue
  exact mul_right_cancel₀ (by norm_num) hvalue

/-- The floats for small powers of ten are these powers. -/
theorem exists_powerOfTen {e : Nat} (he : e < 23) : ∃ M E, ∃ h : 0 < M,
    (Float.exactlyRepresentablePowersOfTen[e]).toModel.unpack = .finite .positive M E h ∧
      (M : ℚ) * 2 ^ E = 10 ^ e := by
  have hall : ∀ e : Fin 23, ((parts? (Float.exactlyRepresentablePowersOfTen[e.val])).any
      fun p => ArePowerOfTen e p) = true := by
    decide +kernel
  obtain ⟨p, hp, hpower⟩ := (Option.any_eq_true _ _).mp (hall ⟨e, he⟩)
  have hpower := of_decide_eq_true hpower
  have hvalue := hpower.value_eq
  rcases unpack_of_parts? hp with ⟨hzero, -⟩ | ⟨hc, hunpack⟩
  · rw [hzero, Nat.cast_zero, zero_mul] at hvalue
    exact absurd hvalue (pow_pos (by norm_num) e).ne
  · rw [hpower.1] at hunpack
    exact ⟨_, _, hc.pos, hunpack, hvalue⟩

/-! ## Decimals -/

theorem ten_zpow_pos (e : Int) : (0 : ℚ) < 10 ^ e := zpow_pos (by norm_num) e

theorem ten_zpow_lt_iff {e e' : Int} : (10 : ℚ) ^ e < 10 ^ e' ↔ e < e' :=
  zpow_lt_zpow_iff_right₀ (by norm_num)

theorem ten_zpow_add (k : Nat) (e : Int) : (10 : ℚ) ^ (k + e) = 10 ^ k * 10 ^ e := by
  rw [zpow_add₀ (by norm_num), zpow_natCast]

/-- A decimal that rounds to a float has its first digit within the range of floats. -/
theorem magnitude_mem (hc : Canonical M E) {m k : Nat} {e : Int}
    (hr : Rounds M E (m * 10 ^ e)) : (10 ^ k ≤ m → k + e < 309) ∧ (m < 10 ^ k → -324 < k + e) := by
  have hpos := ten_zpow_pos e
  refine ⟨fun hle => ?_, fun hlt => ?_⟩
  · have hle : (10 ^ k : ℚ) ≤ m := by exact_mod_cast hle
    rw [← ten_zpow_lt_iff, ten_zpow_add]
    exact (mul_le_mul_of_nonneg_right hle hpos.le).trans_lt (hr.lt hc)
  · have hlt : (m : ℚ) < 10 ^ k := by exact_mod_cast hlt
    rw [← ten_zpow_lt_iff, ten_zpow_add]
    exact (hr.ge hc).trans_lt (mul_lt_mul_of_pos_right hlt hpos)

/-- The exact way of reading a decimal gives the float that it rounds to. -/
theorem ofScientific_finite (hc : Canonical M E) {m : Nat} {e : Int} (hm : 0 < m)
    (hr : Rounds M E (m * 10 ^ e)) :
    UnpackedFloat.ofScientific Format.binary64 m e = .finite .positive M E hc.pos := by
  have hlarge : ¬ e > 2 ^ 11 := by
    have hlt := (magnitude_mem hc (k := 0) hr).1 hm
    push_cast at hlt
    omega
  have hsmall : ¬ e < -((2 ^ 11 : Int) + m.log2) := by
    have hlt : m < 10 ^ (m.log2 + 1) :=
      Nat.lt_log2_self.trans_le (Nat.pow_le_pow_left (by decide) _)
    have hgt := (magnitude_mem hc hr).2 hlt
    push_cast at hgt
    omega
  rw [UnpackedFloat.ofScientific, dif_neg hm.ne', if_neg hlarge, if_neg hsmall]
  rcases le_or_gt 0 e with he | he
  · rw [if_pos he]
    obtain ⟨k, rfl⟩ := Int.eq_ofNat_of_zero_le he
    have hshifted : m <<< Format.binary64.mantissaBits = m * 2 ^ 53 := Nat.shiftLeft_eq m 53
    have hbits : 2 ^ 52 ≤ m <<< Format.binary64.mantissaBits * 10 ^ k := by
      rw [hshifted]
      calc 2 ^ 52 ≤ 1 * 2 ^ 53 * 1 := by decide
        _ ≤ m * 2 ^ 53 * 10 ^ k :=
          Nat.mul_le_mul (Nat.mul_le_mul_right _ hm) (Nat.one_le_pow _ _ (by decide))
    have hvalue : ((m <<< Format.binary64.mantissaBits : Nat) : ℚ) *
        2 ^ (-Format.binary64.mantissaBits : Int) * ((10 ^ k : Nat) * 2 ^ (0 : Int)) =
        m * 10 ^ (k : Int) := by
      rw [hshifted, show (-Format.binary64.mantissaBits : Int) = -53 from rfl]
      have hone : (2 : ℚ) ^ 53 * 2 ^ (-53 : Int) = 1 := by norm_num
      rw [zpow_natCast]
      push_cast
      linear_combination (m : ℚ) * 10 ^ k * hone
    refine mul_finite hc ((Nat.le_log2 (Nat.zero_lt_of_lt hbits).ne').mpr hbits) ?_
    rw [Int.toNat_natCast, hvalue]
    exact hr
  · rw [if_neg he.not_ge]
    obtain ⟨k, rfl⟩ : ∃ k : Nat, e = -k := ⟨(-e).toNat, by omega⟩
    have hvalue : (m : ℚ) * 2 ^ (0 : Int) / ((10 ^ k : Nat) * 2 ^ (0 : Int)) =
        m * 10 ^ (-k : Int) := by
      rw [zpow_neg, zpow_natCast]
      push_cast
      rw [mul_one, mul_one, div_eq_mul_inv]
    refine div_finite hc ?_
    rw [neg_neg, Int.toNat_natCast, hvalue]
    exact hr

/-- The float `mantissa · 2 ^ exponent`. -/
def stored (negative : Bool) (hc : Canonical M E) : Float :=
  .ofModel (.pack (.finite (signOf negative) M E hc.pos))

theorem toModel_stored (negative : Bool) (hc : Canonical M E) :
    (stored negative hc).toModel.unpack = .finite (signOf negative) M E hc.pos :=
  unpack_pack hc negative

section
variable {x y : Float} {m₁ m₂ : Nat} {e₁ e₂ : Int} {h₁ : 0 < m₁} {h₂ : 0 < m₂}
  (hx : x.toModel.unpack = .finite .positive m₁ e₁ h₁)
  (hy : y.toModel.unpack = .finite .positive m₂ e₂ h₂)
include hx hy

/-- A product is the stored float that it is rounded to, if the product of the mantissas has enough
bits. -/
theorem mul_eq_stored (hc : Canonical M E) (hbits : 52 ≤ (m₁ * m₂).log2)
    (hr : Rounds M E (m₁ * 2 ^ e₁ * (m₂ * 2 ^ e₂))) : x * y = stored false hc := by
  have hmul : x * y =
      .ofModel (.pack (mul Format.binary64 x.toModel.unpack y.toModel.unpack)) := rfl
  rw [hmul, hx, hy, mul_finite hc hbits hr]
  rfl

/-- A quotient is the stored float that it is rounded to. -/
theorem div_eq_stored (hc : Canonical M E) (hr : Rounds M E (m₁ * 2 ^ e₁ / (m₂ * 2 ^ e₂))) :
    x / y = stored false hc := by
  have hdiv : x / y =
      .ofModel (.pack (div Format.binary64 x.toModel.unpack y.toModel.unpack)) := rfl
  rw [hdiv, hx, hy, div_finite hc hr]
  rfl

end

/-- A decimal is read as the float that it rounds to, whichever way is taken. -/
theorem float_ofScientific (hc : Canonical M E) {m : Nat} {e : Int} (hm : 0 < m)
    (hr : Rounds M E (m * 10 ^ e)) :
    Float.ofScientific m (e < 0) e.natAbs = stored false hc := by
  rw [Float.ofScientific]
  dsimp only
  split
  · next h =>
    obtain ⟨M₁, E₁, hc₁, hvalue₁, hnormal, hunpack₁⟩ := exists_ofNat hm h.1
    obtain ⟨M₂, E₂, h₂, hy, hvalue₂⟩ := exists_powerOfTen (Nat.lt_succ_of_le h.2)
    have hx : m.toUInt64.toFloat.toModel.unpack = .finite .positive M₁ E₁ hc₁.pos := by
      have htoNat : m.toUInt64.toNat = m := UInt64.toNat_ofNat_of_lt (h.1.trans (by decide))
      have hmodel : m.toUInt64.toFloat.toModel =
          .pack (UnpackedFloat.ofNat Format.binary64 m.toUInt64.toNat) := rfl
      rw [hmodel, htoNat, hunpack₁]
      exact unpack_pack hc₁ false
    split
    · next he =>
      have hpower : (10 : ℚ) ^ e = (10 ^ e.natAbs)⁻¹ := by
        rw [← zpow_natCast, ← zpow_neg, Int.ofNat_natAbs_of_nonpos (of_decide_eq_true he).le,
          neg_neg]
      refine div_eq_stored hx hy hc ?_
      rw [hvalue₁, hvalue₂, div_eq_mul_inv, ← hpower]
      exact hr
    · next he =>
      have hbits : 2 ^ 52 ≤ M₁ * M₂ := hnormal.trans (Nat.le_mul_of_pos_right _ h₂)
      refine mul_eq_stored hx hy hc ((Nat.le_log2 (Nat.zero_lt_of_lt hbits).ne').mpr hbits) ?_
      have hpower : (10 : ℚ) ^ e = 10 ^ e.natAbs := by
        rw [← zpow_natCast, Int.natAbs_of_nonneg (not_lt.mp fun h => he (decide_eq_true h))]
      rw [hvalue₁, hvalue₂, ← hpower]
      exact hr
  · have hexponent : (if decide (e < 0) = true then Int.negOfNat e.natAbs else
        Int.ofNat e.natAbs) = e := by
      simp only [decide_eq_true_eq, Int.negOfNat_eq, Int.ofNat_eq_natCast]
      split <;> omega
    show Float.ofModel (.pack (UnpackedFloat.ofScientific Format.binary64 m _)) = _
    rw [hexponent, ofScientific_finite hc hm hr]
    rfl

/-- A decimal is read as the float that it rounds to. -/
theorem ofScientific_eq (hc : Canonical M E) {m : Nat} {e : Int} (hr : Rounds M E (m * 10 ^ e)) :
    ofScientific m e = stored false hc := by
  have hm : 0 < m := by
    refine Nat.pos_of_ne_zero ?_
    rintro rfl
    have hge := hr.ge hc
    rw [Nat.cast_zero, zero_mul] at hge
    exact absurd (ten_zpow_pos (-324)) (not_lt.mpr hge)
  -- The first digit stands within the range of floats.
  have hcount := digitCount_pos m
  obtain ⟨hle, hlt⟩ := digitCount_bounds hm
  have hhigh := (magnitude_mem hc hr).1 hle
  have hlow := (magnitude_mem hc hr).2 hlt
  rw [ofScientific, if_neg hm.ne', if_neg, if_neg]
  · exact float_ofScientific hc hm hr
  · show ¬ (digitCount m : Int) + e < -330
    omega
  · show ¬ 310 < (digitCount m : Int) + e
    omega

end Formula.Number
