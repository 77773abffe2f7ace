import Formula.Decimal.Conversion
import Formula.Proofs.Number.Magnitude
import Formula.Proofs.Number.Order
import Formula.Proofs.Number.ReadBack

/-!
# Equality of decimals

Decimals are equal when they are one number, whatever their places (`equal_iff`).  The float of a
decimal is a number (`isNaN_toFloat`); it tells whole numbers of at most 53 bits apart
(`equal_of_beq_toFloat`), but not all decimals.
-/

namespace Formula.Decimal

open Number

variable {a b c : Decimal}

/-! ## Decimals -/

/-- At a greater scale a decimal has the same coefficient with more zeros. -/
theorem signedAt_add (d : Decimal) {scale : Nat} (h : d.scale ≤ scale) (more : Nat) :
    d.signedAt (scale + more) = d.signedAt scale * tenPow more := by
  have hplaces : scale + more - d.scale = scale - d.scale + more := by omega
  have hpow : tenPow (scale - d.scale + more) = tenPow (scale - d.scale) * tenPow more :=
    Nat.pow_add ..
  rw [signedAt, hplaces, hpow, Int.natCast_mul, ← Int.mul_assoc]
  rfl

/-- Decimals are equal if they have one coefficient at the greatest scale. -/
theorem equal_iff : a.equal b = true ↔ a.signedAt maxScale = b.signedAt maxScale := by
  have hscale : max a.scale b.scale ≤ maxScale := Nat.max_le.mpr ⟨a.scale_le, b.scale_le⟩
  obtain ⟨more, hmore⟩ := Nat.exists_eq_add_of_le hscale
  have hne : (tenPow more : Int) ≠ 0 := Int.natCast_ne_zero.mpr (tenPow_pos more).ne'
  rw [equal, beq_iff_eq, compare, Int.compare_eq_eq, hmore,
    signedAt_add a (Nat.le_max_left ..), signedAt_add b (Nat.le_max_right ..)]
  exact (Int.mul_eq_mul_right_iff hne).symm

theorem equal_comm (a b : Decimal) : a.equal b = b.equal a := by
  rw [Bool.eq_iff_iff, equal_iff, equal_iff]
  exact eq_comm

theorem equal_trans (hab : a.equal b = true) (hbc : b.equal c = true) : a.equal c = true := by
  rw [equal_iff] at *
  exact hab.trans hbc

theorem equal_self (a : Decimal) : a.equal a = true := equal_iff.mpr rfl

/-! ## Their floats -/

/-- The powers of ten that a decimal is scaled by are finite as floats, and not zero. -/
theorem isScale_tenPow {scale : Nat} (h : scale ≤ maxScale) :
    IsScale (Float.ofNat (tenPow scale)) ∧ IsScale (powInt 10 scale) := by
  have hall : ∀ scale : Fin 29,
      ((parts? (Float.ofNat (tenPow scale.val))).any fun p => !p.negative && p.mantissa ≠ 0) ∧
      ((parts? (powInt 10 scale.val)).any fun p => !p.negative && p.mantissa ≠ 0) := by
    decide +kernel
  obtain ⟨hunit, hfactor⟩ := hall ⟨scale, Nat.lt_succ_of_le h⟩
  obtain ⟨p, hp, hscale⟩ := (Option.any_eq_true _ _).mp hunit
  obtain ⟨q, hq, hscale'⟩ := (Option.any_eq_true _ _).mp hfactor
  exact ⟨isScale_of_parts? hp (by simpa using hscale),
    isScale_of_parts? hq (by simpa using hscale')⟩

/-- The float of either sign is a number if that of the magnitude is. -/
theorem isNaN_signed {x : Float} (hx : IsMagnitude x) (negative : Prop) [Decidable negative] :
    (if negative then -x else x).isNaN = false := by
  split
  · exact isNaN_neg hx.isNaN_eq_false
  · exact hx.isNaN_eq_false

/-- The float of a decimal is a number. -/
theorem isNaN_toFloat (d : Decimal) : d.toFloat.isNaN = false := by
  obtain ⟨hunit, hfactor⟩ := isScale_tenPow d.scale_le
  have hwhole := isMagnitude_ofNat (d.coefficient / tenPow d.scale)
  have hfraction := (isMagnitude_ofNat (d.coefficient % tenPow d.scale)).div hunit
  rw [toFloat]
  split
  · exact isNaN_signed (isMagnitude_ofNat _) _
  · dsimp only
    refine isNaN_signed ?_ _
    split
    · exact hwhole
    · exact (((hwhole.add hfraction).mul hfactor).round .halfAway).div hfactor

/-! ## Whole numbers -/

/-- The float of a whole number that is not zero has its sign and magnitude, if 53 bits hold it. -/
theorem toFloat_eq_stored (hscale : a.scale = 0) (hlt : a.coefficient < 2 ^ 53)
    (hne : a.coefficient ≠ 0) : ∃ M E, ∃ hc : Canonical M E,
      (M : ℚ) * 2 ^ E = a.coefficient ∧ a.toFloat = stored a.negative hc := by
  obtain ⟨M, E, hc, hvalue, hofNat⟩ := ofNat_eq_stored hlt (Nat.pos_of_ne_zero hne)
  refine ⟨M, E, hc, hvalue, ?_⟩
  rw [toFloat, if_pos hscale, hofNat]
  cases a.negative with
  | false => rw [if_neg (fun h => Bool.false_ne_true h.1)]
  | true => rw [if_pos ⟨rfl, hne⟩, neg_stored]

theorem toFloat_zero (hscale : a.scale = 0) (hzero : a.coefficient = 0) : a.toFloat = 0 := by
  rw [toFloat, if_pos hscale, if_neg (fun h => h.2 hzero), hzero]
  rfl

theorem equal_of_whole (ha : a.scale = 0) (hb : b.scale = 0)
    (h : a.signedCoefficient = b.signedCoefficient) : a.equal b = true := by
  rw [equal_iff, signedAt, signedAt, ha, hb, h]

/-- Whole numbers that 53 bits hold are equal if their floats are. -/
theorem equal_of_beq_toFloat (ha : a.scale = 0 ∧ a.coefficient < 2 ^ 53)
    (hb : b.scale = 0 ∧ b.coefficient < 2 ^ 53) (h : (a.toFloat == b.toFloat) = true) :
    a.equal b = true := by
  refine equal_of_whole ha.1 hb.1 ?_
  by_cases hazero : a.coefficient = 0
  · by_cases hbzero : b.coefficient = 0
    · simp [signedCoefficient, hazero, hbzero]
    · obtain ⟨M, E, hc, -, hstored⟩ := toFloat_eq_stored hb.1 hb.2 hbzero
      rw [toFloat_zero ha.1 hazero, hstored, beq_comm, stored_bne_zero] at h
      cases h
  · obtain ⟨M, E, hc, hvalue, hstored⟩ := toFloat_eq_stored ha.1 ha.2 hazero
    rw [hstored] at h
    by_cases hbzero : b.coefficient = 0
    · rw [toFloat_zero hb.1 hbzero, stored_bne_zero] at h
      cases h
    · obtain ⟨M', E', hc', hvalue', hstored'⟩ := toFloat_eq_stored hb.1 hb.2 hbzero
      rw [hstored'] at h
      obtain ⟨hnegative, rfl, rfl⟩ := eq_of_beq_stored h
      have hcoefficient : a.coefficient = b.coefficient := by
        exact_mod_cast hvalue.symm.trans hvalue'
      rw [signedCoefficient, signedCoefficient, hcoefficient, hnegative]

end Formula.Decimal
