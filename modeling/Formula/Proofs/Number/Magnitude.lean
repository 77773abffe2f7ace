import Formula.Proofs.Number.Nearest
import Formula.Proofs.Number.Order
import Formula.Proofs.Number.Sign

/-!
# Floats that are numbers

A natural number is read as a float that is a number without a negative sign.  So is a sum of two
such floats, and the product and the quotient by a float that is finite and not zero.  Packing keeps
what is not a number apart from what is: a packed number is unpacked as one (`isNaN_unpack_pack`).
-/

namespace Formula.Number

open Float.Model (UnpackedFloat Format)
open Float.Model.UnpackedFloat

/-! ## Packing a number -/

/-- Bits whose exponent is not the greatest, or whose mantissa is zero, are those of a number. -/
theorem isNaN_unpack {bits : BitVec 64}
    (h : bits.toNat / 2 ^ 52 % 2 ^ 11 ≠ 2047 ∨ bits.toNat % 2 ^ 52 = 0) :
    (unpack Format.binary64 bits).isNaN = false := by
  rw [← toNat_unpackExponent, ← toNat_unpackMantissa] at h
  have hmax : @unpackExponent Format.binary64 bits = -1#11 ↔
      (@unpackExponent Format.binary64 bits).toNat = 2047 := by
    rw [← BitVec.toNat_inj]
    rfl
  have hnone : @unpackMantissa Format.binary64 bits = 0#52 ↔
      (@unpackMantissa Format.binary64 bits).toNat = 0 := by
    rw [← BitVec.toNat_inj]
    rfl
  replace h := h.imp (mt hmax.mp) hnone.mpr
  delta unpack
  refine iteInduction (motive := (UnpackedFloat.isNaN · = false)) (fun hexponent => ?_) fun _ => ?_
  · rw [if_pos (h.resolve_left (not_not_intro hexponent))]
    rfl
  · refine iteInduction (motive := (UnpackedFloat.isNaN · = false)) (fun _ => ?_) fun _ => rfl
    exact dite_induction (motive := (UnpackedFloat.isNaN · = false)) (fun _ => rfl) fun _ => rfl

/-- What is packed is a number unless the exponent is the greatest and the mantissa is not zero. -/
theorem isNaN_packComponents (sign : Sign) {exponent : BitVec 11} {mantissa : BitVec 52}
    (h : exponent.toNat ≠ 2047 ∨ mantissa = 0#52) :
    (unpack Format.binary64 (packComponents Format.binary64 sign exponent mantissa)).isNaN =
      false := by
  have he := exponent.isLt
  have hm := mantissa.isLt
  apply isNaN_unpack
  rw [toNat_packComponents]
  rcases h with h | rfl
  · omega
  · rw [BitVec.toNat_ofNat]
    omega

/-- What is packed as a number is unpacked as one. -/
theorem isNaN_unpack_pack {a : UnpackedFloat} (h : a.isNaN = false) :
    (Float.Model.pack a).unpack.isNaN = false := by
  show (unpack Format.binary64 (pack Format.binary64 a)).isNaN = false
  cases a with
  | notANumber => cases h
  | infinity sign => exact isNaN_packComponents sign (.inr rfl)
  | zero sign => exact isNaN_packComponents sign (.inr rfl)
  | finite sign m e hm =>
    rw [pack.eq_def]
    dsimp only
    split
    · exact isNaN_packComponents sign (.inr rfl)
    · split
      · -- The exponent is too small for an infinity.
        refine isNaN_packComponents sign (.inl ?_)
        rw [BitVec.toNat_ofNat]
        have hle := Nat.mod_le (e + Format.binary64.exponentBias +
          Format.binary64.mantissaBitsWithoutImplicit).toNat (2 ^ Format.binary64.exponentBits)
        have hbits : (2 : Nat) ^ Format.binary64.exponentBits = 2048 := rfl
        omega
      · exact isNaN_packComponents sign (.inl (by decide))

/-- The negative of a number is one, since only the sign changes when it is packed. -/
theorem isNaN_neg {x : Float} (h : x.isNaN = false) : (-x).isNaN = false := by
  have hneg : x.toModel.unpack.neg.isNaN = false := by
    have h : x.toModel.unpack.isNaN = false := h
    cases hx : x.toModel.unpack with
    | notANumber => rw [hx] at h; cases h
    | infinity | zero | finite => rfl
  exact isNaN_unpack_pack hneg

/-! ## Unpacked numbers without a negative sign -/

/-- Whether an unpacked float is a number without a negative sign. -/
def IsNonneg : UnpackedFloat → Prop
  | .infinity sign | .zero sign | .finite sign _ _ _ => sign = .positive
  | .notANumber => False

theorem isNonneg_iff {a : UnpackedFloat} : IsNonneg a ↔ IsPositive a ∧ a.isNaN = false := by
  cases a with
  | notANumber => exact ⟨False.elim, fun h => Bool.true_eq_false.mp h.2⟩
  | infinity | zero | finite => exact (and_iff_left rfl).symm

theorem isNonneg_round (spec : Format) (mantissa : Nat) (exponent : Int) (accuracy : Accuracy) :
    IsNonneg (roundWithAccuracy spec .positive mantissa exponent accuracy) := by
  rw [roundWithAccuracy]
  exact dite_induction (fun _ => rfl) fun _ => rfl

theorem isNonneg_normalize (spec : Format) {mantissa : Int} (exponent : Int) (h : 0 ≤ mantissa) :
    IsNonneg (UnpackedFloat.normalize spec mantissa exponent .positive) := by
  rw [UnpackedFloat.normalize]
  split
  · next hlt =>
    rw [Int.compare_eq_lt] at hlt
    omega
  · rfl
  · exact isNonneg_round ..

/-- Adding numbers that are not negative gives such a number, infinite ones included. -/
theorem isNonneg_add {spec : Format} {a b : UnpackedFloat} (ha : IsNonneg a) (hb : IsNonneg b) :
    IsNonneg (UnpackedFloat.add spec a b) := by
  cases a <;> cases b <;> dsimp only [IsNonneg] at ha hb <;> subst_vars
  case finite.finite =>
    exact isNonneg_normalize _ _ (Int.add_nonneg (Int.natCast_nonneg _) (Int.natCast_nonneg _))
  all_goals exact rfl

section
variable {spec : Format} {a : UnpackedFloat} {m : Nat} {e : Int} {hm : 0 < m} (ha : IsNonneg a)
include ha

theorem isNonneg_mul : IsNonneg (UnpackedFloat.mul spec a (.finite .positive m e hm)) := by
  cases a <;> dsimp only [IsNonneg] at ha <;> subst_vars
  case finite => exact isNonneg_round ..
  all_goals exact rfl

theorem isNonneg_div : IsNonneg (UnpackedFloat.div spec a (.finite .positive m e hm)) := by
  cases a <;> dsimp only [IsNonneg] at ha <;> subst_vars
  case finite => exact isNonneg_round ..
  all_goals exact rfl

end

/-- A decimal number is scaled by a power of two and one of five, so it is a number. -/
theorem isNonneg_ofScientific (spec : Format) (m : Nat) (e : Int) :
    IsNonneg (UnpackedFloat.ofScientific spec m e) := by
  rw [UnpackedFloat.ofScientific]
  refine dite_induction (fun _ => rfl) fun _ => iteInduction (fun _ => rfl) fun _ => ?_
  refine iteInduction (fun _ => rfl) fun _ => iteInduction (fun _ => ?_) fun _ => ?_
  · exact isNonneg_mul (a := .finite .positive _ _ _) rfl
  · exact isNonneg_div (a := .finite .positive _ _ _) rfl

/-! ## Floats -/

/-- Whether a float is a number without a negative sign. -/
def IsMagnitude (x : Float) : Prop := IsNonneg x.toModel.unpack

/-- Whether a float is a finite number greater than zero. -/
def IsScale (x : Float) : Prop := ∃ m e h, x.toModel.unpack = .finite .positive m e h

theorem IsMagnitude.isNaN_eq_false {x : Float} (h : IsMagnitude x) : x.isNaN = false :=
  (isNonneg_iff.mp h).2

theorem isMagnitude_pack {a : UnpackedFloat} (h : IsNonneg a) :
    IsMagnitude (.ofModel (.pack a)) := by
  rw [isNonneg_iff] at h
  exact isNonneg_iff.mpr ⟨isPositive_unpack (toNat_pack_lt h.1), isNaN_unpack_pack h.2⟩

theorem IsMagnitude.add {x y : Float} (hx : IsMagnitude x) (hy : IsMagnitude y) :
    IsMagnitude (x + y) := isMagnitude_pack (isNonneg_add hx hy)

/-- A magnitude times a scale is one: no infinity meets a zero. -/
theorem IsMagnitude.mul {x y : Float} (hx : IsMagnitude x) (hy : IsScale y) :
    IsMagnitude (x * y) := by
  obtain ⟨m, e, h, hy⟩ := hy
  refine isMagnitude_pack ?_
  show IsNonneg (UnpackedFloat.mul _ x.toModel.unpack y.toModel.unpack)
  rw [hy]
  exact isNonneg_mul hx

/-- A magnitude by a scale is one: zero is not divided by zero, nor an infinity by one. -/
theorem IsMagnitude.div {x y : Float} (hx : IsMagnitude x) (hy : IsScale y) :
    IsMagnitude (x / y) := by
  obtain ⟨m, e, h, hy⟩ := hy
  refine isMagnitude_pack ?_
  show IsNonneg (UnpackedFloat.div _ x.toModel.unpack y.toModel.unpack)
  rw [hy]
  exact isNonneg_div hx

theorem isScale_of_parts? {x : Float} {p : Parts} (h : parts? x = some p)
    (hp : p.negative = false ∧ p.mantissa ≠ 0) : IsScale x := by
  rcases unpack_of_parts? h with ⟨hzero, -⟩ | ⟨hc, hunpack⟩
  · exact absurd hzero hp.2
  · rw [hp.1] at hunpack
    exact ⟨_, _, _, hunpack⟩

/-- A natural number is a magnitude as a float, since it is rounded to a number without a sign. -/
theorem isMagnitude_ofNat (m : Nat) : IsMagnitude (Float.ofNat m) := by
  show IsMagnitude (Float.ofScientific m false 0)
  rw [Float.ofScientific]
  dsimp only
  split
  · -- A small number is multiplied by the power of ten that is one.
    have hm : IsMagnitude m.toUInt64.toFloat :=
      isMagnitude_pack (isNonneg_normalize _ _ (Int.natCast_nonneg _))
    obtain ⟨M, E, h, hunpack, -⟩ := exists_powerOfTen (e := 0) (by decide)
    exact hm.mul ⟨M, E, h, hunpack⟩
  · exact isMagnitude_pack (isNonneg_ofScientific ..)

/-- Rounding to a whole number keeps a magnitude: large numbers stay, others become a natural
number. -/
theorem IsMagnitude.round {x : Float} (rule : Rounding) (hx : IsMagnitude x) :
    IsMagnitude (round rule x) := by
  rw [Number.round]
  split
  · exact hx
  · next p hp =>
    split
    · exact hx
    · have hnegative : p.negative = false := by
        rcases unpack_of_parts? hp with ⟨-, hunpack⟩ | ⟨_, hunpack⟩
        all_goals
          rw [IsMagnitude, hunpack] at hx
          cases hn : p.negative with
          | false => rfl
          | true =>
            rw [hn] at hx
            cases hx
      rw [signed, hnegative]
      exact isMagnitude_ofNat _

/-! ## Whole numbers -/

/-- A natural number of at most 53 bits is stored as it is. -/
theorem ofNat_eq_stored {m : Nat} (hlt : m < 2 ^ 53) (hpos : 0 < m) : ∃ M E, ∃ hc : Canonical M E,
    (M : ℚ) * 2 ^ E = m ∧ Float.ofNat m = stored false hc := by
  obtain ⟨M, E, hc, hvalue, -⟩ := exists_ofNat hpos hlt
  have hrounds : Rounds M E (m * 10 ^ (0 : Int)) := by
    rw [zpow_zero, mul_one, ← hvalue]
    exact rounds_self M E
  exact ⟨M, E, hc, hvalue, float_ofScientific hc hpos hrounds⟩

section
variable {M M' : Nat} {E E' : Int} {hc : Canonical M E} {hc' : Canonical M' E'}
  {negative negative' : Bool}

/-- Stored floats that are equal have the same parts. -/
theorem eq_of_beq_stored (h : (stored negative hc == stored negative' hc') = true) :
    negative = negative' ∧ E = E' ∧ M = M' := by
  rw [← compare?_eq_some_eq_iff, compare?_eq, toModel_stored, toModel_stored] at h
  obtain ⟨hsign, hparts⟩ := eq_of_compare_finite h
  refine ⟨?_, hparts⟩
  cases negative <;> cases negative' <;> first | rfl | cases hsign

/-- A stored float is not zero. -/
theorem stored_bne_zero : (stored negative hc == 0) = false := by
  rw [Bool.eq_false_iff, Ne, ← compare?_eq_some_eq_iff, compare?_eq, toModel_stored]
  cases negative <;> exact nofun

end

end Formula.Number
