import Formula.Proofs.Number.Display
import Formula.Proofs.Number.Rounding

/-!
# Stored floats

The mantissa and exponent of a float are those that its bits hold.
-/

namespace Formula.Number

open Float.Model (Format UnpackedFloat)
open Float.Model.UnpackedFloat

/-- The sign of a number that may be negative. -/
def signOf (negative : Bool) : Sign := if negative then .negative else .positive

/-! ## Bits -/

section
variable (bits : BitVec 64)

theorem toNat_unpackExponent :
    (@unpackExponent Format.binary64 bits).toNat = bits.toNat / 2 ^ 52 % 2 ^ 11 := by
  delta unpackExponent
  simp [Nat.shiftRight_eq_div_pow]

theorem toNat_unpackMantissa :
    (@unpackMantissa Format.binary64 bits).toNat = bits.toNat % 2 ^ 52 := by
  delta unpackMantissa
  simp

/-- The sign is the first bit. -/
theorem ofBitVec_unpackSign :
    Sign.ofBitVec (@unpackSign Format.binary64 bits) = signOf (2 ^ 63 ≤ bits.toNat) := by
  have hlt := bits.isLt
  have htoNat : (@unpackSign Format.binary64 bits).toNat = bits.toNat / 2 ^ 63 := by
    delta unpackSign
    simp [Nat.shiftRight_eq_div_pow]
    omega
  have hzero : @unpackSign Format.binary64 bits = 0#1 ↔ bits.toNat < 2 ^ 63 := by
    rw [← BitVec.toNat_inj, htoNat]
    show _ = 0 ↔ _
    omega
  rw [Sign.ofBitVec, signOf]
  simp only [hzero, decide_eq_true_eq]
  split <;> split <;> first | rfl | omega

/-- The bits are those of the sign, the exponent and the mantissa side by side. -/
theorem toNat_packComponents (sign : Sign) (exponent : BitVec 11) (mantissa : BitVec 52) :
    (packComponents Format.binary64 sign exponent mantissa).toNat =
      sign.toBitVec.toNat * 2 ^ 63 + exponent.toNat * 2 ^ 52 + mantissa.toNat := by
  rw [packComponents, BitVec.toNat_append, BitVec.toNat_append]
  have he := exponent.isLt
  have hm := mantissa.isLt
  rw [← Nat.shiftLeft_add_eq_or_of_lt hm, ← Nat.shiftLeft_add_eq_or_of_lt he]
  simp only [Nat.shiftLeft_eq]
  omega

end

theorem toNat_implicitBit (mantissa : BitVec 52) :
    (1#1 ++ mantissa).toNat = twoPow 52 + mantissa.toNat := by
  rw [BitVec.toNat_append, ← Nat.shiftLeft_add_eq_or_of_lt mantissa.isLt]
  rfl

/-! ## Parts -/

theorem finite_congr {sign : Sign} {m m' : Nat} {e e' : Int} (hm : m = m') (he : e = e') {h h'} :
    UnpackedFloat.finite sign m e h = .finite sign m' e' h' := by
  subst hm he
  rfl

/-- The parts of a finite number are those of its unpacked form. -/
theorem unpack_of_parts? {x : Float} {p : Parts} (h : parts? x = some p) :
    (p.mantissa = 0 ∧ x.toModel.unpack = .zero (signOf p.negative)) ∨
      ∃ hc : Canonical p.mantissa p.exponent,
        x.toModel.unpack = .finite (signOf p.negative) p.mantissa p.exponent hc.pos := by
  let bits : BitVec 64 := x.toModel.toBits.toBitVec
  have hexponent : (@unpackExponent Format.binary64 bits).toNat =
      x.toBits.toNat / twoPow 52 % twoPow 11 := toNat_unpackExponent bits
  have hmantissa : (@unpackMantissa Format.binary64 bits).toNat = x.toBits.toNat % twoPow 52 :=
    toNat_unpackMantissa bits
  have hsign : Sign.ofBitVec (@unpackSign Format.binary64 bits) =
      signOf (twoPow 63 ≤ x.toBits.toNat) := ofBitVec_unpackSign bits
  have hlt : x.toBits.toNat % twoPow 52 < 2 ^ 52 := Nat.mod_lt _ (by decide)
  have hlt' : x.toBits.toNat / twoPow 52 % twoPow 11 < 2 ^ 11 := Nat.mod_lt _ (by decide)
  rw [parts?] at h
  generalize x.toBits.toNat / twoPow 52 % twoPow 11 = biased at *
  generalize x.toBits.toNat % twoPow 52 = fraction at *
  have hunpack : x.toModel.unpack = unpack Format.binary64 bits := rfl
  rw [hunpack]
  delta unpack
  dsimp only at h ⊢
  rw [hsign]
  have hmax : @unpackExponent Format.binary64 bits = -1#11 ↔ biased = 2047 := by
    rw [← BitVec.toNat_inj, hexponent]
    rfl
  have hleast : @unpackExponent Format.binary64 bits = 0#11 ↔ biased = 0 := by
    rw [← BitVec.toNat_inj, hexponent]
    rfl
  have hnone : @unpackMantissa Format.binary64 bits = 0#52 ↔ fraction = 0 := by
    rw [← BitVec.toNat_inj, hmantissa]
    rfl
  split at h
  · cases h
  next hfinite =>
  rw [if_neg (hmax.not.mpr hfinite)]
  split at h
  · next hzero =>
    obtain rfl := Option.some.inj h
    rw [if_pos (hleast.mpr hzero)]
    by_cases hfraction : fraction = 0
    · left
      rw [dif_pos (hnone.mpr hfraction)]
      exact ⟨hfraction, rfl⟩
    · right
      rw [dif_neg (hnone.not.mpr hfraction)]
      refine ⟨.least (Nat.pos_of_ne_zero hfraction) (hlt.trans (by decide)), ?_⟩
      refine finite_congr hmantissa ?_
      rw [hexponent, hzero]
      rfl
  · next hnormal =>
    obtain rfl := Option.some.inj h
    rw [if_neg (hleast.not.mpr hnormal)]
    right
    have htwo : twoPow 52 = 2 ^ 52 := rfl
    have hcanonical : Canonical (twoPow 52 + fraction) (biased - 1075) :=
      .of_normal (by omega) (by omega) (by omega) (by omega)
    refine ⟨hcanonical, finite_congr ?_ ?_⟩
    · rw [toNat_implicitBit, hmantissa]
    · rw [hexponent]
      rfl

/-- The parts of a finite float are told by its bits: below the least exponent the mantissa has no
leading one. -/
theorem parts?_of_bits {x : Float} {negative : Bool} {biased fraction : Nat}
    (hbiased : biased < 2047) (hfraction : fraction < 2 ^ 52)
    (h : x.toBits.toNat = (signOf negative).toBitVec.toNat * 2 ^ 63 + biased * 2 ^ 52 + fraction) :
    parts? x = some (if biased = 0 then ⟨negative, fraction, -1074⟩
      else ⟨negative, 2 ^ 52 + fraction, biased - 1075⟩) := by
  have htwo : twoPow 52 = 2 ^ 52 ∧ twoPow 11 = 2 ^ 11 ∧ twoPow 63 = 2 ^ 63 := ⟨rfl, rfl, rfl⟩
  have hexponent : x.toBits.toNat / twoPow 52 % twoPow 11 = biased := by
    rw [htwo.1, htwo.2.1]
    omega
  have hmantissa : x.toBits.toNat % twoPow 52 = fraction := by
    rw [htwo.1]
    omega
  have hsign : (twoPow 63 ≤ x.toBits.toNat : Bool) = negative := by
    rw [htwo.2.2]
    cases negative with
    | true =>
      have hone : (signOf true).toBitVec.toNat = 1 := rfl
      rw [hone] at h
      exact decide_eq_true (by omega)
    | false =>
      have hnone : (signOf false).toBitVec.toNat = 0 := rfl
      rw [hnone] at h
      exact decide_eq_false (by omega)
  rw [parts?, hexponent, hmantissa, hsign, if_neg (by omega)]
  split <;> rfl

/-- A float is packed into bits that have its parts. -/
theorem parts?_pack {M : Nat} {E : Int} (hc : Canonical M E) (negative : Bool) :
    parts? (.ofModel (.pack (.finite (signOf negative) M E hc.pos))) = some ⟨negative, M, E⟩ := by
  have hge := hc.ge
  have hle := hc.le
  have hlt := hc.lt
  have hpack : (Float.ofModel (.pack (.finite (signOf negative) M E hc.pos))).toBits.toNat =
      (if 2 ^ 11 ≤ (E + 1023 + 52).toNat + 1 then packedInfinity Format.binary64 (signOf negative)
      else if M.log2 + 1 = 53 then packComponents Format.binary64 (signOf negative)
        (BitVec.ofNat 11 (E + 1023 + 52).toNat) (BitVec.ofNat 52 M)
      else packComponents Format.binary64 (signOf negative) 0#11 (BitVec.ofNat 52 M)).toNat := rfl
  have htoNat : ∀ n : Nat, (BitVec.ofNat 52 n).toNat = n % 2 ^ 52 :=
    fun n => BitVec.toNat_ofNat n 52
  rw [if_neg (by omega)] at hpack
  by_cases hnormal : 2 ^ 52 ≤ M
  · have hlog : M.log2 = 52 := (Nat.log2_eq_iff hc.pos.ne').mpr ⟨hnormal, hlt⟩
    rw [if_pos (by rw [hlog]), toNat_packComponents, htoNat, BitVec.toNat_ofNat] at hpack
    have hmod : M % 2 ^ 52 = M - 2 ^ 52 := by omega
    have hmod' : (E + 1023 + 52).toNat % 2 ^ 11 = (E + 1023 + 52).toNat := by omega
    rw [hmod, hmod'] at hpack
    rw [parts?_of_bits (by omega) (by omega) hpack, if_neg (by omega)]
    have hM : 2 ^ 52 + (M - 2 ^ 52) = M := by omega
    have hE : ((E + 1023 + 52).toNat : Int) - 1075 = E := by omega
    rw [hM, hE]
  · obtain rfl := hc.normal.resolve_left hnormal
    have hlog : M.log2 < 52 := (Nat.log2_lt hc.pos.ne').mpr (by omega)
    have hmod : M % 2 ^ 52 = M := by omega
    rw [if_neg (by omega), toNat_packComponents, htoNat, hmod] at hpack
    rw [parts?_of_bits (by decide) (by omega) hpack]
    rfl

/-- A packed float is unpacked to itself. -/
theorem unpack_pack {M : Nat} {E : Int} (hc : Canonical M E) (negative : Bool) :
    (Float.Model.pack (.finite (signOf negative) M E hc.pos)).unpack =
      .finite (signOf negative) M E hc.pos := by
  rcases unpack_of_parts? (parts?_pack hc negative) with ⟨hzero, -⟩ | ⟨_, hunpack⟩
  · exact absurd hzero hc.pos.ne'
  · exact hunpack

end Formula.Number
