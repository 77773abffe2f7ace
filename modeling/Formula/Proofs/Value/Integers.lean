import Formula.Proofs.Decimal.Equality
import Formula.Proofs.Number.HalfAway
import Formula.Value.Conversion

/-!
# Values converted to integers

A value that reads as a finite number is converted to the integer nearest to it, or to the nearest
one of 64 bits: out of their range nothing is refused, unless the integer is to have 32 bits
(`Value.convert_integers`).  Decimals are floats before, so not all that are whole are converted to
themselves.
-/

namespace Formula

open Number (Denotes FitsFloat RoundsAway)

/-! ## Whole decimals -/

namespace Decimal

/-- The rational number that a decimal is. -/
def value (d : Decimal) : ℚ := d.signedCoefficient / 10 ^ d.scale

section
variable {d : Decimal} {i : Int} (h : d.value = i)
include h

/-- The coefficient of a decimal that is whole is the integer with as many zeros as there are
places. -/
theorem signedCoefficient_of_value : d.signedCoefficient = i * Number.tenPow d.scale := by
  have hpos : (0 : ℚ) < 10 ^ d.scale := pow_pos (by norm_num) _
  have htenPow : Number.tenPow d.scale = 10 ^ d.scale := rfl
  rw [value, div_eq_iff hpos.ne'] at h
  rw [htenPow]
  exact_mod_cast h

/-- So its magnitude is that of the integer with these zeros. -/
theorem coefficient_of_value : d.coefficient = i.natAbs * Number.tenPow d.scale := by
  have hmagnitude : d.signedCoefficient.natAbs = d.coefficient := by
    rw [signedCoefficient]
    split <;> omega
  rw [← hmagnitude, signedCoefficient_of_value h, Int.natAbs_mul, Int.natAbs_natCast]

/-- The sign of the decimal is that of the integer. -/
theorem sign_of_value : i = if d.negative then -(i.natAbs : Int) else i.natAbs := by
  have hunit : (0 : Int) < Number.tenPow d.scale := Int.natCast_pos.mpr (Number.tenPow_pos _)
  have hcoefficient := Int.natCast_nonneg d.coefficient
  have hsigned := signedCoefficient_of_value h
  rw [signedCoefficient] at hsigned
  split
  · next hnegative =>
    rw [if_pos hnegative] at hsigned
    have hle : i ≤ 0 := by
      by_contra hpos
      have := Int.mul_pos (Int.not_le.mp hpos) hunit
      omega
    omega
  · next hnegative =>
    rw [if_neg hnegative] at hsigned
    have hge : 0 ≤ i := by
      by_contra hneg
      have := Int.mul_neg_of_neg_of_pos (Int.not_le.mp hneg) hunit
      omega
    omega

/-- The float of a whole decimal is that of its magnitude, with its sign. -/
theorem toFloat_of_value : ∃ negative, d.toFloat = Number.signed negative i.natAbs ∧
    i = if negative then -(i.natAbs : Int) else i.natAbs := by
  have hfraction (scale : Fin 29) :
      (Float.ofNat 0 / Float.ofNat (Number.tenPow scale.val) == 0) = true := by
    revert scale
    decide +kernel
  have hcoefficient := coefficient_of_value h
  have hsign := sign_of_value h
  rw [toFloat]
  split
  · next hscale =>
    have hmagnitude : d.coefficient = i.natAbs := by
      rw [hcoefficient, hscale]
      exact Nat.mul_one _
    rw [hmagnitude]
    split
    · next hnegative =>
      rw [hnegative.1] at hsign
      exact ⟨true, rfl, hsign⟩
    · next hnegative =>
      -- Without a minus there is no sign, or nothing that has one.
      refine ⟨false, rfl, ?_⟩
      split at hsign
      · next hd =>
        have hzero : i.natAbs = 0 := not_not.mp fun hne => hnegative ⟨hd, hne⟩
        exact Int.natAbs_eq_zero.mp hzero ▸ rfl
      · exact hsign
  · have hwhole : d.coefficient / Number.tenPow d.scale = i.natAbs := by
      rw [hcoefficient, Nat.mul_div_cancel _ (Number.tenPow_pos _)]
    have hrest : d.coefficient % Number.tenPow d.scale = 0 := by
      rw [hcoefficient, Nat.mul_mod_left]
    dsimp only
    rw [hwhole, hrest, if_pos (hfraction ⟨d.scale, Nat.lt_succ_of_le d.scale_le⟩)]
    exact ⟨d.negative, rfl, hsign⟩

end

end Decimal

namespace Value

/-! ## 64 bits -/

/-- The integer of 64 bits nearest to an integer. -/
def clamped (i : Int) : Int := max (-2 ^ 63) (min (2 ^ 63 - 1) i)

variable {v : Value}

/-- A value that converts to a number is the integer that this is rounded to, clamped to 64 bits. -/
theorem toInt?_of_denotes {x : Float} (hx : v.toNumber? = some x) {q : ℚ} (hq : Denotes x q)
    {i : Int} (hi : RoundsAway q i) : v.toInt? = some (clamped i) := by
  obtain ⟨j, hj, -, hdenotes⟩ := hq.exists_rounded
  rw [toInt?, hx]
  dsimp only
  rw [if_pos (Number.isFinite_iff.mpr ⟨q, hq⟩), Number.toSigned, hdenotes.toIntWithin_eq,
    hi.unique hj]
  rfl

/-- A value has an integer if it converts to a number that denotes a rational, and the integer is
that one rounded and clamped. -/
theorem toInt?_eq_some_iff {n : Int} : v.toInt? = some n ↔
    ∃ x q i, v.toNumber? = some x ∧ Denotes x q ∧ RoundsAway q i ∧ n = clamped i := by
  constructor
  · intro h
    have hread := h
    rw [toInt?] at hread
    split at hread
    · next x hx =>
      split at hread
      · next hfinite =>
        obtain ⟨q, hq⟩ := Number.isFinite_iff.mp hfinite
        obtain ⟨i, hi, -, -⟩ := hq.exists_rounded
        rw [toInt?_of_denotes hx hq hi] at h
        exact ⟨x, q, i, hx, hq, hi, (Option.some.inj h).symm⟩
      · cases hread
    · cases hread
  · rintro ⟨x, q, i, hx, hq, hi, rfl⟩
    exact toInt?_of_denotes hx hq hi

/-- It has none if it does not convert to a number, or to NaN or an infinity. -/
theorem toInt?_eq_none_iff :
    v.toInt? = none ↔ ¬∃ x q, v.toNumber? = some x ∧ Denotes x q := by
  constructor
  · rintro hnone ⟨x, q, hx, hq⟩
    obtain ⟨i, hi, -, -⟩ := hq.exists_rounded
    cases hnone.symm.trans (toInt?_of_denotes hx hq hi)
  · intro h
    cases hread : v.toInt? with
    | none => rfl
    | some n =>
      obtain ⟨x, q, i, hx, hq, -, -⟩ := toInt?_eq_some_iff.mp hread
      exact absurd ⟨x, q, hx, hq⟩ h

/-- Every other value is refused. -/
theorem convert_int64_error_iff :
    v.convert Int64 = .error (.wrongType "i64" v.kind.name) ↔ v.toInt? = none := by
  have hread : (OfValue.ofValue? v : Option Int64) = v.toInt?.map Int64.ofInt := rfl
  rw [convert, hread]
  cases v.toInt? with
  | none => exact iff_of_true rfl rfl
  | some k => exact iff_of_false nofun nofun

/-- The conversion to 64 bits gives that integer, which always fits. -/
theorem convert_int64_iff {n : Int64} : v.convert Int64 = .ok n ↔ v.toInt? = some n.toInt := by
  have hread : (OfValue.ofValue? v : Option Int64) = v.toInt?.map Int64.ofInt := rfl
  rw [convert, hread]
  cases h : v.toInt? with
  | none => exact iff_of_false nofun nofun
  | some k =>
    obtain ⟨-, -, i, -, -, -, rfl⟩ := toInt?_eq_some_iff.mp h
    have hk : (Int64.ofInt (clamped i)).toInt = clamped i :=
      Int64.toInt_ofInt_of_le (by rw [clamped]; omega) (by rw [clamped]; omega)
    constructor
    · intro hn
      rw [← Except.ok.inj hn, hk]
    · intro hn
      rw [Option.some.inj hn]
      exact congrArg Except.ok (Int64.ofInt_toInt n)

/-- The conversion to 32 bits gives that integer if it fits. -/
theorem convert_int32_iff {n : Int32} : v.convert Int32 = .ok n ↔ v.toInt? = some n.toInt := by
  have hread : (OfValue.ofValue? v : Option Int32) = v.toInt?.bind fun k =>
      if (Int32.ofInt k).toInt = k then some (Int32.ofInt k) else none := rfl
  rw [convert, hread]
  cases h : v.toInt? with
  | none => exact iff_of_false nofun nofun
  | some k =>
    rw [Option.bind_some]
    by_cases hk : (Int32.ofInt k).toInt = k
    · rw [if_pos hk]
      constructor
      · intro hn
        rw [← Except.ok.inj hn, hk]
      · intro hn
        rw [Option.some.inj hn]
        exact congrArg Except.ok (Int32.ofInt_toInt n)
    · rw [if_neg hk]
      refine iff_of_false nofun fun hn => hk ?_
      rw [Option.some.inj hn, Int32.ofInt_toInt]

/-! ## Which integers come out -/

/-- An integer comes out only if it is a float, or if it is the greatest one. -/
theorem fitsFloat_of_toInt? {n : Int} (h : v.toInt? = some n) :
    FitsFloat n.natAbs ∨ n = 2 ^ 63 - 1 := by
  obtain ⟨x, q, i, -, hq, hi, rfl⟩ := toInt?_eq_some_iff.mp h
  obtain ⟨j, hj, hfits, -⟩ := hq.exists_rounded
  obtain rfl := hi.unique hj
  rcases Int.lt_or_le (2 ^ 63 - 1) i with hlarge | hle
  · right
    rw [clamped]
    omega
  · left
    rcases Int.lt_or_le i (-2 ^ 63) with hsmall | hge
    · have hleast : clamped i = -2 ^ 63 := by
        rw [clamped]
        omega
      rw [hleast]
      exact ⟨1, 63, by decide, by decide, rfl⟩
    · have hsame : clamped i = i := by
        rw [clamped]
        omega
      rwa [hsame]

/-- A whole decimal that is a float is converted as it is. -/
theorem toInt?_decimal {d : Decimal} {i : Int} (h : d.value = i) (hfits : FitsFloat i.natAbs) :
    (decimal d).toInt? = some (clamped i) := by
  obtain ⟨negative, hfloat, hsign⟩ := Decimal.toFloat_of_value h
  have hdenotes : Denotes d.toFloat i := by
    have hvalue (n : Nat) (hi : i = if negative then -(n : Int) else n) :
        (i : ℚ) = if negative then -(n : ℚ) else n := by
      subst hi
      cases negative <;> simp
    rw [hfloat, hvalue _ hsign]
    exact hfits.denotes_signed negative
  exact toInt?_of_denotes rfl hdenotes (.self i)

/-- The greatest integer is rounded up, and comes out again. -/
theorem toInt?_greatest {d : Decimal} (h : d.value = (2 ^ 63 - 1 : Int)) :
    (decimal d).toInt? = some (2 ^ 63 - 1) := by
  obtain ⟨negative, hfloat, hsign⟩ := Decimal.toFloat_of_value h
  cases negative with
  | true => cases hsign
  | false =>
    have hdenotes : Denotes d.toFloat (2 ^ 63 : Int) := by
      rw [hfloat]
      exact ⟨⟨false, 2 ^ 52, 11⟩, by decide +kernel, by norm_num [Number.Parts.value]⟩
    exact toInt?_of_denotes rfl hdenotes (.self _)

theorem clamped_eq {i : Int} (hge : -2 ^ 63 ≤ i) (hlt : i < 2 ^ 63) : clamped i = i := by
  rw [clamped]
  omega

/-! ## Conversion -/

/-- A value is converted to an integer of 64 bits just if it reads as a finite number: to the
nearest integer, or to the end of their range that it lies beyond.  It is converted to an integer of
32 bits just if the nearest integer has so many.  A whole decimal is converted to itself if it is a
float, as all of 32 bits are, and besides only the greatest integer of 64 bits is. -/
theorem convert_integers (v : Value) :
    (∀ n : Int64, v.convert Int64 = .ok n ↔ ∃ x q i, v.toNumber? = some x ∧ Denotes x q ∧
      RoundsAway q i ∧ n.toInt = max (-2 ^ 63) (min (2 ^ 63 - 1) i)) ∧
    (v.convert Int64 = .error (.wrongType "i64" v.kind.name) ↔
      ¬∃ x q, v.toNumber? = some x ∧ Denotes x q) ∧
    (∀ n : Int32, v.convert Int32 = .ok n ↔
      ∃ x q, v.toNumber? = some x ∧ Denotes x q ∧ RoundsAway q n.toInt) ∧
    (∀ (d : Decimal) (i : Int), v = .decimal d → d.value = i →
      (∀ n : Int64, n.toInt = i → (v.convert Int64 = .ok n ↔
        FitsFloat i.natAbs ∨ i = 2 ^ 63 - 1)) ∧
      ∀ n : Int32, n.toInt = i → v.convert Int32 = .ok n) := by
  refine ⟨fun n => convert_int64_iff.trans toInt?_eq_some_iff, ?_, fun n => ?_, ?_⟩
  · exact convert_int64_error_iff.trans toInt?_eq_none_iff
  · have hge := n.le_toInt
    have hlt := n.toInt_lt
    rw [convert_int32_iff, toInt?_eq_some_iff]
    constructor
    · rintro ⟨x, q, i, hx, hq, hi, hn⟩
      have hsame : n.toInt = i := by
        rw [clamped] at hn
        omega
      exact ⟨x, q, hx, hq, hsame ▸ hi⟩
    · rintro ⟨x, q, hx, hq, hn⟩
      exact ⟨x, q, n.toInt, hx, hq, hn, (clamped_eq (by omega) (by omega)).symm⟩
  · rintro d i rfl hvalue
    refine ⟨fun n hn => ?_, fun n hn => ?_⟩
    · have hge := n.le_toInt
      have hlt := n.toInt_lt
      rw [convert_int64_iff, hn]
      constructor
      · exact fitsFloat_of_toInt?
      · rintro (hfits | rfl)
        · rw [toInt?_decimal hvalue hfits, clamped_eq (by omega) (by omega)]
        · exact toInt?_greatest hvalue
    · have hge := n.le_toInt
      have hlt := n.toInt_lt
      rw [convert_int32_iff, hn, toInt?_decimal hvalue (.of_le (by omega)),
        clamped_eq (by omega) (by omega)]

/-- The least whole decimal that is no float is converted to another integer, and an integer that
has more than 64 bits is refused only where it is to have 32. -/
theorem convert_integers_inexact :
    (∃ d : Decimal, d.value = (9007199254740993 : Int) ∧
      (decimal d).convert Int64 = .ok 9007199254740992) ∧
    (ofNat (2 ^ 63)).convert Int64 = .ok 9223372036854775807 ∧
      ∀ n : Int32, (ofNat (2 ^ 63)).convert Int32 ≠ .ok n := by
  have hlarge : Denotes (Float.ofNat (2 ^ 63)) (2 ^ 63 : Int) :=
    ⟨⟨false, 2 ^ 52, 11⟩, by decide +kernel, by norm_num [Number.Parts.value]⟩
  refine ⟨⟨⟨false, 9007199254740993, 0, by decide, by decide⟩, ?_, ?_⟩, ?_, fun n hn => ?_⟩
  · norm_num [Decimal.value, Decimal.signedCoefficient]
  · have hfloat : Denotes
        (Decimal.toFloat ⟨false, 9007199254740993, 0, by decide, by decide⟩)
        (9007199254740992 : Int) :=
      ⟨⟨false, 2 ^ 52, 1⟩, by decide +kernel, by norm_num [Number.Parts.value]⟩
    exact ((convert_integers _).1 _).mpr ⟨_, _, _, rfl, hfloat, .self _, by decide⟩
  · exact ((convert_integers _).1 _).mpr ⟨_, _, _, rfl, hlarge, .self _, by decide⟩
  · obtain ⟨x, q, hx, hq, hround⟩ := ((convert_integers _).2.2.1 n).mp hn
    obtain rfl := Option.some.inj hx
    rw [hq.unique hlarge] at hround
    have htoInt := hround.unique (.self _)
    have hlt := n.toInt_lt
    omega

end Value

end Formula
