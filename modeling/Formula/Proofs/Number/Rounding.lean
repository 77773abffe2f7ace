import Mathlib.Algebra.Order.Field.Power
import Mathlib.Algebra.Order.Field.Rat
import Mathlib.Algebra.Ring.Parity
import Mathlib.Tactic.Linarith
import Mathlib.Tactic.FieldSimp
import Mathlib.Tactic.NormNum
import Mathlib.Tactic.Ring

/-!
# Rounding to floats

A positive float is `mantissa · 2 ^ exponent` with a mantissa of 53 bits, or of fewer at the least
exponent.  The rationals that round to it form an interval (`Rounds`).  A rational that is given by
some of its bits and by where the rest lies is rounded to the float in whose interval it lies
(`roundWithAccuracy_eq`).
-/

namespace Formula.Number

open Float.Model (Format totalExponent)
open Float.Model.UnpackedFloat

/-! ## Extended mantissas -/

/-- Whether an accuracy says where a fraction lies between zero and one. -/
def Describes : Accuracy → ℚ → Prop
  | .exact, f => f = 0
  | .inexact .lt, f => 0 < f ∧ f < 1 / 2
  | .inexact .eq, f => f = 1 / 2
  | .inexact .gt, f => 1 / 2 < f ∧ f < 1

/-- Whether a mantissa with its residual bits stands for a rational. -/
def Stands (em : ExtendedMantissa) (y : ℚ) : Prop := Describes em.accuracy (y - em.mantissa)

theorem Describes.mem {a : Accuracy} {f : ℚ} (h : Describes a f) : 0 ≤ f ∧ f < 1 := by
  rcases a with _ | _ | _ | _ <;> dsimp only [Describes] at h <;> constructor <;> linarith

namespace Stands

variable {em : ExtendedMantissa} {y : ℚ}

theorem ofMantissaAndAccuracy {m : Nat} {a : Accuracy} (h : Describes a (y - m)) :
    Stands (.ofMantissaAndAccuracy m a) y := by
  rcases a with _ | _ | _ | _ <;> exact h

/-- Shifting by one bit halves what an extended mantissa stands for, and keeps what falls off. -/
theorem shiftRightOne (h : Stands em y) : Stands em.shiftRightOne (y / 2) := by
  obtain ⟨m, round, sticky⟩ := em
  have hcast : (m : ℚ) = 2 * (m / 2 : Nat) + (m % 2 : Nat) := by
    exact_mod_cast (Nat.div_add_mod m 2).symm
  rcases Nat.mod_two_eq_zero_or_one m with hm | hm <;> rw [hm] at hcast <;>
    cases round <;> cases sticky <;>
    simp [Stands, Describes, ExtendedMantissa.accuracy, ExtendedMantissa.shiftRightOne, hm]
      at h ⊢ <;>
    first
      | linarith
      | (constructor <;> linarith)

theorem shiftRight (h : Stands em y) (n : Nat) : Stands (em >>> n) (y / 2 ^ n) := by
  show Stands (n.repeat ExtendedMantissa.shiftRightOne em) _
  induction n with
  | zero => simpa [Nat.repeat] using h
  | succ n ih =>
    have hhalf := ih.shiftRightOne
    rwa [div_div, ← pow_succ] at hhalf

/-- The rounded mantissa is the natural number nearest to what stands there, the even one of two. -/
theorem roundedMantissa_eq (h : Stands em y) {n : Nat} (hle : |y - n| ≤ 1 / 2)
    (heven : |y - n| = 1 / 2 → Even n) : em.roundedMantissa = n := by
  obtain ⟨m, round, sticky⟩ := em
  rw [abs_le] at hle
  have hbounds : ∀ k : Nat, (k : ℚ) < n + 1 → (n : ℚ) < k + 1 → k = n := by
    intro k hlo hhi
    have hlo : k < n + 1 := by exact_mod_cast hlo
    have hhi : n < k + 1 := by exact_mod_cast hhi
    omega
  cases round <;> cases sticky <;> dsimp only [Stands, Describes, ExtendedMantissa.accuracy] at h
  · exact hbounds m (by linarith) (by linarith)
  · exact hbounds m (by linarith) (by linarith)
  · -- In the middle between two numbers, the even one is taken.
    have hmiddle : y = m + 1 / 2 := by linarith
    have hcases : m = n ∨ m + 1 = n := by
      have hlo : (m : ℚ) < n + 1 := by linarith
      have hhi : (n : ℚ) < m + 1 + 1 := by linarith
      have hlo : m < n + 1 := by exact_mod_cast hlo
      have hhi : n < m + 1 + 1 := by exact_mod_cast hhi
      omega
    have hn : Even n := by
      refine heven ?_
      rcases hcases with rfl | rfl
      · rw [hmiddle, add_sub_cancel_left, abs_of_pos (by norm_num)]
      · push_cast
        rw [hmiddle, abs_of_neg (by linarith)]
        ring
    have hmod := Nat.even_iff.mp hn
    show m + m % 2 = n
    omega
  · refine hbounds (m + 1) ?_ ?_ <;> push_cast <;> linarith

end Stands

/-! ## Floats -/

/-- Whether a positive float is stored as `mantissa · 2 ^ exponent`. -/
structure Canonical (mantissa : Nat) (exponent : Int) : Prop where
  pos : 0 < mantissa
  lt : mantissa < 2 ^ 53
  normal : 2 ^ 52 ≤ mantissa ∨ exponent = -1074
  ge : -1074 ≤ exponent
  le : exponent ≤ 971

theorem Canonical.of_normal {m : Nat} {e : Int} (hnormal : 2 ^ 52 ≤ m) (hlt : m < 2 ^ 53)
    (hge : -1074 ≤ e) (hle : e ≤ 971) : Canonical m e :=
  ⟨by omega, hlt, .inl hnormal, hge, hle⟩

theorem Canonical.least {m : Nat} (hpos : 0 < m) (hlt : m < 2 ^ 53) : Canonical m (-1074) :=
  ⟨hpos, hlt, .inr rfl, by decide, by decide⟩

/-- How far down the rationals that round to a float reach, in units of its last place.  Below a
power of two the floats lie twice as dense, except at the least exponent. -/
def reachBelow (mantissa : Nat) (exponent : Int) : ℚ :=
  if mantissa = 2 ^ 52 ∧ exponent ≠ -1074 then 1 / 4 else 1 / 2

/-- Whether a rational rounds to the float `mantissa · 2 ^ exponent`.  The ends of the interval do
so if the mantissa is even. -/
def Rounds (mantissa : Nat) (exponent : Int) (r : ℚ) : Prop :=
  let y := r / 2 ^ exponent
  (mantissa - reachBelow mantissa exponent ≤ y ∧ y ≤ mantissa + 1 / 2) ∧
    (¬ Even mantissa → mantissa - reachBelow mantissa exponent < y ∧ y < mantissa + 1 / 2)

theorem reachBelow_pos (mantissa : Nat) (exponent : Int) : 0 < reachBelow mantissa exponent := by
  rw [reachBelow]
  split <;> norm_num

theorem reachBelow_le (mantissa : Nat) (exponent : Int) : reachBelow mantissa exponent ≤ 1 / 2 := by
  rw [reachBelow]
  split <;> norm_num

/-- A float rounds to itself. -/
theorem rounds_self (mantissa : Nat) (exponent : Int) :
    Rounds mantissa exponent (mantissa * 2 ^ exponent) := by
  have hpos := reachBelow_pos mantissa exponent
  rw [Rounds, mul_div_cancel_right₀ _ (zpow_ne_zero _ two_ne_zero)]
  exact ⟨⟨by linarith, by linarith⟩, fun _ => ⟨by linarith, by linarith⟩⟩

/-- What a number is rounded to is at most half a unit away, and even where it is just half a
unit. -/
theorem Rounds.near {M : Nat} {E : Int} {r : ℚ} (h : Rounds M E r) :
    |r / 2 ^ E - M| ≤ 1 / 2 ∧ (|r / 2 ^ E - M| = 1 / 2 → Even M) := by
  obtain ⟨⟨hlo, hhi⟩, hstrict⟩ := h
  have hreach := reachBelow_le M E
  refine ⟨abs_le.mpr ⟨by linarith, by linarith⟩, fun heq => ?_⟩
  by_contra hodd
  obtain ⟨hlo, hhi⟩ := hstrict hodd
  have hlt : |r / 2 ^ E - M| < 1 / 2 := abs_lt.mpr ⟨by linarith, by linarith⟩
  exact hlt.ne heq

theorem two_zpow_pos (e : Int) : (0 : ℚ) < 2 ^ e := zpow_pos two_pos e

theorem two_zpow_lt_iff {e e' : Int} : (2 : ℚ) ^ e < 2 ^ e' ↔ e < e' :=
  zpow_lt_zpow_iff_right₀ one_lt_two

theorem two_zpow_add (k : Nat) (e : Int) : (2 : ℚ) ^ (k + e) = 2 ^ k * 2 ^ e := by
  rw [zpow_add₀ two_ne_zero, zpow_natCast]

/-- What rounds to a float lies below the end of their range. -/
theorem Rounds.lt {M : Nat} {E : Int} {r : ℚ} (h : Rounds M E r) (hc : Canonical M E) :
    r < 10 ^ (309 : Int) := by
  have hM : ((M + 1 : Nat) : ℚ) ≤ (2 ^ 53 : Nat) := by exact_mod_cast hc.lt
  have hz : r / 2 ^ E < 2 ^ 53 := by
    obtain ⟨hnear, -⟩ := h.near
    generalize r / 2 ^ E = z at hnear
    rw [abs_le] at hnear
    push_cast at hM
    linarith
  rw [div_lt_iff₀ (two_zpow_pos E)] at hz
  calc r < 2 ^ 53 * 2 ^ E := hz
    _ ≤ 2 ^ 53 * 2 ^ (971 : Int) := by
      gcongr
      · exact one_le_two
      · exact hc.le
    _ ≤ 10 ^ (309 : Int) := by
      have hle : 2 ^ 53 * 2 ^ 971 ≤ 10 ^ 309 := by decide +kernel
      exact_mod_cast hle

/-- What rounds to a float is at least half the least of them. -/
theorem Rounds.ge {M : Nat} {E : Int} {r : ℚ} (h : Rounds M E r) (hc : Canonical M E) :
    10 ^ (-324 : Int) ≤ r := by
  have hM : ((1 : Nat) : ℚ) ≤ M := by exact_mod_cast hc.pos
  have hz : 1 / 2 ≤ r / 2 ^ E := by
    obtain ⟨hnear, -⟩ := h.near
    generalize r / 2 ^ E = z at hnear
    rw [abs_le] at hnear
    push_cast at hM
    linarith
  rw [le_div_iff₀ (two_zpow_pos E)] at hz
  calc (10 : ℚ) ^ (-324 : Int) ≤ 2 ^ (-1075 : Int) := by
        have hle : 2 ^ 1075 ≤ 10 ^ 324 := by decide +kernel
        rw [zpow_neg, zpow_neg]
        exact inv_anti₀ (two_zpow_pos 1075) (by exact_mod_cast hle)
    _ = 1 / 2 * 2 ^ (-1074 : Int) := by
      rw [show (-1075 : Int) = -1 + -1074 by decide, zpow_add₀ two_ne_zero, zpow_neg_one, one_div]
    _ ≤ 1 / 2 * 2 ^ E := by
      gcongr
      · exact one_le_two
      · exact hc.ge
    _ ≤ r := hz

/-! ## Rounding -/

/-- The exponent that a number with some bits is to have as a float. -/
def target (m : Nat) (e : Int) : Int := max (m.log2 + e - 52) (-1074)

/-- A mantissa is shifted to the exponent at which it fits, and no further. -/
theorem shiftToTargetExponent_eq (m : Nat) (e : Int) (a : Accuracy) :
    shiftToTargetExponent Format.binary64 m e a =
      (ExtendedMantissa.ofMantissaAndAccuracy m a >>> (target m e - e).toNat,
        e + (target m e - e).toNat) := by
  have htarget : Format.binary64.targetExponent (totalExponent m e) = target m e := by
    show max ((m.log2 : Int) + 1 + e - 53) (-1074) = max ((m.log2 : Int) + e - 52) (-1074)
    omega
  rw [shiftToTargetExponent, htarget]
  rfl

section
variable {M : Nat} {E : Int}

/-- A canonical mantissa is at its exponent already. -/
theorem Canonical.target_eq (h : Canonical M E) : target M E = E := by
  have hlog : M.log2 < 53 := (Nat.log2_lt h.pos.ne').mpr h.lt
  have hge := h.ge
  rw [target]
  rcases h.normal with hnormal | rfl
  · have := (Nat.le_log2 h.pos.ne').mpr hnormal
    omega
  · omega

section
variable {m k : Nat} {e : Int} {y : ℚ}

/-- A rational with the bits of a natural number before those of its fraction lies below a power of
two only if its first bit does. -/
theorem log2_add_lt (hm : m ≠ 0) (hlo : (m : ℚ) ≤ y) (h : y * 2 ^ e / 2 ^ E < 2 ^ k) :
    m.log2 + e < k + E := by
  have hfirst : ((2 ^ m.log2 : Nat) : ℚ) ≤ m := by exact_mod_cast Nat.log2_self_le hm
  push_cast at hfirst
  rw [div_lt_iff₀ (two_zpow_pos E)] at h
  rw [← two_zpow_lt_iff, two_zpow_add, two_zpow_add]
  exact (mul_le_mul_of_nonneg_right (hfirst.trans hlo) (two_zpow_pos e).le).trans_lt h

/-- It lies at or above a power of two only if its first bit does. -/
theorem le_log2_add (hhi : y < m + 1) (h : 2 ^ k ≤ y * 2 ^ e / 2 ^ E) :
    (k : Int) + E ≤ m.log2 + e := by
  have hnext : ((m + 1 : Nat) : ℚ) ≤ (2 ^ (m.log2 + 1) : Nat) := by
    exact_mod_cast Nat.lt_log2_self
  push_cast at hnext
  rw [le_div_iff₀ (two_zpow_pos E)] at h
  have hlt : (2 : ℚ) ^ (k + E) < 2 ^ ((m.log2 + 1 : Nat) + e) := by
    rw [two_zpow_add, two_zpow_add]
    exact h.trans_lt (mul_lt_mul_of_pos_right (by linarith) (two_zpow_pos e))
  rw [two_zpow_lt_iff] at hlt
  omega

/-- A rational is rounded at the exponent of the float that it rounds to, or at the one before if
it lies below a float that is a power of two. -/
theorem target_cases (hc : Canonical M E) (hlo : (m : ℚ) ≤ y) (hhi : y < m + 1)
    (hbits : 52 ≤ m.log2 ∨ e ≤ -1074) (hr : Rounds M E (y * 2 ^ e)) :
    target m e = E ∨
      target m e = E - 1 ∧ M = 2 ^ 52 ∧ E ≠ -1074 ∧ y * 2 ^ e / 2 ^ E < 2 ^ 52 := by
  obtain ⟨hnear, -⟩ := hr.near
  have hlower : ∀ k : Nat, 2 ^ k ≤ y * 2 ^ e / 2 ^ E → (k : Int) + E ≤ m.log2 + e :=
    fun _ => le_log2_add hhi
  have hupper : m ≠ 0 → ∀ k : Nat, y * 2 ^ e / 2 ^ E < 2 ^ k → m.log2 + e < k + E :=
    fun hm _ => log2_add_lt hm hlo
  have hM : ((M + 1 : Nat) : ℚ) ≤ (2 ^ 53 : Nat) := by exact_mod_cast hc.lt
  have hnormal : E ≠ -1074 → (2 ^ 52 : ℚ) ≤ M := by
    intro hE
    exact_mod_cast hc.normal.resolve_right hE
  have hge := hc.ge
  generalize y * 2 ^ e / 2 ^ E = z at hnear hlower hupper ⊢
  rw [abs_le] at hnear
  push_cast at hM
  rw [target]
  by_cases hE : E = -1074
  · -- There are not more bits than at the least exponent.
    by_cases hm : m = 0
    · subst hm
      have he : e ≤ -1074 := hbits.resolve_left (by decide)
      rw [Nat.log2_zero]
      omega
    · have hlt := hupper hm 53 (by linarith)
      push_cast at hlt
      omega
  have hle := hlower 51 (by linarith [hnormal hE])
  by_cases hm : m = 0
  · subst hm
    have he : e ≤ -1074 := hbits.resolve_left (by decide)
    rw [Nat.log2_zero] at hle
    omega
  by_cases hz : z < 2 ^ 52
  · right
    have hlt := hupper hm 52 hz
    have hpower : (M : ℚ) < (2 ^ 52 + 1 : Nat) := by
      push_cast
      linarith
    have hpower : M < 2 ^ 52 + 1 := by exact_mod_cast hpower
    have hnormal := hc.normal.resolve_right hE
    push_cast at hlt hle
    exact ⟨by omega, by omega, hE, hz⟩
  · left
    have hlt := hupper hm 53 (by linarith)
    have hle := hlower 52 (by linarith)
    push_cast at hlt hle
    omega

end

/-! ### The rounded float -/

/-- What is shifted to its exponent as a float stands for the same rational there. -/
theorem stands_shifted {m : Nat} {e : Int} {a : Accuracy} {y : ℚ} (h : Describes a (y - m))
    (he : e ≤ target m e) :
    Stands (shiftToTargetExponent Format.binary64 m e a).1 (y * 2 ^ e / 2 ^ target m e) ∧
      (shiftToTargetExponent Format.binary64 m e a).2 = target m e := by
  obtain ⟨k, hk⟩ := Int.le.dest he
  have hshift : (target m e - e).toNat = k := by omega
  have hscaled : y * 2 ^ e / 2 ^ target m e = y / 2 ^ k := by
    rw [← hk, zpow_add₀ two_ne_zero, zpow_natCast, mul_comm y,
      mul_div_mul_left _ _ (two_zpow_pos e).ne']
  rw [shiftToTargetExponent_eq, hshift, hscaled]
  exact ⟨(Stands.ofMantissaAndAccuracy h).shiftRight k, hk⟩

/-- What has the mantissa and exponent of a float is shifted no more. -/
theorem Canonical.shifted_eq (h : Canonical M E) :
    shiftToTargetExponent Format.binary64 M E .exact = (⟨M, false, false⟩, E) := by
  rw [shiftToTargetExponent_eq, h.target_eq, sub_self]
  show ((⟨M, false, false⟩ : ExtendedMantissa), E + 0) = _
  rw [add_zero]

/-- A mantissa that was rounded up to a power of two too large is halved. -/
theorem shifted_overflow (hE : -1074 < E) :
    shiftToTargetExponent Format.binary64 (2 ^ 53) (E - 1) .exact =
      (⟨2 ^ 52, false, false⟩, E) := by
  have htarget : target (2 ^ 53) (E - 1) - (E - 1) = 1 := by
    rw [target, Nat.log2_two_pow]
    push_cast
    omega
  rw [shiftToTargetExponent_eq, htarget]
  show ((⟨2 ^ 52, false, false⟩ : ExtendedMantissa), E - 1 + 1) = _
  rw [sub_add_cancel]

/-- Just below a power of two, which the floats lie twice as dense below, the mantissa is rounded
up to the next power of two. -/
theorem Rounds.near_power {r : ℚ} (h : Rounds (2 ^ 52) E r) (hE : E ≠ -1074)
    (hlt : r / 2 ^ E < 2 ^ 52) : |r / 2 ^ (E - 1) - (2 ^ 53 : Nat)| ≤ 1 / 2 := by
  have htwice : r / 2 ^ (E - 1) = 2 * (r / 2 ^ E) := by
    rw [zpow_sub_one₀ two_ne_zero]
    field_simp
  have hlo := h.1.1
  rw [reachBelow, if_pos ⟨rfl, hE⟩] at hlo
  rw [htwice]
  generalize r / 2 ^ E = z at hlt hlo
  push_cast at hlo ⊢
  exact abs_le.mpr ⟨by linarith, by linarith⟩

/-- A rational that is given by some of its bits, all that a float has or all from the least
exponent on, and by where the rest lies, is rounded to the float in whose interval it lies. -/
theorem roundWithAccuracy_eq (hc : Canonical M E) {m : Nat} {e : Int} {a : Accuracy} {y : ℚ}
    (ha : Describes a (y - m)) (hbits : 52 ≤ m.log2 ∨ e ≤ -1074) (hr : Rounds M E (y * 2 ^ e))
    (sign : Sign) :
    roundWithAccuracy Format.binary64 sign m e a = .finite sign M E hc.pos := by
  obtain ⟨hfraction, hlt⟩ := ha.mem
  have he : e ≤ target m e := by
    rw [target]
    omega
  obtain ⟨hstands, hexponent⟩ := stands_shifted ha he
  -- After the second shift there is the mantissa of the float, at its exponent.
  have hfinal : shiftToTargetExponent Format.binary64
      (shiftToTargetExponent Format.binary64 m e a).1.roundedMantissa
      (shiftToTargetExponent Format.binary64 m e a).2 .exact = (⟨M, false, false⟩, E) := by
    rw [hexponent]
    rcases target_cases hc (by linarith) (by linarith) hbits hr with
      htarget | ⟨htarget, rfl, hE, hbelow⟩
    · rw [htarget] at hstands ⊢
      rw [hstands.roundedMantissa_eq hr.near.1 hr.near.2, hc.shifted_eq]
    · rw [htarget] at hstands ⊢
      rw [hstands.roundedMantissa_eq (hr.near_power hE hbelow) fun _ => ⟨2 ^ 52, rfl⟩]
      exact shifted_overflow (lt_of_le_of_ne hc.ge (Ne.symm hE))
  rw [roundWithAccuracy]
  dsimp only
  -- The float holds a proof about the mantissa, so the shifted pair is replaced as a whole.
  generalize shiftToTargetExponent Format.binary64
    (shiftToTargetExponent Format.binary64 m e a).1.roundedMantissa
    (shiftToTargetExponent Format.binary64 m e a).2 .exact = final at hfinal
  subst hfinal
  exact dif_neg hc.pos.ne'

end

end Formula.Number
