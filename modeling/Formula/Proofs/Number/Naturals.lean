import Formula.Proofs.Number.Denoted
import Formula.Proofs.Number.Magnitude
import Formula.Proofs.Number.ReadBack

/-!
# Natural numbers as floats

The float of a natural number denotes it if 53 bits hold what stands before its zeros
(`FitsFloat.denotes`), so it does up to `2 ^ 53`.  Adding one to a float that denotes a natural
number is exact below `2 ^ 53` (`Denotes.add_one`); from there on the sum may be rounded, but it
stays as large (`Denotes.add_one_large`).
-/

namespace Formula.Number

open Float.Model (Format UnpackedFloat totalExponent)
open Float.Model.UnpackedFloat

variable {M : Nat} {E : Int}

/-! ## Stored floats -/

/-- A stored float denotes its mantissa times its power of two, with its sign. -/
theorem denotes_stored (hc : Canonical M E) (negative : Bool) :
    Denotes (stored negative hc) (if negative then -(M * 2 ^ E) else M * 2 ^ E) := by
  refine ⟨⟨negative, M, E⟩, parts?_pack hc negative, ?_⟩
  cases negative with
  | false => exact one_mul _
  | true => exact neg_one_mul _

/-- A float that denotes a positive number is stored without a sign. -/
theorem Denotes.unpack_of_pos {x : Float} {q : ℚ} (h : Denotes x q) (hq : 0 < q) :
    ∃ m e, ∃ hc : Canonical m e,
      (m : ℚ) * 2 ^ e = q ∧ x.toModel.unpack = .finite .positive m e hc.pos := by
  rcases h.unpack with ⟨rfl, -⟩ | ⟨m, e, hc, ⟨rfl, hunpack⟩ | ⟨rfl, -⟩⟩
  · exact absurd hq (lt_irrefl 0)
  · exact ⟨m, e, hc, rfl, hunpack⟩
  · have hpos : (0 : ℚ) < m * 2 ^ e := mul_pos (Nat.cast_pos.mpr hc.pos) (two_zpow_pos e)
    exact absurd hq (neg_lt_zero.mpr hpos).not_gt

/-- Only the zeros denote zero. -/
theorem Denotes.unpack_of_zero {x : Float} (h : Denotes x 0) : ∃ s, x.toModel.unpack = .zero s := by
  rcases h.unpack with ⟨-, hzero⟩ | ⟨m, e, hc, hvalue⟩
  · exact hzero
  · have hpos : (0 : ℚ) < m * 2 ^ e := mul_pos (Nat.cast_pos.mpr hc.pos) (two_zpow_pos e)
    rcases hvalue with ⟨hvalue, -⟩ | ⟨hvalue, -⟩ <;> linarith

section
variable {k : Nat}

/-- With all its bits a float lies below a power of two only if its first bit does. -/
theorem add_lt_of_normal (hM : 2 ^ 52 ≤ M) (h : (M : ℚ) * 2 ^ E < 2 ^ k) : 52 + E < k := by
  have hM : ((2 ^ 52 : Nat) : ℚ) ≤ M := by exact_mod_cast hM
  have hpower : (2 : ℚ) ^ ((52 : Nat) + E) < 2 ^ (k : Int) := by
    rw [two_zpow_add, zpow_natCast]
    push_cast at hM
    exact (mul_le_mul_of_nonneg_right hM (two_zpow_pos E).le).trans_lt h
  exact two_zpow_lt_iff.mp hpower

/-- It lies at or above one only if there are bits enough. -/
theorem lt_add_of_le (hM : M < 2 ^ 53) (h : (2 : ℚ) ^ k ≤ M * 2 ^ E) : k < 53 + E := by
  have hM : (M : ℚ) < (2 ^ 53 : Nat) := by exact_mod_cast hM
  have hpower : (2 : ℚ) ^ (k : Int) < 2 ^ ((53 : Nat) + E) := by
    rw [two_zpow_add, zpow_natCast]
    push_cast at hM
    exact h.trans_lt (mul_lt_mul_of_pos_right hM (two_zpow_pos E))
  exact two_zpow_lt_iff.mp hpower

end

/-! ## Which natural numbers are floats -/

/-- Whether a natural number has at most 53 bits before zeros, and not too many of these. -/
def FitsFloat (n : Nat) : Prop := ∃ m k, m < 2 ^ 53 ∧ k ≤ 971 ∧ n = m * 2 ^ k

theorem FitsFloat.of_le {n : Nat} (h : n ≤ 2 ^ 53) : FitsFloat n := by
  rcases h.lt_or_eq with hlt | rfl
  · exact ⟨n, 0, hlt, by decide, (Nat.mul_one n).symm⟩
  · exact ⟨1, 53, by decide, by decide, rfl⟩

namespace FitsFloat

variable {n : Nat} (h : FitsFloat n)
include h

/-- A positive number of few enough bits is one mantissa of the float format at one exponent. -/
theorem exists_canonical (hpos : 0 < n) : ∃ M E, Canonical M E ∧ (M : ℚ) * 2 ^ E = n := by
  obtain ⟨m, k, hlt, hk, rfl⟩ := h
  obtain ⟨M, E, hc, hvalue, hnormal, -⟩ := exists_ofNat (Nat.pos_of_mul_pos_right hpos) hlt
  have hhigh : (m : ℚ) < 2 ^ 53 := by exact_mod_cast hlt
  have hE := add_lt_of_normal hnormal (hvalue.trans_lt hhigh)
  have hge := hc.ge
  refine ⟨M, k + E, .of_normal hnormal hc.lt (by omega) (by omega), ?_⟩
  rw [two_zpow_add, mul_left_comm, hvalue]
  push_cast
  ring

/-- Such a number is stored as it is when it becomes a float. -/
theorem exists_stored (hpos : 0 < n) : ∃ M E, ∃ hc : Canonical M E,
    (M : ℚ) * 2 ^ E = n ∧ Float.ofNat n = stored false hc := by
  obtain ⟨M, E, hc, hvalue⟩ := h.exists_canonical hpos
  have hrounds : Rounds M E (n * 10 ^ (0 : Int)) := by
    rw [zpow_zero, mul_one, ← hvalue]
    exact rounds_self M E
  exact ⟨M, E, hc, hvalue, float_ofScientific hc hpos hrounds⟩

/-- The float of such a number denotes it, and with a sign its opposite. -/
theorem denotes_signed (negative : Bool) :
    Denotes (signed negative n) (if negative then -n else n) := by
  rcases Nat.eq_zero_or_pos n with rfl | hpos
  · refine ⟨⟨negative, 0, -1074⟩, ?_, by simp [Parts.value]⟩
    revert negative
    decide +kernel
  · obtain ⟨M, E, hc, hvalue, hstored⟩ := h.exists_stored hpos
    rw [signed, hstored, neg_stored, ← hvalue]
    cases negative with
    | false => exact denotes_stored hc false
    | true => exact denotes_stored hc true

theorem denotes : Denotes (Float.ofNat n) n := h.denotes_signed false

end FitsFloat

/-! ## Sums -/

/-- A number that is given by its bits is rounded to the float that it rounds to. -/
theorem round_finite (hc : Canonical M E) {m : Nat} {e : Int} (hm : 0 < m)
    (hr : Rounds M E (m * 2 ^ e)) (sign : Sign) :
    UnpackedFloat.round Format.binary64 sign m e = .finite sign M E hc.pos := by
  have htarget : Format.binary64.targetExponent (totalExponent m e) = target m e := by
    show max ((m.log2 : Int) + 1 + e - 53) (-1074) = max ((m.log2 : Int) + e - 52) (-1074)
    omega
  obtain ⟨shift, hshift⟩ : ∃ shift, (e - target m e).toNat = shift := ⟨_, rfl⟩
  have hround : UnpackedFloat.round Format.binary64 sign m e =
      roundWithAccuracy Format.binary64 sign (m * 2 ^ shift) (e - shift) .exact := by
    rw [UnpackedFloat.round, htarget, decreaseExponent, hshift, Nat.shiftLeft_eq]
  have hbits : 52 ≤ (m * 2 ^ shift).log2 ∨ e - shift ≤ -1074 := by
    rw [target] at hshift
    by_cases hleast : e - shift ≤ -1074
    · exact .inr hleast
    · left
      have hle : 2 ^ 52 ≤ m * 2 ^ shift :=
        calc 2 ^ 52 ≤ 2 ^ (m.log2 + shift) := Nat.pow_le_pow_right two_pos (by omega)
          _ = 2 ^ m.log2 * 2 ^ shift := pow_add ..
          _ ≤ m * 2 ^ shift := Nat.mul_le_mul_right _ (Nat.log2_self_le hm.ne')
      exact (Nat.le_log2 (Nat.zero_lt_of_lt hle).ne').mpr hle
  have hvalue : ((m * 2 ^ shift : Nat) : ℚ) * 2 ^ (e - shift) = m * 2 ^ e := by
    rw [zpow_sub₀ two_ne_zero, zpow_natCast]
    push_cast
    field_simp
  rw [hround]
  refine roundWithAccuracy_eq hc (describes_exact _) hbits ?_ sign
  rw [hvalue]
  exact hr

/-- A sum of floats is the float that it rounds to. -/
theorem add_eq_stored {x y : Float} {m₁ m₂ : Nat} {e₁ e₂ : Int} {h₁ : 0 < m₁} {h₂ : 0 < m₂}
    (hx : x.toModel.unpack = .finite .positive m₁ e₁ h₁)
    (hy : y.toModel.unpack = .finite .positive m₂ e₂ h₂) (hc : Canonical M E)
    (hr : Rounds M E (m₁ * 2 ^ e₁ + m₂ * 2 ^ e₂)) : x + y = stored false hc := by
  let e := min e₁ e₂
  let sum := m₁ <<< (e₁ - e).toNat + m₂ <<< (e₂ - e).toNat
  have haligned {m : Nat} {e' : Int} (h : e ≤ e') :
      ((m <<< (e' - e).toNat : Nat) : ℚ) * 2 ^ e = m * 2 ^ e' := by
    have he : e' = (e' - e).toNat + e := by omega
    conv_rhs => rw [he]
    rw [Nat.shiftLeft_eq, two_zpow_add]
    push_cast
    ring
  have hsum : (sum : ℚ) * 2 ^ e = m₁ * 2 ^ e₁ + m₂ * 2 ^ e₂ := by
    rw [Nat.cast_add, add_mul, haligned (min_le_left ..), haligned (min_le_right ..)]
  have hpos : 0 < sum := by
    refine Nat.add_pos_left ?_ _
    rw [Nat.shiftLeft_eq]
    exact Nat.mul_pos h₁ (Nat.two_pow_pos _)
  have hadd : x + y =
      .ofModel (.pack (UnpackedFloat.add Format.binary64 x.toModel.unpack y.toModel.unpack)) := rfl
  have hnormalize : UnpackedFloat.add Format.binary64 (.finite .positive m₁ e₁ h₁)
      (.finite .positive m₂ e₂ h₂) =
        UnpackedFloat.normalize Format.binary64 (sum : Int) e .positive := rfl
  rw [hadd, hx, hy, hnormalize, UnpackedFloat.normalize,
    Int.compare_eq_gt.mpr (Int.natCast_pos.mpr hpos)]
  dsimp only
  rw [Int.toNat_natCast, round_finite hc hpos (by rw [hsum]; exact hr)]
  rfl

/-! ## Adding one -/

section
variable {x : Float} {n : Nat} (h : Denotes x n)
include h

/-- Adding one gives the stored float that the next number is rounded to. -/
theorem Denotes.add_one_of_rounds (hpos : 0 < n) (hc : Canonical M E)
    (hr : Rounds M E (n + 1)) : x + 1 = stored false hc := by
  obtain ⟨m, e, hm, hvalue, hx⟩ := h.unpack_of_pos (Nat.cast_pos.mpr hpos)
  obtain ⟨m', e', hm', hone, hy⟩ := denotes_one.unpack_of_pos one_pos
  refine add_eq_stored hx hy hc ?_
  rw [hvalue, hone]
  exact hr

/-- Up to `2 ^ 53` one is added exactly. -/
theorem Denotes.add_one (hlt : n < 2 ^ 53) : Denotes (x + 1) (n + 1 : Nat) := by
  rcases Nat.eq_zero_or_pos n with rfl | hpos
  · obtain ⟨m, e, hc, hone, hunpack⟩ := denotes_one.unpack_of_pos one_pos
    rw [Nat.cast_zero] at h
    obtain ⟨s, hx⟩ := h.unpack_of_zero
    have hsum : x + 1 = stored false hc := by
      have hadd : x + 1 = .ofModel (.pack
          (UnpackedFloat.add Format.binary64 x.toModel.unpack (1 : Float).toModel.unpack)) := rfl
      rw [hadd, hx, hunpack]
      rfl
    rw [hsum, Nat.zero_add, Nat.cast_one, ← hone]
    exact denotes_stored hc false
  · obtain ⟨M, E, hc, hvalue⟩ := (FitsFloat.of_le (n := n + 1) hlt).exists_canonical n.succ_pos
    have hr : Rounds M E (n + 1) := by
      rw [← Nat.cast_add_one, ← hvalue]
      exact rounds_self M E
    rw [h.add_one_of_rounds hpos hc hr, ← hvalue]
    exact denotes_stored hc false

end

/-- What is nearest to a rational, the even one of two, is what it rounds to, unless the floats lie
denser where it is. -/
theorem Rounds.of_near {r : ℚ} (hnear : |r / 2 ^ E - M| ≤ 1 / 2)
    (heven : |r / 2 ^ E - M| = 1 / 2 → Even M) (hpower : M = 2 ^ 52 → (M : ℚ) ≤ r / 2 ^ E) :
    Rounds M E r := by
  dsimp only [Rounds]
  generalize r / 2 ^ E = y at hnear heven hpower ⊢
  have hreach : M - reachBelow M E ≤ y ∧ (¬Even M → M - reachBelow M E < y) := by
    have hreach := reachBelow_pos M E
    by_cases hM : M = 2 ^ 52
    · have hle := hpower hM
      exact ⟨by linarith, fun _ => by linarith⟩
    · rw [reachBelow, if_neg fun h => hM h.1]
      rw [abs_le] at hnear
      refine ⟨by linarith, fun hodd => lt_of_le_of_ne (by linarith) fun heq => hodd (heven ?_)⟩
      rw [← heq]
      norm_num
  rw [abs_le] at hnear
  refine ⟨⟨hreach.1, by linarith⟩, fun hodd => ⟨hreach.2 hodd, lt_of_le_of_ne (by linarith) ?_⟩⟩
  rintro rfl
  refine hodd (heven ?_)
  norm_num

/-- One more than a float is rounded to that float or to the next one. -/
theorem Canonical.exists_rounds_succ {m : Nat} {e : Int} (hc : Canonical m e)
    (hnormal : 2 ^ 52 ≤ m) (he : 0 < e) :
    ∃ M E, Canonical M E ∧ 2 ^ 52 ≤ M ∧ 0 < E ∧ Rounds M E (m * 2 ^ e + 1) := by
  have hscaled : (m * 2 ^ e + 1 : ℚ) / 2 ^ e = m + 1 / 2 ^ e := by
    rw [add_div, mul_div_cancel_right₀ _ (two_zpow_pos e).ne']
  rcases (show 1 ≤ e from he).lt_or_eq with hlarge | rfl
  · -- One is less than half of the last place.
    have hpower : (2 : ℚ) ^ (1 : Int) < 2 ^ e := two_zpow_lt_iff.mpr hlarge
    rw [zpow_one] at hpower
    have hless : (1 : ℚ) / 2 ^ e < 1 / 2 :=
      (div_lt_div_iff_of_pos_left one_pos (two_zpow_pos e) two_pos).mpr hpower
    have hpos : (0 : ℚ) < 1 / 2 ^ e := one_div_pos.mpr (two_zpow_pos e)
    refine ⟨m, e, hc, hnormal, he, .of_near ?_ ?_ fun _ => ?_⟩ <;>
      rw [hscaled]
    · rw [add_sub_cancel_left, abs_of_pos hpos]
      exact hless.le
    · rw [add_sub_cancel_left, abs_of_pos hpos]
      exact fun heq => absurd heq hless.ne
    · linarith
  · -- One is half of the last place.
    rw [zpow_one] at hscaled ⊢
    rcases Nat.even_or_odd m with heven | hodd
    · refine ⟨m, 1, hc, hnormal, he, .of_near ?_ (fun _ => heven) fun _ => ?_⟩ <;>
        rw [zpow_one, hscaled]
      · rw [add_sub_cancel_left, abs_of_pos (by norm_num)]
      · linarith
    · rcases (show m + 1 ≤ 2 ^ 53 from hc.lt).lt_or_eq with hlt | hpower
      · refine ⟨m + 1, 1, .of_normal (by omega) hlt (by decide) (by decide), by omega, he,
          .of_near ?_ (fun _ => hodd.add_one) fun h => by omega⟩
        rw [zpow_one, hscaled]
        push_cast
        rw [abs_le]
        exact ⟨by linarith, by linarith⟩
      · -- The next float is a power of two.
        refine ⟨2 ^ 52, 2, .of_normal (by decide) (by decide) (by decide) (by decide), le_rfl,
          two_pos, ?_⟩
        have hm : (m : ℚ) = 2 ^ 53 - 1 := by
          have hsucc : ((m + 1 : Nat) : ℚ) = 2 ^ 53 := by exact_mod_cast congrArg Nat.cast hpower
          push_cast at hsucc
          linarith
        rw [Rounds, reachBelow, if_pos ⟨rfl, by decide⟩, hm]
        exact ⟨by norm_num, fun hodd => absurd ⟨2 ^ 51, rfl⟩ hodd⟩

/-- From `2 ^ 53` on one is perhaps not added exactly, but the sum is no less. -/
theorem Denotes.add_one_large {x : Float} {n : Nat} (h : Denotes x n) (hge : 2 ^ 53 ≤ n) :
    ∃ k : Nat, 2 ^ 53 ≤ k ∧ Denotes (x + 1) k := by
  have hpos : 0 < n := (Nat.two_pow_pos 53).trans_le hge
  obtain ⟨m, e, hm, hvalue, -⟩ := h.unpack_of_pos (Nat.cast_pos.mpr hpos)
  have hlow : (2 ^ 53 : ℚ) ≤ m * 2 ^ e := by
    rw [hvalue]
    exact_mod_cast hge
  have he := lt_add_of_le hm.lt hlow
  obtain ⟨M, E, hc, hM, hE, hr⟩ := hm.exists_rounds_succ (hm.normal.resolve_right (by omega))
    (by omega)
  rw [hvalue] at hr
  obtain ⟨k, rfl⟩ : ∃ k : Nat, E = (k + 1 : Nat) := ⟨(E - 1).toNat, by omega⟩
  refine ⟨M * 2 ^ (k + 1), ?_, ?_⟩
  · calc 2 ^ 53 ≤ 2 ^ 52 * 2 ^ (k + 1) := by
          rw [← pow_add]
          exact Nat.pow_le_pow_right two_pos (by omega)
      _ ≤ M * 2 ^ (k + 1) := Nat.mul_le_mul_right _ hM
  · rw [h.add_one_of_rounds hpos hc hr]
    have hsum : ((M * 2 ^ (k + 1) : Nat) : ℚ) = M * 2 ^ ((k + 1 : Nat) : Int) := by
      rw [zpow_natCast]
      push_cast
      rfl
    rw [hsum]
    exact denotes_stored hc false

end Formula.Number
