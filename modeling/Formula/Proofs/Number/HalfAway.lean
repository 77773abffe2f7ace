import Formula.Proofs.Number.Naturals

/-!
# Rounding to integers

A finite float is rounded to the integer that is nearest to what it denotes, and to the one farther
from zero if there are two (`RoundsAway`).  That integer is a float again, and it is what the
rounded float denotes (`Denotes.exists_rounded`).
-/

namespace Formula.Number

/-! ## The nearest integer -/

/-- Whether an integer is nearest to a rational number, and farther from zero than any other such
integer. -/
structure RoundsAway (q : ℚ) (i : Int) : Prop where
  near : |q - i| ≤ 1 / 2
  away : |q - i| = 1 / 2 → |q| < |(i : ℚ)|

namespace RoundsAway

variable {q : ℚ} {i j : Int}

theorem self (i : Int) : RoundsAway i i where
  near := by rw [sub_self, abs_zero]; norm_num
  away h := by rw [sub_self, abs_zero] at h; norm_num at h

/-- Rounding away from zero does the same on both sides of zero. -/
theorem neg (h : RoundsAway q i) : RoundsAway (-q) (-i) where
  near := by
    rw [Int.cast_neg, neg_sub_neg, abs_sub_comm]
    exact h.near
  away := by
    rw [Int.cast_neg, neg_sub_neg, abs_sub_comm, abs_neg, abs_neg]
    exact h.away

/-- A fraction of one half or more is rounded up, and a smaller one down. -/
theorem add_fraction (whole : Nat) {fraction : ℚ} (hnonneg : 0 ≤ fraction) (hlt : fraction < 1) :
    RoundsAway (whole + fraction)
      (if 1 / 2 ≤ fraction then whole + 1 else whole : Nat) := by
  have hwhole : (0 : ℚ) ≤ whole := Nat.cast_nonneg whole
  split
  · next hhalf =>
    refine ⟨?_, fun _ => ?_⟩ <;> push_cast
    · exact abs_le.mpr ⟨by linarith, by linarith⟩
    · rw [abs_of_nonneg (by linarith), abs_of_nonneg (by linarith)]
      linarith
  · next hhalf =>
    rw [not_le] at hhalf
    refine ⟨?_, fun htie => ?_⟩
    · push_cast
      exact abs_le.mpr ⟨by linarith, by linarith⟩
    · push_cast at htie
      rw [add_sub_cancel_left, abs_of_nonneg hnonneg] at htie
      exact absurd htie hhalf.ne

/-- No greater integer is rounded to as well: the greater one would lie half a unit above the
number, the smaller one half a unit below it, and then only one is further from zero. -/
theorem not_lt (h : RoundsAway q i) (h' : RoundsAway q j) : ¬i < j := by
  intro hlt
  have hstep : (i : ℚ) + 1 ≤ j := by exact_mod_cast hlt
  have hi := abs_le.mp h.near
  have hj := abs_le.mp h'.near
  -- The number lies in the middle between the two, and one of them is nearer to zero.
  obtain rfl : q = i + 1 / 2 := by linarith
  have hsucc : (j : ℚ) = i + 1 := by linarith
  rcases Int.lt_or_le i 0 with hneg | hnonneg
  · have hneg : (i : ℚ) + 1 ≤ 0 := by exact_mod_cast hneg
    have haway := h'.away (by rw [hsucc, abs_of_neg] <;> linarith)
    rw [hsucc, abs_of_nonpos (by linarith), abs_of_nonpos hneg] at haway
    linarith
  · have hnonneg : (0 : ℚ) ≤ i := by exact_mod_cast hnonneg
    have haway := h.away (by rw [abs_of_pos] <;> linarith)
    rw [abs_of_nonneg (by linarith), abs_of_nonneg hnonneg] at haway
    linarith

/-- There is one such integer. -/
theorem unique (h : RoundsAway q i) (h' : RoundsAway q j) : i = j :=
  le_antisymm (Int.not_lt.mp (h'.not_lt h)) (Int.not_lt.mp (h.not_lt h'))

end RoundsAway

/-- A magnitude is rounded up if its fraction is at least one half. -/
theorem roundsAway_magnitude (negative : Bool) (m places : Nat) :
    RoundsAway (m / 2 ^ places) (Rounding.halfAway.magnitude negative m places : Nat) := by
  have hpos : (0 : ℚ) < 2 ^ places := pow_pos two_pos places
  let fraction : ℚ := (m % 2 ^ places : Nat) / 2 ^ places
  have hvalue : (m : ℚ) / 2 ^ places = (m / 2 ^ places : Nat) + fraction := by
    have hm : (m : ℚ) = 2 ^ places * (m / 2 ^ places : Nat) + (m % 2 ^ places : Nat) := by
      exact_mod_cast (Nat.div_add_mod m (2 ^ places)).symm
    conv_lhs => rw [hm]
    rw [add_div, mul_div_cancel_left₀ _ hpos.ne']
  have hnonneg : 0 ≤ fraction := div_nonneg (Nat.cast_nonneg _) hpos.le
  have hlt : fraction < 1 := by
    rw [div_lt_one₀ hpos]
    exact_mod_cast Nat.mod_lt m (Nat.two_pow_pos places)
  have hhalf : 1 / 2 ≤ fraction ↔ 2 ^ places ≤ 2 * (m % 2 ^ places) := by
    rw [div_le_div_iff₀ two_pos hpos, one_mul, mul_comm]
    exact_mod_cast Iff.rfl
  have hmagnitude : Rounding.halfAway.magnitude negative m places =
      if 1 / 2 ≤ fraction then m / 2 ^ places + 1 else m / 2 ^ places := by
    rw [Rounding.magnitude]
    simp only [hhalf, decide_eq_true_eq]
    rfl
  rw [hvalue, hmagnitude]
  exact .add_fraction _ hnonneg hlt

/-! ## Floats -/

/-- A float denotes one number. -/
theorem Denotes.unique {x : Float} {q r : ℚ} (hq : Denotes x q) (hr : Denotes x r) : q = r := by
  obtain ⟨p, hp, rfl⟩ := hq
  obtain ⟨p', hp', rfl⟩ := hr
  rw [Option.some.inj (hp.symm.trans hp')]

theorem isFinite_of_parts? {x : Float} {p : Parts} (h : parts? x = some p) : x.isFinite = true := by
  have hunpacked : x.isFinite = x.toModel.unpack.isFinite := rfl
  rcases unpack_of_parts? h with ⟨-, hunpack⟩ | ⟨_, hunpack⟩ <;> rw [hunpacked, hunpack] <;> rfl

/-- The finite floats are those that denote a number. -/
theorem isFinite_iff {x : Float} : x.isFinite = true ↔ ∃ q, Denotes x q := by
  constructor
  · intro h
    obtain ⟨p, hp, -⟩ := exists_parts? h
    exact ⟨_, p, hp, rfl⟩
  · rintro ⟨q, p, hp, -⟩
    exact isFinite_of_parts? hp

theorem fitsFloat_mantissa {x : Float} {p : Parts} (h : parts? x = some p) :
    p.mantissa < 2 ^ 53 ∧ (p.mantissa = 0 ∨ p.exponent ≤ 971) := by
  rcases unpack_of_parts? h with ⟨hzero, -⟩ | ⟨hc, -⟩
  · exact ⟨hzero ▸ Nat.two_pow_pos 53, .inl hzero⟩
  · exact ⟨hc.lt, .inr hc.le⟩

/-- Without its sign what a float denotes is rounded to a natural number that is a float, and the
rounded float denotes it with the sign. -/
theorem exists_rounded_magnitude {x : Float} {p : Parts} (hp : parts? x = some p) :
    ∃ n : Nat, RoundsAway (p.mantissa * 2 ^ p.exponent) n ∧ FitsFloat n ∧
      Denotes (round .halfAway x) (if p.negative then -n else n) := by
  obtain ⟨hlt, hle⟩ := fitsFloat_mantissa hp
  rw [round, hp]
  dsimp only
  split
  · next hexponent =>
    obtain ⟨k, hk⟩ := Int.eq_ofNat_of_zero_le hexponent
    have hvalue : (p.mantissa : ℚ) * 2 ^ p.exponent = (p.mantissa * 2 ^ k : Nat) := by
      rw [hk, zpow_natCast]
      push_cast
      rfl
    refine ⟨p.mantissa * 2 ^ k, ?_, ?_, p, hp, ?_⟩
    · rw [hvalue]
      exact_mod_cast RoundsAway.self _
    · rcases hle with hzero | hle
      · rw [hzero, Nat.zero_mul]
        exact .of_le (Nat.zero_le _)
      · exact ⟨_, k, hlt, by omega, rfl⟩
    · rw [Parts.value, hvalue]
      cases p.negative <;> simp
  · next hexponent =>
    obtain ⟨k, hk⟩ : ∃ k : Nat, p.exponent = -k := ⟨p.exponent.natAbs, by omega⟩
    have hvalue : (p.mantissa : ℚ) * 2 ^ p.exponent = p.mantissa / 2 ^ k := by
      rw [hk, zpow_neg, zpow_natCast, div_eq_mul_inv]
    rw [hvalue, hk, Int.natAbs_neg, Int.natAbs_natCast]
    have hfits : FitsFloat (Rounding.halfAway.magnitude p.negative p.mantissa k) := by
      refine .of_le ?_
      have hdiv : p.mantissa / twoPow k ≤ p.mantissa := Nat.div_le_self ..
      rw [Rounding.magnitude]
      split <;> omega
    exact ⟨_, roundsAway_magnitude .., hfits, hfits.denotes_signed p.negative⟩

/-- What a float denotes is rounded to an integer that is a float, and the rounded float denotes
it. -/
theorem Denotes.exists_rounded {x : Float} {q : ℚ} (h : Denotes x q) :
    ∃ i : Int, RoundsAway q i ∧ FitsFloat i.natAbs ∧ Denotes (round .halfAway x) i := by
  obtain ⟨p, hp, rfl⟩ := h
  obtain ⟨n, hnear, hfits, hdenotes⟩ := exists_rounded_magnitude hp
  rw [Parts.value]
  cases hsign : p.negative with
  | false =>
    rw [hsign] at hdenotes
    exact ⟨n, by simpa using hnear, hfits, by simpa using hdenotes⟩
  | true =>
    rw [hsign] at hdenotes
    exact ⟨-n, by simpa using hnear.neg, by simpa using hfits, by simpa using hdenotes⟩

end Formula.Number
