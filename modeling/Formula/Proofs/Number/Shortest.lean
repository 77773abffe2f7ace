import Formula.Number.Shortest
import Formula.Proofs.Number.Nearest

/-!
# The shortest decimal rounds back

The interval that the search for the shortest decimal works with is that of the rationals that round
to the float, so what it finds rounds to the float (`rounds_shortest`).  It finds something, for
among decimals of seventeen digits one of the neighbours of a float is in its interval.
-/

namespace Formula.Number

variable {M : Nat} {E : Int}

/-! ## The interval -/

/-- What rounds to a float, for there is nothing between it and the ends of the interval. -/
theorem Rounds.of_between {r : ℚ} (hlo : M - reachBelow M E < r / 2 ^ E)
    (hhi : r / 2 ^ E < M + 1 / 2) : Rounds M E r :=
  ⟨⟨hlo.le, hhi.le⟩, fun _ => ⟨hlo, hhi⟩⟩

namespace RoundingInterval

/-- Whether an interval is that of the rationals that round to a float. -/
structure Spans (interval : RoundingInterval) (M : Nat) (E : Int) : Prop where
  denominator_pos : 0 < interval.denominator
  low_eq : (interval.low : ℚ) = (M - reachBelow M E) * 2 ^ E * interval.denominator
  value_eq : (interval.value : ℚ) = M * 2 ^ E * interval.denominator
  high_eq : (interval.high : ℚ) = (M + 1 / 2) * 2 ^ E * interval.denominator
  closed_iff : interval.closed = true ↔ Even M

end RoundingInterval

/-- The interval with which the search works spans the numbers that are rounded to the float: its
ends lie halfway to the neighbours, the one below being nearer at a power of two. -/
theorem spans_roundingInterval (hM : 0 < M) : (roundingInterval M E).Spans M E := by
  -- The ends are written in quarters of the last place.
  obtain ⟨below, hbelow, hle, hreach⟩ : ∃ below : Nat,
      (if M = twoPow 52 ∧ E ≠ -1074 then 1 else 2) = below ∧ below ≤ 2 ∧
        reachBelow M E = below / 4 := by
    refine ⟨_, rfl, ?_, ?_⟩
    · split <;> decide
    · show (if M = twoPow 52 ∧ E ≠ -1074 then _ else _) = _
      split <;> norm_num
  have hlow : ((4 * M - below : Nat) : ℚ) = 4 * M - below := by
    rw [Nat.cast_sub (by omega)]
    push_cast
    rfl
  have hclosed : (M % 2 = 0 : Bool) = true ↔ Even M := by
    rw [decide_eq_true_eq, Nat.even_iff]
  rw [roundingInterval, hbelow]
  dsimp only
  split
  · next hE =>
    obtain ⟨k, rfl⟩ : ∃ k : Nat, E = k + 2 := ⟨(E - 2).toNat, by omega⟩
    have hunit : ((twoPow (k + 2 - 2 : Int).natAbs : Nat) : ℚ) * 4 = 2 ^ (k + 2 : Int) := by
      rw [add_sub_cancel_right, Int.natAbs_natCast, two_zpow_add]
      norm_num [twoPow]
    constructor
    · exact Nat.one_pos
    · rw [hreach, ← hunit]
      push_cast [hlow]
      ring
    · rw [← hunit]
      push_cast
      ring
    · rw [← hunit]
      push_cast
      ring
    · exact hclosed
  · next hE =>
    obtain ⟨k, rfl⟩ : ∃ k : Nat, E = 2 - k := ⟨(2 - E).toNat, by omega⟩
    have hunit : (2 : ℚ) ^ (2 - k : Int) * (twoPow (2 - (2 - k) : Int).natAbs : Nat) = 4 := by
      rw [sub_sub_cancel, Int.natAbs_natCast, zpow_sub₀ two_ne_zero, zpow_natCast]
      norm_num [twoPow]
    constructor
    · exact Nat.two_pow_pos _
    · rw [hreach, mul_assoc, hunit, hlow]
      ring
    · rw [mul_assoc, hunit]
      push_cast
      ring
    · rw [mul_assoc, hunit]
      push_cast
      ring
    · exact hclosed

/-- A power of ten is a quotient of two natural powers, one of which is 1. -/
theorem ten_zpow_mul (e : Int) : (10 : ℚ) ^ e * tenPow (-e).toNat = tenPow e.toNat := by
  have hadd : e + (-e).toNat = e.toNat := by omega
  have htenPow : ∀ n, (tenPow n : ℚ) = 10 ^ (n : Int) := by simp [tenPow]
  rw [htenPow, htenPow, ← zpow_add₀ (by norm_num), hadd]

theorem tenPow_pos (n : Nat) : 0 < tenPow n := Nat.pow_pos (by decide)

namespace RoundingInterval

variable {interval : RoundingInterval}

/-- The lower neighbour of the value on a grid. -/
def lowerOn (interval : RoundingInterval) (grid : Int) : Nat :=
  interval.value * tenPow (-grid).toNat / (interval.denominator * tenPow grid.toNat)

theorem isSome_onGrid?_iff (grid : Int) : (interval.onGrid? grid).isSome = true ↔
    interval.holds (interval.lowerOn grid) grid = true ∨
      interval.holds (interval.lowerOn grid + 1) grid = true := by
  rw [onGrid?, lowerOn]
  split <;> simp_all

/-- A unit of the last place of a float, over the denominator at which decimals of a grid are
compared with the interval. -/
def unit (interval : RoundingInterval) (E grid : Int) : ℚ :=
  2 ^ E * interval.denominator * tenPow (-grid).toNat

theorem decimal_eq (n : Nat) (grid : Int) :
    ((n * tenPow grid.toNat * interval.denominator : Nat) : ℚ) =
      n * 10 ^ grid / 2 ^ E * interval.unit E grid := by
  have htwo := two_zpow_pos E
  push_cast [unit, ← ten_zpow_mul grid]
  field_simp

theorem scaled_eq {n : Nat} {x : ℚ} (hn : (n : ℚ) = x * 2 ^ E * interval.denominator)
    (grid : Int) : ((n * tenPow (-grid).toNat : Nat) : ℚ) = x * interval.unit E grid := by
  push_cast [unit, hn]
  ring

section
variable (h : interval.Spans M E)
include h

theorem Spans.unit_pos (grid : Int) : 0 < interval.unit E grid := by
  have hscale : (0 : ℚ) < tenPow (-grid).toNat := by exact_mod_cast tenPow_pos _
  have hden : (0 : ℚ) < interval.denominator := by exact_mod_cast h.denominator_pos
  exact mul_pos (mul_pos (two_zpow_pos E) hden) hscale

/-- A decimal is found in the interval if and only if it rounds to the float. -/
theorem Spans.holds_iff (digits : Nat) (grid : Int) :
    interval.holds digits grid = true ↔ Rounds M E (digits * 10 ^ grid) := by
  have hpos := h.unit_pos grid
  have hdecimal := @decimal_eq E interval digits grid
  have hlow := scaled_eq h.low_eq grid
  have hhigh := scaled_eq h.high_eq grid
  rw [holds, Rounds]
  split
  · next hclosed =>
    have heven := h.closed_iff.mp hclosed
    rw [Bool.and_eq_true, decide_eq_true_eq, decide_eq_true_eq, ← Nat.cast_le (α := ℚ),
      ← Nat.cast_le (α := ℚ), hdecimal, hlow, hhigh, mul_le_mul_iff_left₀ hpos,
      mul_le_mul_iff_left₀ hpos]
    exact ⟨fun hmem => ⟨hmem, fun hodd => absurd heven hodd⟩, And.left⟩
  · next hopen =>
    have hodd : ¬ Even M := fun heven => hopen (h.closed_iff.mpr heven)
    rw [Bool.and_eq_true, decide_eq_true_eq, decide_eq_true_eq, ← Nat.cast_lt (α := ℚ),
      ← Nat.cast_lt (α := ℚ), hdecimal, hlow, hhigh, mul_lt_mul_iff_left₀ hpos,
      mul_lt_mul_iff_left₀ hpos]
    exact ⟨fun hmem => ⟨⟨hmem.1.le, hmem.2.le⟩, fun _ => hmem⟩, fun hmem => hmem.2 hodd⟩

/-- The exponent of ten of the first digit is not too large. -/
theorem Spans.magnitude_le (hM : 0 < M) : (10 : ℚ) ^ interval.magnitude ≤ M * 2 ^ E := by
  have hden : (0 : ℚ) < interval.denominator := by exact_mod_cast h.denominator_pos
  have hvalue : (M * 2 ^ E : ℚ) = interval.value / interval.denominator := by
    rw [h.value_eq, mul_div_cancel_right₀ _ hden.ne']
  have hpos : 0 < interval.value := by
    have hpos : (0 : ℚ) < interval.value := by
      rw [h.value_eq]
      exact mul_pos (mul_pos (by exact_mod_cast hM) (two_zpow_pos E)) hden
    exact_mod_cast hpos
  rw [hvalue, magnitude, le_div_iff₀ hden]
  split
  · next hwhole =>
    -- The inverse of a number below 1 has as many digits before the point.
    have hbelow := Nat.lt_of_div_eq_zero h.denominator_pos hwhole
    obtain ⟨-, hlt⟩ := digitCount_bounds (Nat.div_pos hbelow.le hpos)
    have hle : interval.denominator ≤
        10 ^ digitCount (interval.denominator / interval.value) * interval.value :=
      ((Nat.div_lt_iff_lt_mul hpos).mp hlt).le
    have hle : (interval.denominator : ℚ) ≤
        10 ^ digitCount (interval.denominator / interval.value) * interval.value := by
      exact_mod_cast hle
    rw [zpow_neg, zpow_natCast, inv_mul_le_iff₀ (pow_pos (by norm_num) _)]
    exact hle
  · next hwhole =>
    obtain ⟨hle, -⟩ := digitCount_bounds (Nat.pos_of_ne_zero hwhole)
    have hcount := digitCount_pos (interval.value / interval.denominator)
    have hle : 10 ^ (digitCount (interval.value / interval.denominator) - 1) *
        interval.denominator ≤ interval.value :=
      (Nat.le_div_iff_mul_le h.denominator_pos).mp hle
    rw [← Nat.cast_one, ← Nat.cast_sub hcount, zpow_natCast]
    exact_mod_cast hle

/-! ## The search -/

/-- A number of the grid in the interval is rounded to the float. -/
theorem Spans.rounds_of_onGrid? {grid : Int} {digits : Nat}
    (hdigits : interval.onGrid? grid = some digits) : Rounds M E (digits * 10 ^ grid) := by
  rw [← h.holds_iff]
  rw [onGrid?] at hdigits
  split at hdigits
  · next hlower hupper =>
    obtain rfl := Option.some.inj hdigits
    split
    · exact hlower
    · exact hupper
  · next hlower _ =>
    obtain rfl := Option.some.inj hdigits
    exact hlower
  · next _ hupper =>
    obtain rfl := Option.some.inj hdigits
    exact hupper
  · cases hdigits

/-- The value lies between its neighbours on a grid. -/
theorem Spans.neighbours (grid : Int) :
    (interval.lowerOn grid * 10 ^ grid / 2 ^ E : ℚ) ≤ M ∧
      (M : ℚ) < (interval.lowerOn grid + 1 : Nat) * 10 ^ grid / 2 ^ E := by
  have hpos := h.unit_pos grid
  have hdecimal : ∀ n : Nat, ((n * (interval.denominator * tenPow grid.toNat) : Nat) : ℚ) =
      n * 10 ^ grid / 2 ^ E * interval.unit E grid := by
    intro n
    rw [Nat.mul_comm interval.denominator, ← Nat.mul_assoc, decimal_eq]
  have hvalue := scaled_eq h.value_eq grid
  have hdivisor : 0 < interval.denominator * tenPow grid.toNat :=
    Nat.mul_pos h.denominator_pos (tenPow_pos _)
  have hle : interval.lowerOn grid * (interval.denominator * tenPow grid.toNat) ≤
      interval.value * tenPow (-grid).toNat := Nat.div_mul_le_self _ _
  have hlt : interval.value * tenPow (-grid).toNat <
      (interval.lowerOn grid + 1) * (interval.denominator * tenPow grid.toNat) :=
    (Nat.div_lt_iff_lt_mul hdivisor).mp (Nat.lt_succ_self _)
  rw [← Nat.cast_le (α := ℚ), hdecimal, hvalue, mul_le_mul_iff_left₀ hpos] at hle
  rw [← Nat.cast_lt (α := ℚ), hdecimal, hvalue, mul_lt_mul_iff_left₀ hpos] at hlt
  exact ⟨hle, hlt⟩

/-- On a grid of seventeen digits one of the neighbours of a float is in its interval. -/
theorem Spans.isSome_onGrid? (hM : M < 2 ^ 53) {grid : Int}
    (hgrid : 10 ^ 16 * (10 : ℚ) ^ grid ≤ M * 2 ^ E) : (interval.onGrid? grid).isSome := by
  rw [isSome_onGrid?_iff, h.holds_iff, h.holds_iff]
  by_contra hnone
  obtain ⟨hlower, hupper⟩ := not_or.mp hnone
  obtain ⟨hle, hlt⟩ := h.neighbours grid
  have hreach := reachBelow_pos M E
  have hbelow : (interval.lowerOn grid : ℚ) * 10 ^ grid / 2 ^ E ≤ M - reachBelow M E :=
    not_lt.mp fun hlo => hlower (.of_between hlo (by linarith))
  have habove : (M : ℚ) + 1 / 2 ≤ (interval.lowerOn grid + 1 : Nat) * 10 ^ grid / 2 ^ E :=
    not_lt.mp fun hhi => hupper (.of_between (by linarith) hhi)
  -- The grid would be wider than the interval.
  have hwide : 1 / 2 + reachBelow M E ≤ (10 : ℚ) ^ grid / 2 ^ E := by
    have hwidth : ((interval.lowerOn grid + 1 : Nat) : ℚ) * 10 ^ grid / 2 ^ E =
        interval.lowerOn grid * 10 ^ grid / 2 ^ E + 10 ^ grid / 2 ^ E := by
      push_cast
      ring
    linarith
  have hfine : 10 ^ 16 * (10 ^ grid / 2 ^ E) ≤ (M : ℚ) := by
    rwa [← mul_div_assoc, div_le_iff₀ (two_zpow_pos E)]
  have hM : (M : ℚ) < (2 ^ 53 : Nat) := by exact_mod_cast hM
  rw [reachBelow] at hwide
  generalize (10 : ℚ) ^ grid / 2 ^ E = width at hwide hfine
  push_cast at hM
  split at hwide
  · next hpower =>
    rw [hpower.1] at hfine
    push_cast at hfine
    linarith
  · linarith

/-- What is found first is in the interval, if the last grid that is tried has seventeen digits. -/
theorem Spans.rounds_firstGrid (hc : Canonical M E) (tries count : Nat)
    (hcount : tries + count = 18) (htries : 0 < tries) :
    Rounds M E ((interval.firstGrid interval.magnitude tries count).1 *
      10 ^ (interval.firstGrid interval.magnitude tries count).2) := by
  induction tries generalizing count with
  | zero => exact absurd htries (Nat.lt_irrefl 0)
  | succ tries ih =>
    rw [firstGrid]
    split
    · next digits hdigits => exact h.rounds_of_onGrid? hdigits
    · next hnone =>
      rcases Nat.eq_zero_or_pos tries with rfl | hpos
      · have hgrid : interval.magnitude = 16 + (interval.magnitude - count + 1) := by omega
        have hle := h.magnitude_le hc.pos
        rw [hgrid, zpow_add₀ (by norm_num)] at hle
        have hsome := h.isSome_onGrid? hc.lt hle
        rw [hnone] at hsome
        cases hsome
      · exact ih (count + 1) (by omega) hpos

end

end RoundingInterval

/-! ## The shortest decimal -/

/-- Leaving out zeros at the end does not change a decimal. -/
theorem stripZeros_value (steps digits : Nat) (grid : Int) :
    ((stripZeros steps digits grid).1 : ℚ) * 10 ^ (stripZeros steps digits grid).2 =
      digits * 10 ^ grid := by
  induction steps generalizing digits grid with
  | zero => rfl
  | succ steps ih =>
    rw [stripZeros]
    split
    · next hzero =>
      have hdigits : digits = digits / 10 * 10 := by omega
      have hcast : (digits : ℚ) = (digits / 10 : Nat) * 10 := by exact_mod_cast hdigits
      rw [ih, zpow_add_one₀ (by norm_num), hcast]
      ring
    · rfl

/-- The shortest decimal of a float rounds to it. -/
theorem rounds_shortest (hc : Canonical M E) : ∃ grid : Int,
    (shortest M E).exponent = grid + digitCount (shortest M E).digits - 1 ∧
      Rounds M E ((shortest M E).digits * 10 ^ grid) := by
  have hrounds := (spans_roundingInterval hc.pos).rounds_firstGrid hc 17 1 rfl (by decide)
  rw [← stripZeros_value 20] at hrounds
  exact ⟨_, rfl, hrounds⟩

end Formula.Number
