import Formula.Number.Text
import Formula.Proofs.Number.Sign

/-!
# How numbers are printed

A finite number without a sign is printed as digits, at least one, and then perhaps a point with
more digits; there is no exponent.  Another has a minus before these.
-/

namespace Formula.Number

open Formula.Text (isDigit)

/-- Digits, at least one, and perhaps a point and more digits. -/
def PlainDecimal (text : List Char) : Prop :=
  ∃ whole, whole ≠ [] ∧ (∀ c ∈ whole, isDigit c = true) ∧
    (text = whole ∨
      ∃ fraction, (∀ c ∈ fraction, isDigit c = true) ∧ text = whole ++ '.' :: fraction)

/-! ## Digits -/

theorem isDigit_of_mem_decimalDigits {n : Nat} {c : Char} (h : c ∈ decimalDigits n) :
    isDigit c = true := by
  have hc := Nat.isDigit_of_mem_toDigits (by decide) (by decide) h
  rw [Char.isDigit, Bool.and_eq_true, decide_eq_true_eq, decide_eq_true_eq] at hc
  rw [isDigit, Bool.and_eq_true, decide_eq_true_eq, decide_eq_true_eq]
  exact hc

theorem decimalDigits_ne_nil (n : Nat) : decimalDigits n ≠ [] := Nat.toDigits_ne_nil

theorem isDigit_of_mem_replicate {n : Nat} {c : Char} (h : c ∈ List.replicate n '0') :
    isDigit c = true := by
  rw [(List.mem_replicate.mp h).2]
  decide

theorem plainDecimal_digits (n : Nat) : PlainDecimal (decimalDigits n) :=
  ⟨_, decimalDigits_ne_nil n, fun _ => isDigit_of_mem_decimalDigits, .inl rfl⟩

/-- The digits of a number with the point among them are a plain decimal, wherever the point
falls. -/
theorem plainDecimal_positional (s : Scientific) : PlainDecimal (positional false s) := by
  rw [positional]
  dsimp only
  -- All digits stand behind the point, or before it, or on both sides.
  split
  · refine ⟨['0'], by simp, List.forall_mem_singleton.mpr rfl, .inr ⟨_, ?_, rfl⟩⟩
    intro c hc
    rcases List.mem_append.mp hc with hc | hc
    · exact isDigit_of_mem_replicate hc
    · exact isDigit_of_mem_decimalDigits hc
  split
  · refine ⟨_, ?_, ?_, .inl (List.append_nil _)⟩
    · exact fun h => decimalDigits_ne_nil _ (List.append_eq_nil_iff.mp h).1
    · intro c hc
      rcases List.mem_append.mp hc with hc | hc
      · exact isDigit_of_mem_decimalDigits hc
      · exact isDigit_of_mem_replicate hc
  · refine ⟨_, ?_, fun c hc => isDigit_of_mem_decimalDigits (List.mem_of_mem_take hc),
      .inr ⟨_, fun c hc => isDigit_of_mem_decimalDigits (List.mem_of_mem_drop hc), rfl⟩⟩
    intro h
    rcases List.take_eq_nil_iff.mp h with h | h
    · omega
    · exact decimalDigits_ne_nil _ h

/-! ## The parts of a number that is printed -/

/-- A finite number has a mantissa and an exponent, and is negative if its first bit is set. -/
theorem exists_parts? {x : Float} (hfinite : x.isFinite = true) :
    ∃ p, parts? x = some p ∧ p.negative = decide (twoPow 63 ≤ x.toBits.toNat) := by
  -- The largest exponent is that of infinities and of what is no number.
  have hexponent : x.toBits.toNat / twoPow 52 % twoPow 11 ≠ 2047 := by
    intro hmax
    have hbits : @Float.Model.UnpackedFloat.unpackExponent Float.Model.Format.binary64
        x.toModel.toBits.toBitVec = -1#11 := by
      apply BitVec.eq_of_toNat_eq
      have htoNat : x.toModel.toBits.toNat / 2 ^ 52 % 2 ^ 11 = 2047 := hmax
      simp [Float.Model.UnpackedFloat.unpackExponent, Nat.shiftRight_eq_div_pow]
      omega
    have hunpacked : x.toModel.unpack.isFinite = true := hfinite
    delta Float.Model.unpack Float.Model.UnpackedFloat.unpack at hunpacked
    dsimp only at hunpacked
    rw [if_pos hbits] at hunpacked
    split at hunpacked
    · cases hunpacked
    · cases hunpacked
  rw [parts?, if_neg hexponent]
  split
  · exact ⟨_, rfl, rfl⟩
  · exact ⟨_, rfl, rfl⟩

theorem wholePart_nonneg {p : Parts} (h : p.negative = false) : 0 ≤ wholePart p := by
  rw [wholePart, h]
  exact Int.natCast_nonneg _

/-- A finite number without a sign is printed in plain notation. -/
theorem plainDecimal_display {x : Float} (hfinite : x.isFinite = true) (hsign : SignClear x) :
    PlainDecimal (display x).toList := by
  obtain ⟨p, hp, hnegative⟩ := exists_parts? hfinite
  rw [decide_eq_false (Nat.not_le_of_lt hsign)] at hnegative
  have hplain : PlainDecimal (plain x).toList := by
    rw [plain, write, hp]
    dsimp only
    rw [hnegative]
    simpa using plainDecimal_positional _
  rw [display, hp]
  dsimp only
  split
  · rw [integerText, if_neg (Int.not_lt.mpr (wholePart_nonneg hnegative))]
    simpa using plainDecimal_digits _
  · exact hplain

/-- A finite number is printed in plain notation, perhaps with a sign before it. -/
theorem display_cases {x : Float} (hfinite : x.isFinite = true) :
    PlainDecimal (display x).toList ∨
      ∃ digits, PlainDecimal digits ∧ (display x).toList = '-' :: digits := by
  -- What is printed with a sign has the rest of its text behind it.
  have hsigned : ∀ (negative : Prop) [Decidable negative] {digits : List Char},
      PlainDecimal digits →
      PlainDecimal ((if negative then "-" else "") ++ String.ofList digits).toList ∨
        ∃ rest, PlainDecimal rest ∧
          ((if negative then "-" else "") ++ String.ofList digits).toList = '-' :: rest := by
    intro negative _ digits hdigits
    split
    · exact .inr ⟨digits, hdigits, by simp⟩
    · exact .inl (by simpa using hdigits)
  obtain ⟨p, hp, -⟩ := exists_parts? hfinite
  rw [display, hp]
  dsimp only
  split
  · exact hsigned (wholePart p < 0) (plainDecimal_digits _)
  · rw [plain, write, hp]
    exact hsigned (p.negative = true) (plainDecimal_positional _)

/-- A number in plain notation is read as it is, for there is no sign before it. -/
theorem read?_of_plainDecimal {text : List Char} (h : PlainDecimal text) :
    read? text = readUnsigned? text := by
  obtain ⟨_ | ⟨c, whole⟩, hne, hwhole, hcases⟩ := h
  · exact absurd rfl hne
  have hc : isDigit c = true := hwhole c List.mem_cons_self
  obtain ⟨rest, rfl⟩ : ∃ rest, text = c :: rest := by
    rcases hcases with rfl | ⟨fraction, -, rfl⟩
    · exact ⟨_, rfl⟩
    · exact ⟨_, rfl⟩
  rw [read?.eq_def]
  split
  · next hminus =>
    cases hminus
    exact absurd hc (by decide)
  · next hplus =>
    cases hplus
    exact absurd hc (by decide)
  · rfl

end Formula.Number
