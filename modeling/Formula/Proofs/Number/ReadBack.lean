import Formula.Proofs.Number.Shortest
import Formula.Proofs.Token.Literals

/-!
# Numbers read back from their text

A finite number is printed as digits that are read as the same number, with a sign before them if it
is negative (`read?_display`).
-/

namespace Formula.Number

open Formula.Text (isDigit)
open Float.Model.UnpackedFloat (Sign)

variable {M : Nat} {E : Int}

/-! ## Digits -/

theorem readDecimal?_whole {whole : List Char} (hne : whole ≠ [])
    (hwhole : ∀ c ∈ whole, isDigit c = true) :
    readDecimal? whole = some (ofScientific (digitsValue 0 whole) 0) := by
  obtain ⟨htake, hdrop⟩ := run_printed (v := []) hwhole nofun
  rw [List.append_nil] at htake hdrop
  rw [readDecimal?, htake, hdrop]
  exact if_neg fun h => hne h.1

/-- Digits with a point among them are read as the number without the point, scaled by as many
places. -/
theorem readDecimal?_pointed {whole fraction : List Char} (hne : whole ≠ [])
    (hwhole : ∀ c ∈ whole, isDigit c = true) (hfraction : ∀ c ∈ fraction, isDigit c = true) :
    readDecimal? (whole ++ '.' :: fraction) =
      some (ofScientific (digitsValue 0 (whole ++ fraction)) (-fraction.length)) := by
  have hpoint : ∀ c ∈ ('.' :: fraction).head?, isDigit c = false := by
    rintro c ⟨⟩
    decide
  obtain ⟨htake, hdrop⟩ := run_printed hwhole hpoint
  obtain ⟨htake', hdrop'⟩ := run_printed (v := []) hfraction nofun
  rw [List.append_nil] at htake' hdrop'
  rw [readDecimal?, htake, hdrop]
  show (if whole = [] ∧ fraction.takeWhile isDigit = [] then none
    else (readExponent? (fraction.dropWhile isDigit)).map fun exponent => ofScientific
      (digitsValue (digitsValue 0 whole) (fraction.takeWhile isDigit))
      (exponent - (fraction.takeWhile isDigit).length)) = _
  rw [htake', hdrop', if_neg fun h => hne h.1, digitsValue_append, ← zero_sub]
  rfl

/-- A number in plain notation that is read at all is a number without a sign. -/
theorem read?_of_readDecimal? {text : List Char} (htext : PlainDecimal text) {x : Float}
    (h : readDecimal? text = some x) : read? text = some x := by
  rw [read?_of_plainDecimal htext, readUnsigned?, h]

/-! ## Plain notation -/

/-- A decimal in plain notation is read as a decimal of the same value. -/
theorem readDecimal?_positional (s : Scientific) {grid : Int}
    (hgrid : s.exponent = grid + digitCount s.digits - 1) : ∃ m e,
      readDecimal? (positional false s) = some (ofScientific m e) ∧
        (m : ℚ) * 10 ^ e = s.digits * 10 ^ grid := by
  have hdigits : ∀ c ∈ decimalDigits s.digits, isDigit c = true :=
    fun _ => isDigit_of_mem_decimalDigits
  have hlength : (decimalDigits s.digits).length = digitCount s.digits := rfl
  rw [positional]
  dsimp only
  split
  · next hneg =>
    -- All digits stand behind the point.
    have hfraction : ∀ c ∈ List.replicate (s.exponent.natAbs - 1) '0' ++ decimalDigits s.digits,
        isDigit c = true :=
      fun c hc => (List.mem_append.mp hc).elim isDigit_of_mem_replicate (hdigits c)
    have hread := readDecimal?_pointed (List.cons_ne_nil '0' [])
      (List.forall_mem_singleton.mpr rfl) hfraction
    refine ⟨_, _, hread, ?_⟩
    have hvalue : digitsValue 0 (['0'] ++ (List.replicate (s.exponent.natAbs - 1) '0' ++
        decimalDigits s.digits)) = s.digits := by
      rw [digitsValue_append, digitsValue_append, digitsValue_zeros,
        show digitsValue 0 ['0'] = 0 from rfl, mul_zero, digitsValue_decimalDigits]
    rw [hvalue, List.length_append, List.length_replicate, hlength]
    congr 2
    omega
  split
  · next hplaces =>
    -- All digits stand before the point.
    obtain ⟨zeros, hzeros⟩ := Nat.exists_eq_add_of_le hplaces
    have hwhole : ∀ c ∈ decimalDigits s.digits ++ List.replicate zeros '0', isDigit c = true :=
      fun c hc => (List.mem_append.mp hc).elim (hdigits c) isDigit_of_mem_replicate
    have hne : decimalDigits s.digits ++ List.replicate zeros '0' ≠ [] :=
      List.append_ne_nil_of_left_ne_nil (decimalDigits_ne_nil _) _
    rw [if_neg Bool.false_ne_true, List.append_nil, hzeros, Nat.add_sub_cancel_left]
    refine ⟨_, _, readDecimal?_whole hne hwhole, ?_⟩
    have hexponent : grid = zeros := by omega
    rw [digitsValue_append, digitsValue_zeros, digitsValue_decimalDigits, hexponent, zpow_natCast]
    push_cast
    ring
  · next hplaces =>
    rw [not_le] at hplaces
    have hne : (decimalDigits s.digits).take (s.exponent.natAbs + 1) ≠ [] := by
      rw [Ne, List.take_eq_nil_iff]
      exact fun h => h.elim (Nat.succ_ne_zero _) (decimalDigits_ne_nil _)
    have hfraction : ∀ c ∈ (decimalDigits s.digits).drop (s.exponent.natAbs + 1),
        isDigit c = true := fun c hc => hdigits c (List.mem_of_mem_drop hc)
    have hread := readDecimal?_pointed hne (fun c hc => hdigits c (List.mem_of_mem_take hc))
      hfraction
    refine ⟨_, _, hread, ?_⟩
    rw [List.take_append_drop, digitsValue_decimalDigits, List.length_drop, hlength]
    congr 2
    omega

/-! ## Numbers -/

/-- A float without a sign is read from its digits. -/
theorem readDecimal?_shortest (hc : Canonical M E) :
    readDecimal? (positional false (shortest M E)) = some (stored false hc) := by
  obtain ⟨grid, hgrid, hrounds⟩ := rounds_shortest hc
  obtain ⟨m, e, hread, hvalue⟩ := readDecimal?_positional _ hgrid
  rw [← hvalue] at hrounds
  rw [hread, ofScientific_eq hc hrounds]

/-- A natural number that is a float is read from its digits. -/
theorem readDecimal?_decimalDigits (hc : Canonical M E) {n : Nat} (hn : (n : ℚ) = M * 2 ^ E) :
    readDecimal? (decimalDigits n) = some (stored false hc) := by
  have hrounds : Rounds M E (n * 10 ^ (0 : Int)) := by
    rw [zpow_zero, mul_one, hn]
    exact rounds_self M E
  rw [readDecimal?_whole (decimalDigits_ne_nil n) fun _ => isDigit_of_mem_decimalDigits,
    digitsValue_decimalDigits, ofScientific_eq hc hrounds]

/-! ## Signs -/

theorem neg_stored (hc : Canonical M E) : -stored false hc = stored true hc := by
  have hneg : -stored false hc = .ofModel (.pack (stored false hc).toModel.unpack.neg) := rfl
  rw [hneg, toModel_stored]
  rfl

/-- A finite number equals the float of its parts. -/
theorem stored_beq (negative : Bool) (hc : Canonical M E) {x : Float}
    (hx : x.toModel.unpack = .finite (signOf negative) M E hc.pos) :
    (stored negative hc == x) = true := by
  have hbeq : (stored negative hc == x) =
      ((stored negative hc).toModel.unpack.compare x.toModel.unpack == some .eq) := rfl
  have hself : ∀ n : Int, Ord.compare n n = .eq := fun n => Int.compare_eq_eq.mpr rfl
  have hself' : ∀ n : Nat, Ord.compare n n = .eq := fun n => Nat.compare_eq_eq.mpr rfl
  rw [hbeq, toModel_stored, hx]
  cases negative
  · show (some ((Ord.compare E E).then (Ord.compare M M)) == some Ordering.eq) = true
    rw [hself, hself']
    rfl
  · show (some ((Ord.compare E E).then (Ord.compare M M)).swap == some Ordering.eq) = true
    rw [hself, hself']
    rfl

/-- Zeros are equal, whatever their signs. -/
theorem zero_beq (negative : Bool) {x : Float} {sign : Sign}
    (hx : x.toModel.unpack = .zero sign) :
    ((if negative then -(0 : Float) else 0) == x) = true := by
  have hparts : parts? (if negative then -(0 : Float) else 0) = some ⟨negative, 0, -1074⟩ := by
    revert negative
    decide +kernel
  rcases unpack_of_parts? hparts with ⟨-, hzero⟩ | ⟨hc, -⟩
  · generalize (if negative then -(0 : Float) else 0) = zero at hzero
    have hbeq : (zero == x) = (zero.toModel.unpack.compare x.toModel.unpack == some .eq) := rfl
    rw [hbeq, hzero, hx]
    rfl
  · exact absurd hc.pos (Nat.lt_irrefl 0)

/-- A number in plain notation with perhaps a minus before it is read with its sign. -/
theorem read?_signed (negative : Bool) {digits : List Char} {z : Float}
    (hplain : PlainDecimal digits) (hread : readDecimal? digits = some z) :
    read? ((if negative then "-" else "") ++ String.ofList digits).toList =
      some (if negative then -z else z) := by
  cases negative
  · simpa using read?_of_readDecimal? hplain hread
  · have htext : ((if true then "-" else "") ++ String.ofList digits).toList = '-' :: digits := by
      simp
    rw [htext, read?, readUnsigned?, hread]
    rfl

/-- The absolute value of a whole number. -/
theorem exists_wholePart {x : Float} {p : Parts} (hp : parts? x = some p)
    (hwhole : isWhole x = true) : ∃ n : Nat, (n : ℚ) = p.mantissa * 2 ^ p.exponent ∧
      wholePart p = if p.negative then -(n : Int) else n := by
  rw [isWhole, hp] at hwhole
  dsimp only at hwhole
  refine ⟨_, ?_, rfl⟩
  split
  · next hexponent =>
    obtain ⟨k, hk⟩ := Int.eq_ofNat_of_zero_le hexponent
    rw [hk]
    simp [twoPow]
  · next hexponent =>
    have hdvd : p.mantissa % twoPow p.exponent.natAbs = 0 := by
      simpa [hexponent] using hwhole
    obtain ⟨k, hk⟩ : ∃ k : Nat, p.exponent = -k := ⟨p.exponent.natAbs, by omega⟩
    rw [hk, Int.natAbs_neg, Int.natAbs_natCast] at hdvd ⊢
    have hmagnitude : Rounding.magnitude .truncate p.negative p.mantissa k =
        p.mantissa / twoPow k := rfl
    have hmantissa : (p.mantissa : ℚ) = 2 ^ k * (p.mantissa / twoPow k : Nat) := by
      exact_mod_cast (Nat.mul_div_cancel' (Nat.dvd_of_mod_eq_zero hdvd)).symm
    rw [hmagnitude, hmantissa, zpow_neg, zpow_natCast]
    field_simp

/-! ## Printed numbers -/

section
variable {x : Float} {p : Parts} (hp : parts? x = some p)
include hp

/-- Whole numbers are printed as integers, if they are not too large. -/
theorem display_eq : (isWhole x = true ∧ display x = integerText (wholePart p)) ∨
    display x = plain x := by
  rw [display, hp]
  dsimp only
  split
  · next hwhole => exact .inl ⟨(Bool.and_eq_true_iff.mp hwhole).1, rfl⟩
  · exact .inr rfl

/-- Zero is displayed as a single digit, perhaps with a sign. -/
theorem exists_display_zero (hzero : p.mantissa = 0) : ∃ negative : Bool,
    display x = (if negative then "-" else "") ++ String.ofList ['0'] := by
  rcases display_eq hp with ⟨hwhole, hdisplay⟩ | hdisplay
  · obtain ⟨n, hn, hpart⟩ := exists_wholePart hp hwhole
    rw [hzero, Nat.cast_zero, zero_mul, Nat.cast_eq_zero] at hn
    have hpart : wholePart p = 0 := by
      rw [hpart, hn]
      split <;> rfl
    exact ⟨false, by rw [hdisplay, hpart]; rfl⟩
  · refine ⟨p.negative, ?_⟩
    rw [hdisplay, plain, write, hp]
    dsimp only
    rw [if_pos hzero]
    rfl

/-- What is printed for a number that is not zero: its sign, and digits that are read as the number
without its sign. -/
theorem exists_display_digits (hc : Canonical p.mantissa p.exponent) : ∃ digits,
    PlainDecimal digits ∧ readDecimal? digits = some (stored false hc) ∧
      display x = (if p.negative then "-" else "") ++ String.ofList digits := by
  rcases display_eq hp with ⟨hwhole, hdisplay⟩ | hdisplay
  · obtain ⟨n, hn, hpart⟩ := exists_wholePart hp hwhole
    refine ⟨_, plainDecimal_digits n, readDecimal?_decimalDigits hc hn, ?_⟩
    have hpos : (0 : ℚ) < n := by
      rw [hn]
      exact mul_pos (by exact_mod_cast hc.pos) (two_zpow_pos _)
    have hpos : 0 < n := by exact_mod_cast hpos
    have hsign : wholePart p < 0 ↔ p.negative = true := by
      rw [hpart]
      cases p.negative <;> simp [hpos]
    have hdigits : (wholePart p).natAbs = n := by
      rw [hpart]
      split <;> omega
    rw [hdisplay, integerText, hdigits]
    simp only [hsign]
  · refine ⟨_, plainDecimal_positional _, readDecimal?_shortest hc, ?_⟩
    rw [hdisplay, plain, write, hp]
    dsimp only
    rw [if_neg hc.pos.ne']

end

/-- A finite number is printed as a text that is read as an equal number. -/
theorem read?_display {x : Float} (hfinite : x.isFinite = true) :
    ∃ y, read? (display x).toList = some y ∧ (y == x) = true := by
  obtain ⟨p, hp, -⟩ := exists_parts? hfinite
  rcases unpack_of_parts? hp with ⟨hzero, hunpack⟩ | ⟨hc, hunpack⟩
  · obtain ⟨negative, hdisplay⟩ := exists_display_zero hp hzero
    refine ⟨_, ?_, zero_beq negative hunpack⟩
    rw [hdisplay]
    exact read?_signed _ (plainDecimal_digits 0) rfl
  · obtain ⟨digits, hplain, hread, hdisplay⟩ := exists_display_digits hp hc
    have hstored : stored p.negative hc =
        if p.negative then -stored false hc else stored false hc := by
      cases p.negative
      · rfl
      · exact (neg_stored hc).symm
    refine ⟨stored p.negative hc, ?_, stored_beq p.negative hc hunpack⟩
    rw [hdisplay, hstored]
    exact read?_signed _ hplain hread

end Formula.Number
