import Formula.Number.Reading

/-!
# The sign of numbers that are read

A decimal without a sign is read as a float whose sign bit is clear, and so is one hundredth of it.
The sign of a float is taken from its unpacked form, where products and quotients multiply signs.
-/

namespace Formula.Number

open Float.Model (UnpackedFloat Format)
open Float.Model.UnpackedFloat (Sign)

/-! ## Unpacked floats -/

/-- Whether an unpacked float has no negative sign. -/
def IsPositive : UnpackedFloat → Prop
  | .infinity sign | .zero sign | .finite sign _ _ _ => sign = .positive
  | .notANumber => True

/-- A choice has what both of its branches have. -/
theorem dite_induction {α : Type} {motive : α → Prop} {c : Prop} [Decidable c] {a : c → α}
    {b : ¬c → α} (ha : ∀ h, motive (a h)) (hb : ∀ h, motive (b h)) : motive (dite c a b) := by
  split
  · exact ha _
  · exact hb _

theorem isPositive_round (spec : Format) (mantissa : Nat) (exponent : Int)
    (accuracy : UnpackedFloat.Accuracy) :
    IsPositive (UnpackedFloat.roundWithAccuracy spec .positive mantissa exponent accuracy) := by
  rw [UnpackedFloat.roundWithAccuracy]
  exact dite_induction (fun _ => rfl) fun _ => rfl

theorem isPositive_mul {spec : Format} {a b : UnpackedFloat} (ha : IsPositive a)
    (hb : IsPositive b) : IsPositive (UnpackedFloat.mul spec a b) := by
  cases a <;> cases b <;> dsimp only [IsPositive] at ha hb <;> subst_vars
  case finite.finite => exact isPositive_round ..
  all_goals first | exact trivial | exact rfl

theorem isPositive_div {spec : Format} {a b : UnpackedFloat} (ha : IsPositive a)
    (hb : IsPositive b) : IsPositive (UnpackedFloat.div spec a b) := by
  cases a <;> cases b <;> dsimp only [IsPositive] at ha hb <;> subst_vars
  case finite.finite => exact isPositive_round ..
  all_goals first | exact trivial | exact rfl

theorem isPositive_ofNat (spec : Format) (n : Nat) : IsPositive (UnpackedFloat.ofNat spec n) := by
  rw [UnpackedFloat.ofNat, UnpackedFloat.ofInt, UnpackedFloat.normalize]
  split
  · next h =>
    rw [Int.compare_eq_lt] at h
    omega
  · rfl
  · exact isPositive_round ..

/-- The unpacked number of a mantissa and a decimal exponent has no sign. -/
theorem isPositive_ofScientific (spec : Format) (m : Nat) (e : Int) :
    IsPositive (UnpackedFloat.ofScientific spec m e) := by
  rw [UnpackedFloat.ofScientific]
  refine dite_induction (fun _ => rfl) fun _ => iteInduction (fun _ => rfl) fun _ => ?_
  refine iteInduction (fun _ => rfl) fun _ => ?_
  exact iteInduction (fun _ => isPositive_mul rfl rfl) fun _ => isPositive_div rfl rfl

/-! ## Packed floats -/

/-- Whether the sign bit of a float is clear. -/
def SignClear (x : Float) : Prop := x.toBits.toNat < twoPow 63

/-- Without a sign the first bit is clear, so what is packed is below half of the range. -/
theorem toNat_packComponents_lt (exponent : BitVec 11) (mantissa : BitVec 52) :
    (UnpackedFloat.packComponents Format.binary64 .positive exponent mantissa).toNat <
      twoPow 63 := by
  rw [UnpackedFloat.packComponents, BitVec.toNat_append, BitVec.toNat_append]
  have he := exponent.isLt
  have hm := mantissa.isLt
  rw [← Nat.shiftLeft_add_eq_or_of_lt hm, ← Nat.shiftLeft_add_eq_or_of_lt he]
  simp only [Sign.toBitVec, BitVec.toNat_ofNat, Nat.shiftLeft_eq, twoPow, Nat.pow_eq]
  omega

theorem toNat_pack_lt {a : UnpackedFloat} (h : IsPositive a) :
    (UnpackedFloat.pack Format.binary64 a).toNat < twoPow 63 := by
  rw [UnpackedFloat.pack.eq_def]
  split <;> dsimp only [IsPositive] at h <;> subst_vars
  · exact toNat_packComponents_lt ..
  · exact toNat_packComponents_lt ..
  · exact toNat_packComponents_lt ..
  · dsimp only
    split
    · exact toNat_packComponents_lt ..
    split
    · exact toNat_packComponents_lt ..
    · exact toNat_packComponents_lt ..

theorem signClear_pack {a : UnpackedFloat} (h : IsPositive a) :
    SignClear (.ofModel (.pack a)) := toNat_pack_lt h

/-- A float below half of the range is unpacked without a sign. -/
theorem isPositive_unpack {bits : BitVec 64} (h : bits.toNat < twoPow 63) :
    IsPositive (UnpackedFloat.unpack Format.binary64 bits) := by
  -- The sign is the highest bit.
  have hsign : Sign.ofBitVec (@UnpackedFloat.unpackSign Format.binary64 bits) = .positive := by
    rw [Sign.ofBitVec, if_pos]
    apply BitVec.eq_of_toNat_eq
    have hlt : bits.toNat < 2 ^ 63 := h
    delta UnpackedFloat.unpackSign
    simp [Nat.shiftRight_eq_div_pow]
    omega
  delta UnpackedFloat.unpack
  refine iteInduction (fun _ => iteInduction (fun _ => hsign) fun _ => trivial) fun _ => ?_
  refine iteInduction (fun _ => ?_) fun _ => hsign
  exact dite_induction (fun _ => hsign) fun _ => hsign

theorem signClear_ofBits {bits : UInt64} (h : bits.toNat < twoPow 63) :
    SignClear (Float.ofBits bits) :=
  signClear_pack (isPositive_unpack h)

theorem SignClear.mul {a b : Float} (ha : SignClear a) (hb : SignClear b) : SignClear (a * b) :=
  signClear_pack (isPositive_mul (isPositive_unpack ha) (isPositive_unpack hb))

theorem SignClear.div {a b : Float} (ha : SignClear a) (hb : SignClear b) : SignClear (a / b) :=
  signClear_pack (isPositive_div (isPositive_unpack ha) (isPositive_unpack hb))

theorem signClear_of_mem_powersOfTen :
    ∀ {x}, x ∈ Float.exactlyRepresentablePowersOfTen.toList → SignClear x := by
  simp only [Float.exactlyRepresentablePowersOfTen, List.forall_mem_cons]
  and_intros
  all_goals first | exact signClear_ofBits (by decide) | exact List.forall_mem_nil _

/-- A decimal is a product or quotient with a power of ten of the table, or computed from its
digits; neither has a sign. -/
theorem signClear_ofScientific (m : Nat) (s : Bool) (e : Nat) :
    SignClear (Float.ofScientific m s e) := by
  rw [Float.ofScientific]
  dsimp only
  split
  · next h =>
    -- Small mantissas and exponents are multiplied or divided as floats.
    have hm : SignClear m.toUInt64.toFloat := signClear_pack (isPositive_ofNat ..)
    have he := signClear_of_mem_powersOfTen (Array.getElem_mem_toList
      (show e < Float.exactlyRepresentablePowersOfTen.size from Nat.lt_succ_of_le h.2))
    split
    · exact hm.div he
    · exact hm.mul he
  · exact signClear_pack (isPositive_ofScientific ..)

/-! ## Numbers that are read -/

theorem signClear_zero : SignClear 0 := signClear_ofScientific ..

theorem signClear_hundred : SignClear 100 := signClear_ofScientific ..

theorem signClear_infinity : SignClear infinity := signClear_ofBits (by decide)

theorem signClear_ofDecimal (mantissa : Nat) (exponent : Int) :
    SignClear (ofScientific mantissa exponent) := by
  rw [ofScientific]
  split
  · exact signClear_zero
  split
  · exact signClear_infinity
  split
  · exact signClear_zero
  · exact signClear_ofScientific ..

/-- Digits are read without a sign, with a point or an exponent among them or not. -/
theorem signClear_of_readDecimal? {text : List Char} {x : Float} (h : readDecimal? text = some x) :
    SignClear x := by
  rw [readDecimal?] at h
  dsimp only at h
  split at h <;> split at h
  · cases h
  · obtain ⟨exponent, -, rfl⟩ := Option.map_eq_some_iff.mp h
    exact signClear_ofDecimal ..
  · cases h
  · obtain ⟨exponent, -, rfl⟩ := Option.map_eq_some_iff.mp h
    exact signClear_ofDecimal ..

/-- Nor do the words for infinity and NaN give a sign. -/
theorem signClear_of_readUnsigned? {text : List Char} {x : Float}
    (h : readUnsigned? text = some x) : SignClear x := by
  rw [readUnsigned?] at h
  split at h
  · next y hy =>
    obtain rfl : y = x := Option.some.inj h
    exact signClear_of_readDecimal? hy
  · dsimp only at h
    split at h
    · obtain rfl := Option.some.inj h
      exact signClear_infinity
    split at h
    · obtain rfl := Option.some.inj h
      exact signClear_ofBits (by decide)
    · cases h

/-- A number that is read from a text without a sign has a clear sign bit. -/
theorem signClear_of_read? {text : List Char} {x : Float} (h : read? text = some x)
    (hsign : text.head? ≠ some '-') : SignClear x := by
  rw [read?.eq_def] at h
  split at h
  · exact absurd rfl hsign
  · exact signClear_of_readUnsigned? h
  · exact signClear_of_readUnsigned? h

end Formula.Number
