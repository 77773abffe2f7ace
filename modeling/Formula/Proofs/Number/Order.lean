import Formula.Number.Parts

/-!
# Order of floats

Comparing floats gives what comparing their unpacked forms gives (`compare?_eq`), so it is read off
the signs, exponents and mantissas: exchanged floats compare the other way round, a float is equal
to itself unless it is not a number, and floats that are equal compare alike with any other.
-/

namespace Formula.Number

open Float.Model (UnpackedFloat)
open Float.Model.UnpackedFloat (Sign)

/-! ## Unpacked floats -/

theorem compare_swap_sign (s t : Sign) : compare t s = (compare s t).swap := by
  cases s <;> cases t <;> rfl

/-- Magnitudes compare by their exponents first. -/
theorem compare_swap_magnitude (m m' : Nat) (e e' : Int) :
    (compare e' e).then (compare m' m) = ((compare e e').then (compare m m')).swap := by
  rw [Ordering.swap_then, Int.compare_swap, Nat.compare_swap]

theorem compare_self_magnitude (m : Nat) (e : Int) :
    (compare e e).then (compare m m) = .eq := by
  rw [Std.compare_self, Std.compare_self]
  rfl

/-- Two unpacked floats compare the other way round when they are exchanged. -/
theorem compare_swap_unpacked (a b : UnpackedFloat) :
    b.compare a = (a.compare b).map Ordering.swap := by
  cases a with
  | notANumber => cases b <;> rfl
  | infinity s =>
    cases b with
    | infinity t => exact congrArg some (compare_swap_sign s t)
    | _ => cases s <;> rfl
  | zero s =>
    cases b with
    | notANumber | zero => rfl
    | infinity t | finite t => cases t <;> rfl
  | finite s m e =>
    cases b with
    | notANumber => rfl
    | infinity t => cases t <;> rfl
    | zero => cases s <;> rfl
    | finite t m' e' =>
      have hmagnitude := compare_swap_magnitude m m' e e'
      cases s with
      | positive =>
        cases t with
        | positive => exact congrArg some hmagnitude
        | negative => rfl
      | negative =>
        cases t with
        | positive => rfl
        | negative => exact congrArg (fun o => some (Ordering.swap o)) hmagnitude

/-- A number compares as equal with itself, and NaN does not compare. -/
theorem compare_self_unpacked (a : UnpackedFloat) :
    a.compare a = if a.isNaN then none else some .eq := by
  cases a with
  | notANumber | zero => rfl
  | infinity s => cases s <;> rfl
  | finite s m e =>
    have hmagnitude := compare_self_magnitude m e
    cases s with
    | positive => exact congrArg some hmagnitude
    | negative => exact congrArg (fun o => some (Ordering.swap o)) hmagnitude

/-- Equal magnitudes have the same exponent and the same mantissa. -/
theorem eq_of_compare_magnitude {m m' : Nat} {e e' : Int}
    (h : (compare e e').then (compare m m') = .eq) : e = e' ∧ m = m' := by
  obtain ⟨he, hm⟩ := Ordering.then_eq_eq.mp h
  exact ⟨Int.compare_eq_eq.mp he, Nat.compare_eq_eq.mp hm⟩

/-- Equal finite floats have the same sign, exponent and mantissa. -/
theorem eq_of_compare_finite {s t : Sign} {m m' : Nat} {e e' : Int} {hm : 0 < m} {hm' : 0 < m'}
    (h : (UnpackedFloat.finite s m e hm).compare (.finite t m' e' hm') = some .eq) :
    s = t ∧ e = e' ∧ m = m' := by
  cases s with
  | positive =>
    cases t with
    | positive => exact ⟨rfl, eq_of_compare_magnitude (Option.some.inj h)⟩
    | negative => cases h
  | negative =>
    cases t with
    | positive => cases h
    | negative =>
      exact ⟨rfl, eq_of_compare_magnitude (Ordering.swap_eq_eq.mp (Option.some.inj h))⟩

/-- Unpacked floats that are equal compare alike with any other. -/
theorem compare_congr_unpacked {a b : UnpackedFloat} (h : a.compare b = some .eq)
    (c : UnpackedFloat) : b.compare c = a.compare c := by
  cases a with
  | notANumber => cases h
  | infinity s =>
    cases b with
    | infinity t => cases s <;> cases t <;> first | rfl | cases h
    | notANumber => cases h
    | zero | finite => cases s <;> cases h
  | zero s =>
    cases b with
    | zero t =>
      cases c with
      | notANumber | zero => rfl
      | infinity u | finite u => cases u <;> rfl
    | notANumber => cases h
    | infinity t | finite t => cases t <;> cases h
  | finite s m e hm =>
    cases b with
    | notANumber => cases h
    | infinity t => cases t <;> cases h
    | zero t => cases s <;> cases h
    | finite t m' e' hm' =>
      obtain ⟨rfl, rfl, rfl⟩ := eq_of_compare_finite h
      rfl

/-! ## Floats -/

theorem lt_iff_unpacked (x y : Float) :
    x < y ↔ x.toModel.unpack.compare y.toModel.unpack = some .lt := by
  show decide (x.toModel < y.toModel) = true ↔ _
  rw [decide_eq_true_iff]
  show (x.toModel.unpack.compare y.toModel.unpack == some .lt) = true ↔ _
  exact beq_iff_eq

/-- Comparing floats gives what comparing their unpacked forms gives. -/
theorem compare?_eq (x y : Float) : compare? x y = x.toModel.unpack.compare y.toModel.unpack := by
  have heq : (x == y) = (x.toModel.unpack.compare y.toModel.unpack == some .eq) := rfl
  have hswap := compare_swap_unpacked x.toModel.unpack y.toModel.unpack
  unfold compare?
  simp only [lt_iff_unpacked, heq, hswap]
  cases x.toModel.unpack.compare y.toModel.unpack with
  | none => rfl
  | some o => cases o <;> rfl

/-- Floats compare the other way round when they are exchanged. -/
theorem compare?_swap (x y : Float) : compare? y x = (compare? x y).map Ordering.swap := by
  rw [compare?_eq, compare?_eq, compare_swap_unpacked]

/-- Floats are equal where neither comes before the other. -/
theorem compare?_eq_some_eq_iff {x y : Float} : compare? x y = some .eq ↔ (x == y) = true := by
  rw [compare?_eq]
  exact beq_iff_eq.symm

/-- A float is equal to itself, unless it is not a number. -/
theorem compare?_self (x : Float) : compare? x x = if x.isNaN then none else some .eq := by
  rw [compare?_eq]
  exact compare_self_unpacked x.toModel.unpack

theorem beq_self (x : Float) : (x == x) = !x.isNaN := by
  rw [Bool.eq_iff_iff, ← compare?_eq_some_eq_iff, compare?_self]
  cases x.isNaN <;> simp

/-- Equality of floats is symmetric. -/
theorem beq_comm (x y : Float) : (x == y) = (y == x) := by
  rw [Bool.eq_iff_iff, ← compare?_eq_some_eq_iff, ← compare?_eq_some_eq_iff, compare?_swap]
  cases compare? y x with
  | none => rfl
  | some o => rw [Option.map_some, Option.some_inj, Option.some_inj, Ordering.swap_eq_eq]

/-- Equality of floats is transitive. -/
theorem beq_trans {x y z : Float} (hxy : (x == y) = true) (hyz : (y == z) = true) :
    (x == z) = true := by
  rw [← compare?_eq_some_eq_iff, compare?_eq] at *
  rw [← compare_congr_unpacked hxy]
  exact hyz

end Formula.Number
