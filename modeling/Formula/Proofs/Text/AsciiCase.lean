import Formula.Culture
import Formula.NameMap

/-!
# The case of ASCII letters

Names that are equal up to the case of their ASCII letters have the same lower-case form.  Lowering
a single character need not ask for its context, except that a capital sigma does; and whether the
characters around it are cased does not depend on their case either.
-/

namespace Formula.Text

/-! ## Single characters -/

/-- A character in lower case is itself, unless it is an ASCII capital. -/
theorem toLower_cases (c : Char) : c.toLower = c ∨
    (65 ≤ c.toNat ∧ c.toNat ≤ 90) ∧ 97 ≤ c.toLower.toNat ∧ c.toLower.toNat ≤ 122 := by
  by_cases h : 65 ≤ c.toNat ∧ c.toNat ≤ 90
  · refine .inr ⟨h, ?_⟩
    have hlower : ∀ n : Fin 128, 65 ≤ n.val ∧ n.val ≤ 90 →
        97 ≤ (Char.ofNat n).toLower.toNat ∧ (Char.ofNat n).toLower.toNat ≤ 122 := by
      decide +kernel
    have hc := hlower ⟨c.toNat, by omega⟩ h
    rwa [Char.ofNat_toNat] at hc
  · left
    unfold Char.toLower
    exact dif_neg h

/-! ## Sets of characters -/

theorem CharSet.contains_of_mem {set : CharSet} {range : Nat × Nat} (h : range ∈ set) {c : Char}
    (hc : range.1 ≤ c.toNat ∧ c.toNat ≤ range.2) : set.contains c = true := by
  refine List.any_eq_true.mpr ⟨range, h, ?_⟩
  simpa using hc

/-- No character of a range is in a set whose ranges lie before it or behind it. -/
theorem CharSet.contains_eq_false {set : CharSet} {first last : Nat}
    (h : ∀ range ∈ set, range.2 < first ∨ last < range.1) {c : Char}
    (hc : first ≤ c.toNat ∧ c.toNat ≤ last) : set.contains c = false := by
  refine List.any_eq_false.mpr fun range hrange => ?_
  have hapart := h range hrange
  simp only [Bool.and_eq_true, decide_eq_true_eq]
  omega

/-- No ASCII letter is ignorable. -/
theorem contains_caseIgnorableRanges_toLower (c : Char) :
    caseIgnorableRanges.contains c.toLower = caseIgnorableRanges.contains c := by
  have hupper : ∀ range ∈ caseIgnorableRanges, range.2 < 65 ∨ 90 < range.1 := by decide +kernel
  have hlower : ∀ range ∈ caseIgnorableRanges, range.2 < 97 ∨ 122 < range.1 := by decide +kernel
  rcases toLower_cases c with h | ⟨hc, hc'⟩
  · rw [h]
  · rw [CharSet.contains_eq_false hupper hc, CharSet.contains_eq_false hlower hc']

/-- All ASCII letters are cased. -/
theorem contains_casedRanges_toLower (c : Char) :
    casedRanges.contains c.toLower = casedRanges.contains c := by
  have hupper : (65, 90) ∈ casedRanges := by decide +kernel
  have hlower : (97, 122) ∈ casedRanges := by decide +kernel
  rcases toLower_cases c with h | ⟨hc, hc'⟩
  · rw [h]
  · rw [CharSet.contains_of_mem hupper hc, CharSet.contains_of_mem hlower hc']

/-! ## Lower-case forms of characters -/

/-- What does not depend on the case of any ASCII character depends on that of no character. -/
theorem apply_toLower {β : Type} {f : Char → β}
    (hascii : ∀ n : Fin 128, f (Char.ofNat n).toLower = f (Char.ofNat n)) (c : Char) :
    f c.toLower = f c := by
  by_cases h : c.toNat < 128
  · have hc := hascii ⟨c.toNat, h⟩
    rwa [Char.ofNat_toNat] at hc
  · rcases toLower_cases c with hself | ⟨hupper, -⟩
    · rw [hself]
    · omega

theorem toLower_eq_capitalSigma_iff (c : Char) : c.toLower = capitalSigma ↔ c = capitalSigma := by
  rw [← decide_eq_decide]
  exact apply_toLower (f := fun c => decide (c = capitalSigma)) (by decide +kernel) c

theorem lowerOf_toLower (c : Char) : lowerOf c.toLower = lowerOf c :=
  apply_toLower (by decide +kernel) c

/-! ## Texts -/

/-- Whether a cased character comes next does not depend on the case of ASCII letters. -/
theorem startsCased_toLower (text : List Char) :
    startsCased (text.map Char.toLower) = startsCased text := by
  unfold startsCased
  induction text with
  | nil => rfl
  | cons c text ih =>
    rw [List.map_cons, List.dropWhile_cons, List.dropWhile_cons,
      contains_caseIgnorableRanges_toLower]
    cases caseIgnorableRanges.contains c with
    | true => exact ih
    | false => exact contains_casedRanges_toLower c

theorem lowerWithin_toLower (before : List Char) (c : Char) (after : List Char) :
    lowerWithin (before.map Char.toLower) c.toLower (after.map Char.toLower) =
      lowerWithin before c after := by
  unfold lowerWithin
  simp only [toLower_eq_capitalSigma_iff, startsCased_toLower, lowerOf_toLower]

/-- So writing a text in lower case does not either, whatever stands before it. -/
theorem lowerOnto_toLower (before done text : List Char) :
    lowerOnto (before.map Char.toLower) done (text.map Char.toLower) =
      lowerOnto before done text := by
  induction text generalizing before done with
  | nil => rfl
  | cons c text ih =>
    rw [List.map_cons, lowerOnto, lowerOnto, lowerWithin_toLower]
    exact ih (c :: before) _

/-- Lowering the ASCII letters of a text first makes no difference to its lower-case form. -/
theorem lower_toLower (text : List Char) : lower (text.map Char.toLower) = lower text :=
  lowerOnto_toLower [] [] text

/-! ## Names -/

theorem equalIgnoringAsciiCase_iff {a b : String} :
    equalIgnoringAsciiCase a b = true ↔ a.toList.map Char.toLower = b.toList.map Char.toLower :=
  decide_eq_true_iff

theorem equalIgnoringAsciiCase_refl (a : String) : equalIgnoringAsciiCase a a = true :=
  equalIgnoringAsciiCase_iff.mpr rfl

section
variable {a b : String} (h : equalIgnoringAsciiCase a b = true)
include h

theorem lowercase_congr : lowercase a = lowercase b := by
  rw [equalIgnoringAsciiCase_iff] at h
  rw [lowercase, lowercase, ← lower_toLower, h, lower_toLower]

theorem equalIgnoringAsciiCase_congr_left (c : String) :
    equalIgnoringAsciiCase a c = equalIgnoringAsciiCase b c := by
  rw [equalIgnoringAsciiCase_iff] at h
  rw [equalIgnoringAsciiCase, equalIgnoringAsciiCase, h]

theorem equalIgnoringAsciiCase_congr_right (c : String) :
    equalIgnoringAsciiCase c a = equalIgnoringAsciiCase c b := by
  rw [equalIgnoringAsciiCase_iff] at h
  rw [equalIgnoringAsciiCase, equalIgnoringAsciiCase, h]

end

end Formula.Text

namespace Formula

variable {a b : String} (h : Text.equalIgnoringAsciiCase a b = true)
include h

theorem NameMap.get?_congr {α : Type} (m : NameMap α) : m.get? a = m.get? b := by
  rw [get?, get?, Text.lowercase_congr h]

theorem Options.isSkipped_congr (o : Options) : o.isSkipped a = o.isSkipped b := by
  unfold isSkipped
  congr 1
  funext skipped
  exact Text.equalIgnoringAsciiCase_congr_right h skipped

end Formula
