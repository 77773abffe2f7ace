import Formula.Text.Occurrence
import Mathlib.Data.List.Infix
import Mathlib.Tactic.Ring

/-!
# Occurrences of one text in another

The leftmost position is the least one at which a test holds (`firstIndexWhere_eq_some`).

A text is split at the occurrences of another one that are found from left to right, each behind the
last (`Splits`).  There is one way to split it (`Splits.pieces_unique`), and the replacements join
the pieces again: with the new text everywhere (`Splits.replaceAll_eq`), or with the new text in one
place and the old one in the others (`Splits.replaceNth_eq`).
-/

namespace Formula.Text

/-! ## Leftmost positions -/

section
variable {test : List Char → Bool} {position : Nat} {text : List Char}

/-- If no index is found, the test fails on every rest of the text. -/
theorem firstIndexWhere_eq_none (h : firstIndexWhere test position text = none) (i : Nat) :
    test (text.drop i) = false := by
  induction text generalizing position i with
  | nil =>
    rw [firstIndexWhere] at h
    split at h
    · cases h
    · next hnot =>
      rw [List.drop_nil]
      exact Bool.eq_false_iff.mpr hnot
  | cons c text ih =>
    rw [firstIndexWhere] at h
    split at h
    · cases h
    · next hnot =>
      cases i with
      | zero => exact Bool.eq_false_iff.mpr hnot
      | succ i => exact ih h i

/-- What is found is the least index at which the test holds. -/
theorem firstIndexWhere_eq_some {found : Nat}
    (h : firstIndexWhere test position text = some found) :
    ∃ i, found = position + i ∧ test (text.drop i) = true ∧
      ∀ j < i, test (text.drop j) = false := by
  induction text generalizing position with
  | nil =>
    rw [firstIndexWhere] at h
    split at h
    · next hholds =>
      obtain rfl := Option.some.inj h
      exact ⟨0, rfl, hholds, nofun⟩
    · cases h
  | cons c text ih =>
    rw [firstIndexWhere] at h
    split at h
    · next hholds =>
      obtain rfl := Option.some.inj h
      exact ⟨0, rfl, hholds, nofun⟩
    · next hnot =>
      obtain ⟨i, rfl, hholds, hfirst⟩ := ih h
      refine ⟨i + 1, by omega, hholds, fun j hj => ?_⟩
      cases j with
      | zero => exact Bool.eq_false_iff.mpr hnot
      | succ j => exact hfirst j (Nat.lt_of_succ_lt_succ hj)

end

/-! ## Occurrences -/

section
variable (old : List Char) (position : Nat)

/-- The characters of an occurrence are passed before the next one is looked for. -/
theorem occurrencesFrom_skip (passed text : List Char) :
    occurrencesFrom old position passed.length (passed ++ text) =
      occurrencesFrom old (position + passed.length) 0 text := by
  induction passed generalizing position with
  | nil => rfl
  | cons c passed ih =>
    rw [List.length_cons, List.cons_append, occurrencesFrom, ih, Nat.add_assoc,
      Nat.add_comm passed.length]

/-- Where the text does not occur, it is not found. -/
theorem occurrencesFrom_missed {piece text : List Char}
    (h : ∀ i < piece.length, ¬old <+: (piece ++ text).drop i) :
    occurrencesFrom old position 0 (piece ++ text) =
      occurrencesFrom old (position + piece.length) 0 text := by
  induction piece generalizing position with
  | nil => rfl
  | cons c piece ih =>
    have hmissed : ¬old.isPrefixOf (c :: (piece ++ text)) = true := fun hprefix =>
      h 0 (Nat.succ_pos _) (List.isPrefixOf_iff_prefix.mp hprefix)
    have hrest : ∀ i < piece.length, ¬old <+: (piece ++ text).drop i := fun i hi =>
      h (i + 1) (Nat.succ_lt_succ hi)
    rw [List.cons_append, occurrencesFrom, if_neg hmissed, ih _ hrest, List.length_cons,
      Nat.add_assoc, Nat.add_comm piece.length]

/-- An occurrence is found, and what is behind it is searched. -/
theorem occurrencesFrom_found {old : List Char} (hold : old ≠ []) (rest : List Char) :
    occurrencesFrom old position 0 (old ++ rest) =
      position :: occurrencesFrom old (position + old.length) 0 rest := by
  obtain ⟨c, old, rfl⟩ := List.exists_cons_of_ne_nil hold
  have hprefix : (c :: old).isPrefixOf (c :: (old ++ rest)) = true :=
    List.isPrefixOf_iff_prefix.mpr (List.prefix_append (c :: old) rest)
  have hrest := occurrencesFrom_skip (c :: old) (position + 1) old rest
  rw [List.cons_append, occurrencesFrom, if_pos hprefix, List.length_cons, Nat.add_sub_cancel,
    hrest, Nat.add_assoc, Nat.add_comm 1]

/-- Positions are later by as much as the one they are counted from. -/
theorem occurrencesFrom_add (later skip : Nat) (text : List Char) :
    occurrencesFrom old (position + later) skip text =
      (occurrencesFrom old position skip text).map (· + later) := by
  induction text generalizing position skip with
  | nil => rfl
  | cons c text ih =>
    cases skip with
    | succ more => rw [occurrencesFrom, occurrencesFrom, Nat.add_right_comm, ih]
    | zero =>
      rw [occurrencesFrom, occurrencesFrom, Nat.add_right_comm, ih, ih, apply_ite (List.map _)]
      rfl

end

/-! ## Splitting -/

/-- Whether some pieces are those of a text between the occurrences of another one that are found
from left to right, each behind the last. -/
inductive Splits (old : List Char) : List Char → List (List Char) → Prop
  | last {piece : List Char} (h : ¬old <:+: piece) : Splits old piece [piece]
  | next {piece rest : List Char} {pieces : List (List Char)}
    (hfirst : ∀ i < piece.length, ¬old <+: (piece ++ old ++ rest).drop i)
    (hrest : Splits old rest pieces) : Splits old (piece ++ old ++ rest) (piece :: pieces)

/-- Where a text occurs it occurs a first time. -/
theorem exists_first {old text : List Char} (h : old <:+: text) : ∃ piece rest,
    text = piece ++ old ++ rest ∧ ∀ i < piece.length, ¬old <+: text.drop i := by
  induction text with
  | nil =>
    obtain rfl := List.eq_nil_of_infix_nil h
    exact ⟨[], [], rfl, nofun⟩
  | cons c text ih =>
    by_cases hprefix : old <+: c :: text
    · obtain ⟨rest, hrest⟩ := hprefix
      exact ⟨[], rest, hrest.symm, nofun⟩
    · obtain ⟨piece, rest, rfl, hfirst⟩ := ih ((List.infix_cons_iff.mp h).resolve_left hprefix)
      refine ⟨c :: piece, rest, rfl, fun i hi => ?_⟩
      cases i with
      | zero => exact hprefix
      | succ i => exact hfirst i (Nat.lt_of_succ_lt_succ hi)

namespace Splits

variable {old text : List Char} {pieces : List (List Char)}

/-- Every text splits at the occurrences that are found from the left, by induction on its
length. -/
theorem exists_pieces (hold : old ≠ []) (text : List Char) : ∃ pieces, Splits old text pieces := by
  induction hlength : text.length using Nat.strong_induction_on generalizing text with
  | _ n ih =>
    by_cases hinfix : old <:+: text
    · obtain ⟨piece, rest, rfl, hfirst⟩ := exists_first hinfix
      have hshorter : rest.length < n := by
        have hpos := List.length_pos_of_ne_nil hold
        rw [List.length_append, List.length_append] at hlength
        omega
      obtain ⟨pieces, hpieces⟩ := ih rest.length hshorter rest rfl
      exact ⟨piece :: pieces, .next hfirst hpieces⟩
    · exact ⟨[text], .last hinfix⟩

theorem ne_nil (h : Splits old text pieces) : pieces ≠ [] := by
  cases h <;> exact List.cons_ne_nil _ _

/-- The pieces joined with the text between them make up the text. -/
theorem intercalate_eq (h : Splits old text pieces) : old.intercalate pieces = text := by
  induction h with
  | last => exact List.intercalate_singleton
  | next _ hrest ih => rw [List.intercalate_cons_of_ne_nil hrest.ne_nil, ih]

/-- There is no more than one way to split a text: two that differ would differ in where the text
occurs first. -/
theorem pieces_unique (h : Splits old text pieces) {pieces' : List (List Char)}
    (h' : Splits old text pieces') : pieces' = pieces := by
  have hoccurs (piece rest : List Char) : old <+: (piece ++ old ++ rest).drop piece.length := by
    rw [List.append_assoc, List.drop_left]
    exact List.prefix_append old rest
  induction h generalizing pieces' with
  | last hnone =>
    cases h' with
    | last => rfl
    | next => exact absurd (List.infix_append _ _ _) hnone
  | @next piece rest pieces hfirst hrest ih =>
    generalize htext : piece ++ old ++ rest = text at h' hfirst
    cases h' with
    | last hnone => exact absurd (htext ▸ List.infix_append _ _ _) hnone
    | @next piece' rest' pieces' hfirst' hrest' =>
      have hlength : piece.length = piece'.length := by
        rcases Nat.lt_trichotomy piece.length piece'.length with hlt | heq | hlt
        · exact absurd (htext ▸ hoccurs piece rest) (hfirst' _ hlt)
        · exact heq
        · exact absurd (hoccurs piece' rest') (hfirst _ hlt)
      rw [List.append_assoc, List.append_assoc] at htext
      obtain ⟨rfl, hbehind⟩ := List.append_inj htext hlength
      obtain rfl := List.append_cancel_left hbehind
      rw [ih hrest']

end Splits

/-! ## Occurrences and pieces -/

theorem occurrences_last {old piece : List Char} (h : ¬old <:+: piece) :
    occurrences old piece = [] := by
  have hmissed : ∀ i < piece.length, ¬old <+: (piece ++ []).drop i := by
    intro i _ hprefix
    rw [List.append_nil] at hprefix
    exact h <| hprefix.isInfix.trans (List.drop_suffix i piece).isInfix
  have hfound := occurrencesFrom_missed old 0 hmissed
  rw [List.append_nil] at hfound
  exact hfound

section
variable {old : List Char} (hold : old ≠ []) {piece rest : List Char}
  (hfirst : ∀ i < piece.length, ¬old <+: (piece ++ old ++ rest).drop i)
include hold hfirst

/-- Behind the first piece the occurrences are those in the rest. -/
theorem occurrences_next : occurrences old (piece ++ old ++ rest) =
    piece.length :: (occurrences old rest).map (· + (piece.length + old.length)) := by
  rw [List.append_assoc] at hfirst ⊢
  rw [occurrences, occurrencesFrom_missed old 0 hfirst, occurrencesFrom_found _ hold, Nat.add_assoc,
    occurrencesFrom_add, Nat.zero_add]
  rfl

end

/-! ## Replacements -/

theorem spliceAt_add (size : Nat) (new : List Char) (passed later : Nat) (text : List Char)
    (positions : List Nat) :
    spliceAt size new (passed + later) text (positions.map (· + later)) =
      spliceAt size new passed text positions := by
  induction positions generalizing passed text with
  | nil => rfl
  | cons position positions ih =>
    rw [List.map_cons, spliceAt, spliceAt, Nat.add_sub_add_right, Nat.add_right_comm, ih]

section
variable {old : List Char} (hold : old ≠ []) {piece rest : List Char}
  (hfirst : ∀ i < piece.length, ¬old <+: (piece ++ old ++ rest).drop i) (new : List Char)
include hold hfirst

/-- Replacing goes on behind the first occurrence. -/
theorem replaceAll_next : replaceAll old new (piece ++ old ++ rest) =
    piece ++ new ++ replaceAll old new rest := by
  have hbehind : (piece ++ old ++ rest).drop (piece.length + old.length) = rest := by
    rw [← List.length_append, List.drop_left]
  have hrest := spliceAt_add old.length new 0 (piece.length + old.length) rest
    (occurrences old rest)
  rw [Nat.zero_add] at hrest
  rw [replaceAll, occurrences_next hold hfirst, spliceAt, Nat.sub_zero, hbehind, hrest,
    List.append_assoc piece, List.take_left, replaceAll]

theorem replaceNth_first : replaceNth old new 0 (piece ++ old ++ rest) = piece ++ new ++ rest := by
  rw [replaceNth, occurrences_next hold hfirst, List.getElem?_cons_zero]
  dsimp only
  rw [← List.length_append, List.drop_left, List.append_assoc piece old, List.take_left]

/-- Behind the first occurrence, the next one is one sooner. -/
theorem replaceNth_next (n : Nat) : replaceNth old new (n + 1) (piece ++ old ++ rest) =
    piece ++ old ++ replaceNth old new n rest := by
  rw [replaceNth, occurrences_next hold hfirst, List.getElem?_cons_succ, List.getElem?_map,
    replaceNth]
  cases (occurrences old rest)[n]? with
  | none => rfl
  | some position =>
    rw [Option.map_some, ← List.length_append, Nat.add_comm position]
    dsimp only
    rw [Nat.add_assoc, List.take_length_add_append, List.drop_length_add_append]
    simp only [List.append_assoc]

end

theorem spliceAt_cons (size : Nat) (new : List Char) (c : Char) (text : List Char)
    (positions : List Nat) :
    spliceAt size new 0 (c :: text) (positions.map (· + 1)) =
      c :: spliceAt size new 0 text positions := by
  cases positions with
  | nil => rfl
  | cons position positions =>
    rw [List.map_cons, spliceAt, spliceAt, Nat.sub_zero, Nat.sub_zero, List.take_succ_cons,
      Nat.add_right_comm, List.drop_succ_cons, spliceAt_add]
    rfl

/-- A character stays at which the text does not occur. -/
theorem replaceAll_cons {old : List Char} (new : List Char) {c : Char} {text : List Char}
    (h : ¬old <+: c :: text) : replaceAll old new (c :: text) = c :: replaceAll old new text := by
  have hmissed : ∀ i < [c].length, ¬old <+: ([c] ++ text).drop i := by
    intro i hi
    obtain rfl : i = 0 := Nat.lt_one_iff.mp hi
    exact h
  have hfound : occurrences old (c :: text) = (occurrences old text).map (· + 1) :=
    (occurrencesFrom_missed old 0 hmissed).trans (occurrencesFrom_add old 0 1 0 text)
  rw [replaceAll, hfound, spliceAt_cons, replaceAll]

theorem replaceAll_append {old : List Char} (hold : old ≠ []) (new text : List Char) :
    replaceAll old new (old ++ text) = new ++ replaceAll old new text :=
  @replaceAll_next old hold [] text nofun new

namespace Splits

variable {old text : List Char} {pieces : List (List Char)} (h : Splits old text pieces)
  (hold : old ≠ []) (new : List Char)
include h hold

/-- Where all occurrences are replaced the pieces are joined with the new text. -/
theorem replaceAll_eq : replaceAll old new text = new.intercalate pieces := by
  induction h with
  | last hnone => rw [replaceAll, occurrences_last hnone, spliceAt, List.intercalate_singleton]
  | next hfirst hrest ih =>
    rw [replaceAll_next hold hfirst, ih, List.intercalate_cons_of_ne_nil hrest.ne_nil]

/-- Where one occurrence is replaced the new text stands between the pieces there, and the old one
between the others. -/
theorem replaceNth_eq {n : Nat} (hn : n + 1 < pieces.length) : replaceNth old new n text =
    old.intercalate (pieces.take (n + 1)) ++ new ++ old.intercalate (pieces.drop (n + 1)) := by
  induction h generalizing n with
  | last => exact absurd hn (by simp)
  | @next piece rest pieces hfirst hrest ih =>
    cases n with
    | zero =>
      rw [replaceNth_first hold hfirst, List.take_succ_cons, List.take_zero,
        List.intercalate_singleton, List.drop_succ_cons, List.drop_zero, hrest.intercalate_eq]
    | succ n =>
      have hn : n + 1 < pieces.length := Nat.lt_of_succ_lt_succ hn
      have htake : pieces.take (n + 1) ≠ [] := by
        rw [Ne, List.take_eq_nil_iff, not_or]
        exact ⟨Nat.succ_ne_zero n, hrest.ne_nil⟩
      rw [replaceNth_next hold hfirst, ih hn, List.take_succ_cons, List.drop_succ_cons,
        List.intercalate_cons_of_ne_nil htake]
      simp only [List.append_assoc]

/-- A text that has fewer occurrences stays. -/
theorem replaceNth_eq_self {n : Nat} (hn : pieces.length ≤ n + 1) :
    replaceNth old new n text = text := by
  induction h generalizing n with
  | last hnone => rw [replaceNth, occurrences_last hnone]; rfl
  | @next piece rest pieces hfirst hrest ih =>
    have hpos := List.length_pos_of_ne_nil hrest.ne_nil
    rw [List.length_cons] at hn
    cases n with
    | zero => omega
    | succ n => rw [replaceNth_next hold hfirst, ih (by omega)]

/-- With each occurrence that is replaced a text grows by what the new text is longer. -/
theorem length_replaceAll : ((replaceAll old new text).length : Int) =
    text.length + (pieces.length - 1) * (new.length - old.length) := by
  induction h with
  | last hnone => simp [replaceAll, occurrences_last hnone, spliceAt]
  | next hfirst _ ih =>
    rw [replaceAll_next hold hfirst]
    simp only [List.length_append, List.length_cons]
    push_cast
    rw [ih]
    ring

/-- No text has more pieces than characters and one more. -/
theorem length_pieces_le : pieces.length ≤ text.length + 1 := by
  induction h with
  | last => simp
  | next _ _ ih =>
    have hpos := List.length_pos_of_ne_nil hold
    simp only [List.length_append, List.length_cons]
    omega

end Splits

end Formula.Text
