import Formula.Proofs.Evaluation.Answers
import Formula.Proofs.Number.Naturals

/-!
# Functions of texts

What the functions that cut, fill and repeat texts come to, by the texts and numbers that their
arguments stand for.  The parts that are cut off make up the text, what is filled has the wanted
width, and only what is too long is refused (`parts_fillings_repetition`).
-/

namespace Formula

/-! ## Counts -/

namespace Value

/-- Whether a value reads as a number that is exactly some rational number. -/
def ReadsAs (v : Value) (q : ℚ) : Prop := ∃ x, v.asNumber = .ok x ∧ Number.Denotes x q

theorem readsAs_ofNat {n : Nat} (h : n ≤ 2 ^ 53) : (ofNat n).ReadsAs n :=
  ⟨_, rfl, (Number.FitsFloat.of_le h).denotes⟩

end Value

namespace Plan

/-- A count, or the greatest one of 64 bits if it is greater. -/
def clipped (n : Nat) : Nat := min (2 ^ 64 - 1) n

section
variable {n : Nat}

theorem clipped_of_lt (h : n < 2 ^ 64) : clipped n = n := by
  rw [clipped]
  omega

theorem lt_clipped_iff {bound : Nat} (h : bound < 2 ^ 64 - 1) : bound < clipped n ↔ bound < n := by
  rw [clipped]
  omega

section
variable {text : List Char} (h : text.length < 2 ^ 63)
include h

theorem take_clipped : text.take (clipped n) = text.take n := by
  rw [List.take_eq_take_iff, clipped]
  omega

theorem length_sub_clipped : text.length - clipped n = text.length - n := by
  rw [clipped]
  omega

/-- Nothing of a text in memory is left behind so many characters. -/
theorem drop_clipped : text.drop (clipped n - 1) = text.drop (n - 1) := by
  rcases Nat.lt_or_ge n (2 ^ 64) with hlt | hge
  · rw [clipped_of_lt hlt]
  · have hlarge : 2 ^ 63 < clipped n := (lt_clipped_iff (by decide)).mpr (by omega)
    rw [List.drop_of_length_le (by omega), List.drop_of_length_le (by omega)]

end

/-- Clipping a count does not change whether so many texts are too long, since a clipped count is
longer than any text may be. -/
theorem lt_mul_clipped_iff (length : Nat) :
    maxTextLength < length * clipped n ↔ maxTextLength < length * n := by
  rcases Nat.lt_or_ge n (2 ^ 64) with hlt | hge
  · rw [clipped_of_lt hlt]
  · rcases Nat.eq_zero_or_pos length with rfl | hpos
    · rw [Nat.zero_mul, Nat.zero_mul]
    · have hn : maxTextLength < n := Nat.lt_of_lt_of_le (by decide) hge
      have hclipped : maxTextLength < clipped n := (lt_clipped_iff (by decide)).mpr hn
      exact iff_of_true (hclipped.trans_le (Nat.le_mul_of_pos_left _ hpos))
        (hn.trans_le (Nat.le_mul_of_pos_left _ hpos))

/-- A text whose repetition is not too long is repeated as often as wanted. -/
theorem repeated_clipped {text : List Char} (h : text.length * n ≤ maxTextLength) :
    repeated (clipped n) text = (List.replicate n text).flatten := by
  rw [repeated]
  split
  · next hnil => rw [hnil, List.flatten_replicate_nil]
  · next hne =>
    have hn : n ≤ maxTextLength :=
      (Nat.le_mul_of_pos_left n (List.length_pos_of_ne_nil hne)).trans h
    rw [clipped_of_lt (hn.trans_lt (by decide))]

end

section
variable {α : Type} {v : Value} {n : Nat} (hv : v.ReadsAs n) {count i : Nat} (hi : i < count)
  (vs : List Value) (f : Nat → Plan α)
include hv hi

/-- A plan that asks for a count goes on with the clipped number that the next value reads as. -/
theorem onValues?_countOr (default : Float) (function : String) :
    (countOr count i default function >>= f).onValues? i (v :: vs) =
      (f (clipped n)).onValues? (i + 1) vs := by
  obtain ⟨x, hx, hn⟩ := hv
  have hnonneg : ¬x < 0 := by
    have hzero : Number.Denotes 0 (0 : Nat) := (Number.FitsFloat.of_le (Nat.zero_le _)).denotes
    exact fun hneg => (hn.lt hzero hneg).not_ge (by exact_mod_cast Nat.zero_le n)
  rw [countOr, bind_assoc, onValues?_numberOr _ _ _ hx hi, if_neg hnonneg, hn.toCount_eq]
  rfl

/-- A plan that asks for a start position goes on with the number of characters before it. -/
theorem onValues?_startOr (hpos : 1 ≤ n) :
    (startOr count i >>= f).onValues? i (v :: vs) =
      (f (clipped n - 1)).onValues? (i + 1) vs := by
  obtain ⟨x, hx, hn⟩ := hv
  rw [startOr, bind_assoc, onValues?_numberOr _ _ _ hx hi, if_neg (hn.not_lt_one hpos),
    hn.toCount_eq]
  rfl

end

end Plan

/-! ## Functions -/

namespace Builtin

section
variable (t : Value)

theorem computes_length : length.definition.Computes [t] (.ok (.ofNat t.toText.toList.length)) :=
  FunctionDef.computes_of_onValues? (Plan.onValues?_text _ 0 t [])

variable {t} {m : Value} {n : Nat} (hn : m.ReadsAs n)
include hn

section
variable (hlength : t.toText.toList.length < 2 ^ 63)
include hlength

/-- `LEFT` gives the first characters. -/
theorem computes_left : left.definition.Computes [t, m]
    (.ok (.text (String.ofList (t.toText.toList.take n)))) := by
  refine FunctionDef.computes_of_onValues? ?_
  show (Plan.left 2).onValues? 0 [t, m] = _
  rw [Plan.left, Plan.onValues?_text, Plan.onValues?_countOr hn (by decide),
    Plan.take_clipped hlength]
  rfl

/-- `RIGHT` gives the last characters. -/
theorem computes_right : right.definition.Computes [t, m]
    (.ok (.text (String.ofList (t.toText.toList.drop (t.toText.toList.length - n))))) := by
  refine FunctionDef.computes_of_onValues? ?_
  show (Plan.right 2).onValues? 0 [t, m] = _
  rw [Plan.right, Plan.onValues?_text, Plan.onValues?_countOr hn (by decide),
    Plan.length_sub_clipped hlength]
  rfl

/-- `MID` gives characters from a position on. -/
theorem computes_middle {p : Value} {start : Nat} (hp : p.ReadsAs start) (hpos : 1 ≤ start) :
    middle.definition.Computes [t, p, m]
      (.ok (.text (String.ofList ((t.toText.toList.drop (start - 1)).take n)))) := by
  obtain ⟨x, hx, hstart⟩ := hp
  have hcount : Number.toCount x = Plan.clipped start := hstart.toCount_eq
  have hrest : (t.toText.toList.drop (start - 1)).length < 2 ^ 63 :=
    (List.drop_sublist _ _).length_le.trans_lt hlength
  refine FunctionDef.computes_of_onValues? ?_
  show (Plan.middle 3).onValues? 0 [t, p, m] = _
  rw [Plan.middle, Plan.onValues?_text, Plan.onValues?_number _ _ _ hx,
    if_neg (hstart.not_lt_one hpos), Plan.onValues?_countOr hn (by decide), hcount,
    Plan.drop_clipped hlength, Plan.take_clipped hrest]
  rfl

end

/-- The character that a text is filled with: the first one of another text, if there is any. -/
def fillOf (filler : Option Value) : Char :=
  (filler.bind fun v => v.toText.toList.head?).getD ' '

/-- `PadLeft` and `PadRight` fill a text up to a width, if that is not too large. -/
theorem computes_pad {b : Builtin} {function : String} {join : List Char → List Char → List Char}
    (hplan : ∀ count, b.plan count = .pad count function join) (filler : Option Value) :
    b.definition.Computes (t :: m :: filler.toList)
      (if maxTextLength < n then .error (.argument (.tooLong function))
        else .ok (.text (String.ofList (join
          (List.replicate (n - t.toText.toList.length) (fillOf filler)) t.toText.toList)))) := by
  have hbound : maxTextLength < Plan.clipped n ↔ maxTextLength < n :=
    Plan.lt_clipped_iff (by decide)
  refine FunctionDef.computes_of_onValues? ?_
  show (b.plan (filler.toList.length + 2)).onValues? 0 _ = _
  rw [hplan, Plan.pad, Plan.onValues?_text, Plan.onValues?_countOr hn (by omega)]
  split
  · next hlarge =>
    rw [if_pos (hbound.mp hlarge)]
    rfl
  · next hfits =>
    rw [hbound] at hfits
    have hclipped : Plan.clipped n = n :=
      Plan.clipped_of_lt ((Nat.not_lt.mp hfits).trans_lt (by decide))
    rw [if_neg hfits, hclipped]
    cases filler with
    | none => exact Plan.onValues?_value?_none _ _ _ (by decide)
    | some v => exact Plan.onValues?_value? _ _ _ _ (Nat.lt_succ_self 2)

/-- `REPT` repeats a text, if the result is not too long. -/
theorem computes_repetition : repetition.definition.Computes [t, m]
    (if maxTextLength < t.toText.toList.length * n then .error (.argument (.tooLong "REPT"))
      else .ok (.text (String.ofList (List.replicate n t.toText.toList).flatten))) := by
  refine FunctionDef.computes_of_onValues? ?_
  show (Plan.repetition 2).onValues? 0 [t, m] = _
  rw [Plan.repetition, Plan.onValues?_text, Plan.onValues?_countOr hn (by decide)]
  split
  · next hlarge =>
    rw [if_pos ((Plan.lt_mul_clipped_iff _).mp hlarge)]
    rfl
  · next hfits =>
    rw [Plan.lt_mul_clipped_iff] at hfits
    rw [if_neg hfits, Plan.repeated_clipped (Nat.not_lt.mp hfits)]
    rfl

end

end Builtin

/-! ## Parts that make up a text -/

open Builtin (fillOf left middle padLeft padRight repetition right)

section
variable {t m : Value} {n : Nat} (hn : m.ReadsAs n)
include hn

/-- What is one more than a natural number may be rounded, but not down to a smaller one. -/
theorem Value.ReadsAs.exists_add_one {next : Value}
    (hnext : m.applyBinary (.arithmetic .add) (.number 1) = .ok next) : ∃ k : Nat,
      next.ReadsAs k ∧ (k = n + 1 ∨ 2 ^ 53 ≤ n ∧ 2 ^ 53 ≤ k) := by
  obtain ⟨x, hx, hdenotes⟩ := hn
  have hnumbers : Value.arithmeticAsNumbers .add m (.number 1) = .ok (.number (x + 1)) := by
    rw [Value.arithmeticAsNumbers, hx]
    rfl
  have hsum : m.applyBinary (.arithmetic .add) (.number 1) =
      Value.arithmeticAsNumbers .add m (.number 1) := by
    cases m with
    | text s =>
      -- A text that reads as a number is not joined to one.
      have hjoins : (Value.text s).joins (.number 1) = false := by
        rw [Value.asNumber] at hx
        cases hread : (Value.text s).toNumber? with
        | none => rw [hread] at hx; cases hx
        | some y =>
          show ((Value.text s).toNumber?.isNone || false) = false
          rw [hread]
          rfl
      exact if_neg fun h => Bool.false_ne_true (hjoins.symm.trans h.2)
    | dateTime | array | object => cases hx
    | _ => rfl
  obtain rfl := Except.ok.inj (hnumbers.symm.trans (hsum.symm.trans hnext))
  rcases Nat.lt_or_ge n (2 ^ 53) with hlt | hge
  · exact ⟨n + 1, ⟨_, rfl, hdenotes.add_one hlt⟩, .inl rfl⟩
  · obtain ⟨k, hk, hsum⟩ := hdenotes.add_one_large hge
    exact ⟨k, ⟨_, rfl, hsum⟩, .inr ⟨hge, hk⟩⟩

/-- `MID` gives the characters behind the first `n`, if it is to give as many as there are. -/
theorem Builtin.computes_rest {next all : Value}
    (hnext : next.ReadsAs (n + 1 : Nat) ∨
      m.applyBinary (.arithmetic .add) (.number 1) = .ok next ∧
        (n < 2 ^ 53 ∨ t.toText.toList.length < 2 ^ 53))
    (hall : all.ReadsAs t.toText.toList.length) (hlength : t.toText.toList.length < 2 ^ 63) :
    middle.definition.Computes [t, next, all]
      (.ok (.text (String.ofList (t.toText.toList.drop n)))) := by
  obtain ⟨k, hk, hpos, hdrop⟩ : ∃ k : Nat, next.ReadsAs k ∧ 1 ≤ k ∧
      t.toText.toList.drop (k - 1) = t.toText.toList.drop n := by
    rcases hnext with hnext | ⟨hsum, hsmall⟩
    · exact ⟨n + 1, hnext, Nat.succ_pos n, rfl⟩
    · obtain ⟨k, hk, rfl | ⟨hlarge, hk'⟩⟩ := hn.exists_add_one hsum
      · exact ⟨n + 1, hk, Nat.succ_pos n, rfl⟩
      · -- Where the sum was rounded there are no characters left.
        refine ⟨k, hk, by omega, ?_⟩
        rw [List.drop_of_length_le (by omega), List.drop_of_length_le (by omega)]
  have hmiddle := computes_middle hall hlength hk hpos
  have hwhole : (t.toText.toList.drop n).take t.toText.toList.length = t.toText.toList.drop n :=
    List.take_of_length_le (List.drop_sublist _ _).length_le
  rwa [hdrop, hwhole] at hmiddle

/-- Let a value read as a natural number `n`.  `LEFT` gives the first `n` characters of a text, and
`MID` the rest, from position `n + 1` on, which may be computed by `+`; the two make up the text.
`RIGHT` gives the rest too, by its length, and else the last `n` characters.  `PadLeft` and
`PadRight` fill the text up to `n` characters before or behind it, and `REPT` repeats it `n` times,
unless there would be more than a million.  Texts in memory are shorter than `2 ^ 63`. -/
theorem parts_fillings_repetition :
    let text := t.toText.toList
    (text.length < 2 ^ 63 →
      (∀ next all : Value,
        (next.ReadsAs (n + 1 : Nat) ∨ m.applyBinary (.arithmetic .add) (.number 1) = .ok next ∧
          (n < 2 ^ 53 ∨ text.length < 2 ^ 53)) →
        all.ReadsAs text.length → ∃ before after,
          before.toList = text.take n ∧ left.definition.Computes [t, m] (.ok (.text before)) ∧
          middle.definition.Computes [t, next, all] (.ok (.text after)) ∧
          Value.applyBinary (.arithmetic .add) (.text before) (.text after) =
            .ok (.text t.toText) ∧
          (n ≤ text.length → ∀ rest : Value, rest.ReadsAs (text.length - n : Nat) →
            right.definition.Computes [t, rest] (.ok (.text after)))) ∧
      ∃ last, right.definition.Computes [t, m] (.ok (.text last)) ∧
        last.toList <:+ text ∧ last.toList.length = min n text.length) ∧
    (∀ filler : Option Value,
      let filling := List.replicate (n - text.length) (fillOf filler)
      (filling ++ text).length = max text.length n ∧
      padLeft.definition.Computes (t :: m :: filler.toList)
        (if 1000000 < n then .error (.argument (.tooLong "PadLeft"))
          else .ok (.text (String.ofList (filling ++ text)))) ∧
      padRight.definition.Computes (t :: m :: filler.toList)
        (if 1000000 < n then .error (.argument (.tooLong "PadRight"))
          else .ok (.text (String.ofList (text ++ filling))))) ∧
    repetition.definition.Computes [t, m]
      (if 1000000 < text.length * n then .error (.argument (.tooLong "REPT"))
        else .ok (.text (String.ofList (List.replicate n text).flatten))) := by
  intro text
  have hbound : maxTextLength = 1000000 := rfl
  refine ⟨fun hlength => ⟨fun next all hnext hall => ?_, ?_⟩, fun filler => ⟨?_, ?_, ?_⟩, ?_⟩
  · refine ⟨_, _, String.toList_ofList, Builtin.computes_left hn hlength,
      Builtin.computes_rest hn hnext hall hlength, ?_, ?_⟩
    · have hjoin : String.ofList (text.take n) ++ String.ofList (text.drop n) = t.toText := by
        rw [← String.ofList_append, List.take_append_drop, String.ofList_toList]
      exact congrArg (fun joined => Except.ok (Value.text joined)) hjoin
    · intro hle rest hrest
      have hright := Builtin.computes_right hrest hlength
      rwa [Nat.sub_sub_self hle] at hright
  · refine ⟨_, Builtin.computes_right hn hlength, ?_, ?_⟩ <;> rw [String.toList_ofList]
    · exact List.drop_suffix _ _
    · show (text.drop (text.length - n)).length = min n text.length
      rw [List.length_drop]
      omega
  · rw [List.length_append, List.length_replicate]
    omega
  · have hplan (count : Nat) : Builtin.plan .padLeft count =
        .pad count "PadLeft" fun filling s => filling ++ s := rfl
    rw [← hbound]
    exact Builtin.computes_pad hn hplan filler
  · have hplan (count : Nat) : Builtin.plan .padRight count =
        .pad count "PadRight" fun filling s => s ++ filling := rfl
    rw [← hbound]
    exact Builtin.computes_pad hn hplan filler
  · rw [← hbound]
    exact Builtin.computes_repetition hn

end

/-- The characters of a text are counted, and not its bytes. -/
theorem parts_fillings_repetition_umlaut :
    let t : Value := .text "grün"
    (Value.ofNat 2).ReadsAs (2 : Nat) ∧ (Value.ofNat 3).ReadsAs (2 + 1 : Nat) ∧
      (Value.ofNat 4).ReadsAs (4 : Nat) ∧ t.toText.toList.length = 4 ∧
      (∃ before after, before.toList = ['g', 'r'] ∧
        left.definition.Computes [t, .ofNat 2] (.ok (.text before)) ∧
        middle.definition.Computes [t, .ofNat 3, .ofNat 4] (.ok (.text after)) ∧
        Value.applyBinary (.arithmetic .add) (.text before) (.text after) = .ok t) ∧
      padLeft.definition.Computes [t, .ofNat 2] (.ok t) ∧
      repetition.definition.Computes [t, .ofNat 2] (.ok (.text "grüngrün")) := by
  intro t
  have htwo : (Value.ofNat 2).ReadsAs (2 : Nat) := Value.readsAs_ofNat (by decide)
  have hthree : (Value.ofNat 3).ReadsAs (2 + 1 : Nat) := Value.readsAs_ofNat (n := 3) (by decide)
  have hfour : (Value.ofNat 4).ReadsAs (4 : Nat) := Value.readsAs_ofNat (by decide)
  have htext : t.toText.toList = ['g', 'r', 'ü', 'n'] := by decide
  have hlength : t.toText.toList.length = 4 := congrArg List.length htext
  obtain ⟨hparts, hfillings, hrepetition⟩ := parts_fillings_repetition (t := t) htwo
  obtain ⟨before, after, hbefore, hleft, hmiddle, hjoin, -⟩ :=
    (hparts (by rw [hlength]; decide)).1 _ _ (.inl hthree) (by rw [hlength]; exact hfour)
  have hfilled := (hfillings none).2.1
  rw [if_neg (by decide), htext] at hfilled
  rw [hlength, if_neg (by decide), htext] at hrepetition
  rw [htext] at hbefore
  exact ⟨htwo, hthree, hfour, hlength, ⟨before, after, hbefore, hleft, hmiddle, hjoin⟩, hfilled,
    hrepetition⟩

end Formula
