import Formula.Proofs.Evaluation.Search
import Formula.Proofs.Evaluation.Texts
import Formula.Proofs.Text.Bytes

/-!
# Find

`FIND` gives the least position, from a start position on, at which a text occurs in another
(`find_least`).  Positions count characters; where the bytes of the texts are searched, they occur
first at the first byte of the character at that position.
-/

namespace Formula

namespace Text

section
variable {sought chars : List Char} {s q : Nat}
  (h : IsLeast {q | s ≤ q ∧ sought <+: chars.drop (q - 1)} q)
include h

/-- Positions are one more than the numbers of characters before them. -/
theorem isLeast_index : IsLeast {i | s - 1 ≤ i ∧ sought <+: chars.drop i} (q - 1) := by
  obtain ⟨⟨hle, hq⟩, hleast⟩ := h
  refine ⟨⟨Nat.sub_le_sub_right hle 1, hq⟩, fun i ⟨hi, hfound⟩ => ?_⟩
  exact Nat.sub_le_of_le_add (hleast ⟨Nat.le_add_of_sub_le hi, hfound⟩)

/-- The least position lies within the text, or it is the start position. -/
theorem le_of_isLeast : q ≤ max s chars.length := by
  obtain ⟨⟨hle, hq⟩, hleast⟩ := h
  by_cases hsought : sought = []
  · have hq : q ≤ s := hleast ⟨Nat.le_refl s, hsought ▸ List.nil_prefix⟩
    omega
  · have hlength := List.length_pos_of_ne_nil hsought
    have hfits := hq.length_le
    rw [List.length_drop] at hfits
    omega

end

end Text

/-- What `FIND` comes to, by the search of the characters from the start position on. -/
theorem Builtin.computes_find {needle text start : Value} {s : Nat} (hstart : start.ReadsAs s)
    (hpos : 1 ≤ s) (hlt : s < 2 ^ 64) : find.definition.Computes [needle, text, start]
      (.ok (Plan.position (s - 1) (Text.firstIndexWhere needle.toText.toList.isPrefixOf 0
        (text.toText.toList.drop (s - 1))))) := by
  refine FunctionDef.computes_of_onValues? ?_
  show (Plan.find 3).onValues? 0 [needle, text, start] = _
  rw [Plan.find, Plan.onValues?_text, Plan.onValues?_text,
    Plan.onValues?_startOr hstart (by decide) _ _ hpos, Plan.clipped_of_lt hlt]
  rfl

open Text (bytes)

/-- `FIND` gives the least position, from the start position on, at which the characters of a text
occur in another one, or −1 if there is none; a search of the bytes finds the same.  `MID` gives the
text again, from that position and by its length, which are exactly what `FIND` and `LEN` give up
to `2 ^ 53`. -/
theorem find_least {needle text start : Value} {s : Nat} (hstart : start.ReadsAs s)
    (hpos : 1 ≤ s) (hlt : s < 2 ^ 53) :
    let sought := needle.toText.toList
    let chars := text.toText.toList
    let found (q : Nat) := s ≤ q ∧ sought <+: chars.drop (q - 1)
    let foundByte (b : Nat) := byteOffset chars (s - 1) ≤ b ∧ bytes sought <+: (bytes chars).drop b
    let computes := Builtin.find.definition.Computes [needle, text, start]
    (∃ q, IsLeast {q | found q} q ∧ IsLeast {b | foundByte b} (byteOffset chars (q - 1)) ∧
      computes (.ok (.ofNat q)) ∧
      (chars.length < 2 ^ 63 → ∀ position size : Value, position.ReadsAs q →
        size.ReadsAs sought.length →
        Builtin.middle.definition.Computes [text, position, size] (.ok (.text needle.toText))) ∧
      (chars.length ≤ 2 ^ 53 → (Value.ofNat q).ReadsAs q ∧
        ∃ size : Value, Builtin.length.definition.Computes [needle] (.ok size) ∧
          size.ReadsAs sought.length)) ∨
      (∀ q, ¬found q) ∧ (∀ b, ¬foundByte b) ∧ computes (.ok (.number (-1))) := by
  intro sought chars found foundByte computes
  have hcomputes : computes (.ok _) := Builtin.computes_find hstart hpos (hlt.trans (by decide))
  have hfirst := Plan.position_firstIndexWhere sought.isPrefixOf chars hpos
  simp only [List.isPrefixOf_iff_prefix] at hfirst
  rcases hfirst with ⟨q, hq, hposition⟩ | ⟨hnone, hposition⟩
  · left
    have hprefix : sought <+: chars.drop (q - 1) := hq.1.2
    have hfits : sought.length ≤ chars.length :=
      hprefix.length_le.trans (List.drop_sublist _ _).length_le
    refine ⟨q, hq, Text.isLeast_byte (Text.isLeast_index hq), ?_,
      fun hlength position size hat hsize => ?_, fun hlength => ⟨?_, ?_⟩⟩
    · rw [← hposition]
      exact hcomputes
    · have hmiddle := Builtin.computes_middle hsize hlength hat (hpos.trans hq.1.1)
      have htake : (chars.drop (q - 1)).take sought.length = sought :=
        (List.prefix_iff_eq_take.mp hprefix).symm
      rw [htake, String.ofList_toList] at hmiddle
      exact hmiddle
    · have hle := Text.le_of_isLeast hq
      exact Value.readsAs_ofNat (by omega)
    · exact ⟨_, Builtin.computes_length needle, Value.readsAs_ofNat (hfits.trans hlength)⟩
  · right
    have hindex (i : Nat) : ¬(s - 1 ≤ i ∧ sought <+: chars.drop i) := fun ⟨hi, hfound⟩ =>
      hnone (i + 1) ⟨Nat.le_add_of_sub_le hi, hfound⟩
    refine ⟨hnone, Text.not_occurs_byte hindex, ?_⟩
    rw [← hposition]
    exact hcomputes

/-- The second one is the fourth character, and it begins after five bytes. -/
theorem find_least_eszett :
    let needle : Value := .text "ß"
    let text : Value := .text "äßbß"
    (Value.ofNat 3).ReadsAs (3 : Nat) ∧
      Builtin.find.definition.Computes [needle, text, .ofNat 3] (.ok (.ofNat 4)) ∧
      IsLeast {b | byteOffset ['ä', 'ß', 'b', 'ß'] 2 ≤ b ∧
        bytes ['ß'] <+: (bytes ['ä', 'ß', 'b', 'ß']).drop b} 5 := by
  intro needle text
  have hthree : (Value.ofNat 3).ReadsAs (3 : Nat) := Value.readsAs_ofNat (by decide)
  have hneedle : needle.toText.toList = ['ß'] := by decide
  have htext : text.toText.toList = ['ä', 'ß', 'b', 'ß'] := by decide
  have hfound := @find_least needle text _ 3 hthree (by decide) (by decide)
  dsimp only at hfound
  rw [hneedle, htext] at hfound
  have hfourth : ['ß'] <+: ['ä', 'ß', 'b', 'ß'].drop (4 - 1) := List.prefix_refl _
  rcases hfound with ⟨q, ⟨⟨hle, hq⟩, hleast⟩, hbyte, hcomputes, -⟩ | ⟨hnone, -⟩
  · have hupper : q ≤ 4 := hleast ⟨by decide, hfourth⟩
    obtain rfl | rfl : q = 3 ∨ q = 4 := by omega
    · exact absurd hq (by decide)
    · exact ⟨hthree, hcomputes, hbyte⟩
  · exact absurd ⟨by decide, hfourth⟩ (hnone 4)

end Formula
