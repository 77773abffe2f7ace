import Formula.Proofs.Evaluation.Arguments
import Formula.Proofs.Number.Denoted
import Formula.Proofs.Text.Wildcard
import Mathlib.Order.Bounds.Basic

/-!
# Search

`SEARCH` gives the least position, from a start position on, at which a pattern matches
(`Expr.search_least`).
-/

namespace Formula

open Number (Denotes)
open Text.Wildcard (MatchesStart matchesStart matchesStart_iff matchesStart_letter_iff ofChar
  ofText_eq_map)

/-! ## Positions -/

/-- A start that converts to a number which denotes `start` leaves out the characters before it; it
is below `2 ^ 64`, so it is not clipped as a count. -/
theorem Expr.exec_startOr {es : List Expr} {i : Nat} {e : Expr} (he : es[i]? = some e) {run : Run}
    {s t : EvalState} {v : Value} (h : e.evaluate.exec run s = (.ok v, t)) {x : Float}
    (hx : v.asNumber = .ok x) {start : Nat} (hstart : Denotes x start) (hpos : 1 ≤ start)
    (hlt : start < 2 ^ 64) :
    ((Plan.startOr es.length i).run (arguments es)).exec run s = (.ok (start - 1), t) := by
  have hnumber : ((Plan.numberOr es.length i 1).run (arguments es)).exec run s = (.ok x, t) :=
    (exec_numberOr he h 1).trans (by rw [hx])
  have hcount : Number.toCount x = start := hstart.toCount_eq.trans (by omega)
  rw [Plan.startOr, Plan.exec_run_bind _ hnumber, if_neg (hstart.not_lt_one hpos), hcount]
  rfl

/-- The position of the leftmost index is the least one at which the test holds of what is left. -/
theorem Plan.position_firstIndexWhere (test : List Char → Bool) (text : List Char) {start : Nat}
    (hpos : 1 ≤ start) :
    let result := Text.firstIndexWhere test 0 (text.drop (start - 1))
    (∃ q, IsLeast {q | start ≤ q ∧ test (text.drop (q - 1)) = true} q ∧
      position (start - 1) result = .ofNat q) ∨
      (∀ q, ¬(start ≤ q ∧ test (text.drop (q - 1)) = true)) ∧
        position (start - 1) result = .number (-1) := by
  intro result
  have hdrop (q : Nat) (hq : start ≤ q) :
      text.drop (q - 1) = (text.drop (start - 1)).drop (q - start) := by
    rw [List.drop_drop]
    congr 1
    omega
  cases hindex : result with
  | none =>
    refine .inr ⟨fun q ⟨hq, hholds⟩ => ?_, rfl⟩
    rw [hdrop q hq, Text.firstIndexWhere_eq_none hindex] at hholds
    cases hholds
  | some i =>
    obtain ⟨i, rfl, hholds, hfirst⟩ := Text.firstIndexWhere_eq_some hindex
    have hposition : start - 1 + (0 + i) + 1 = start + i := by omega
    refine .inl ⟨start + i, ⟨⟨Nat.le_add_right start i, ?_⟩, fun q ⟨hq, hq'⟩ => ?_⟩, ?_⟩
    · rwa [hdrop _ (Nat.le_add_right start i), Nat.add_sub_cancel_left]
    · rw [hdrop q hq] at hq'
      by_contra hlt
      cases (hfirst (q - start) (by omega)).symm.trans hq'
    · rw [position, hposition]

namespace Expr

/-- `SEARCH` gives the least position, from the start position on, from which the pattern describes
a beginning of what is left of the text, or −1 if there is none.  The texts are ASCII texts. -/
theorem search_least {e₀ e₁ e₂ : Expr} {run : Run} {s u : EvalState} {v₀ v₁ v₂ : Value}
    (hvalues : (argumentValues [e₀, e₁, e₂]).exec run s = (.ok [v₀, v₁, v₂], u))
    (hpattern : ∀ c ∈ v₀.toText.toList, c.toNat < 128)
    (htext : ∀ c ∈ v₁.toText.toList, c.toNat < 128) {x : Float} (hx : v₂.asNumber = .ok x)
    {start : Nat} (hstart : Denotes x start) (hpos : 1 ≤ start) (hlt : start < 2 ^ 53) (id : Nat) :
    let found (q : Nat) :=
      start ≤ q ∧ MatchesStart v₀.toText.toList (v₁.toText.toList.drop (q - 1))
    let outcome :=
      ((call id Builtin.search.definition [e₀, e₁, e₂]).evaluate.exec run s).1
    (∃ q, IsLeast {q | found q} q ∧ outcome = .ok (.ofNat q)) ∨
      (∀ q, ¬found q) ∧ outcome = .ok (.number (-1)) := by
  intro found outcome
  obtain ⟨hgo, t₀, t₁, h₀, h₁, h₂⟩ := exec_of_argumentValues_three hvalues
  have he : [e₀, e₁, e₂][2]? = some e₂ := rfl
  have hskip := exec_startOr he h₂ hx hstart hpos (hlt.trans (by decide))
  have houtcome : outcome = (((Plan.search _).run _).exec run _).1 := outcome_call id _ hgo
  rw [Plan.search, Plan.exec_run_bind _ (exec_text rfl h₀), Plan.exec_run_bind _ (exec_text rfl h₁),
    Plan.exec_run_bind _ hskip, ofText_eq_map] at houtcome
  have hfound (q : Nat) : found q ↔ start ≤ q ∧
      matchesStart (v₀.toText.toList.map ofChar) (v₁.toText.toList.drop (q - 1)) = true := by
    refine and_congr_right fun _ => ?_
    rw [matchesStart_iff hpattern fun c hc => htext c (List.mem_of_mem_drop hc)]
  simp only [hfound]
  rcases Plan.position_firstIndexWhere (matchesStart (v₀.toText.toList.map ofChar))
    v₁.toText.toList hpos with ⟨q, hq, hposition⟩ | ⟨hnone, hposition⟩
  · exact .inl ⟨q, hq, houtcome.trans (congrArg Except.ok hposition)⟩
  · exact .inr ⟨hnone, houtcome.trans (congrArg Except.ok hposition)⟩

/-- A backslash before a star stands for itself, and the star for what is between. -/
theorem search_least_backslash :
    let run : Run := { scope := {} }
    let es : List Expr :=
      [.literal (.text "\\*?["), .literal (.text "\\a\\bCd["), .literal (.number 2)]
    (argumentValues es).exec run {} =
        (.ok [.text "\\*?[", .text "\\a\\bCd[", .number 2], {}) ∧
      (∀ c ∈ "\\*?[".toList, c.toNat < 128) ∧ (∀ c ∈ "\\a\\bCd[".toList, c.toNat < 128) ∧
      Denotes 2 (2 : Nat) ∧
      ((call 0 Builtin.search.definition es).evaluate.exec run {}).1 = .ok (.ofNat 3) := by
  intro run es
  have hvalues : (argumentValues es).exec run {} =
      (.ok [.text "\\*?[", .text "\\a\\bCd[", .number 2], {}) := rfl
  have hpattern : ∀ c ∈ "\\*?[".toList, c.toNat < 128 := by simp
  have htext : ∀ c ∈ "\\a\\bCd[".toList, c.toNat < 128 := by simp
  have hstart : Denotes 2 (2 : Nat) := Number.denotes_two
  refine ⟨hvalues, hpattern, htext, hstart, ?_⟩
  have hthird : MatchesStart ['\\', '*', '?', '['] ['\\', 'b', 'C', 'd', '['] := by
    refine ⟨'\\' :: (['b', 'C'] ++ ['d', '[']), List.prefix_refl _, ?_⟩
    exact .letter (by decide) (by decide) rfl (.anyRun (by decide) (.anyOne (by decide)
      (.letter (by decide) (by decide) rfl .nil)))
  have hsecond : ¬MatchesStart ['\\', '*', '?', '['] ['a', '\\', 'b', 'C', 'd', '['] := by
    rw [matchesStart_letter_iff (by decide) (by decide)]
    rintro ⟨_, _, ⟨⟩, hsame, -⟩
    cases hsame
  rcases search_least hvalues hpattern htext rfl hstart (by decide) (by decide) 0 with
    ⟨q, ⟨⟨hle, hq⟩, hleast⟩, houtcome⟩ | ⟨hnone, -⟩
  · have hupper : q ≤ 3 := hleast ⟨by decide, hthird⟩
    have hlower : 2 ≤ q := hle
    obtain rfl | rfl : q = 2 ∨ q = 3 := by omega
    · exact absurd hq hsecond
    · exact houtcome
  · exact absurd ⟨by decide, hthird⟩ (hnone 3)

end Expr

end Formula
