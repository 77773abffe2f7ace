import Formula.Proofs.Evaluation.Arguments
import Formula.Proofs.Number.Denoted
import Formula.Proofs.Text.Occurrences

/-!
# Substitution

`SUBSTITUTE` joins the pieces of a text between the occurrences of another one
(`Expr.substitute_splits`).
-/

namespace Formula.Expr

open Number (Denotes)
open Text (Splits replaceAll replaceNth)

section
variable {e₀ e₁ e₂ : Expr} {run : Run} {s u : EvalState} {v₀ v₁ v₂ : Value}
  (hvalues : (argumentValues [e₀, e₁, e₂]).exec run s = (.ok [v₀, v₁, v₂], u)) (id : Nat)
include hvalues

/-- Behind its three texts `SUBSTITUTE` goes on with them. -/
theorem outcome_substitute (last : List Expr) :
    let es := e₀ :: e₁ :: e₂ :: last
    ((call id Builtin.substitute.definition es).evaluate.exec run s).1 =
      (((Plan.substituteIn es.length v₀.toText.toList v₁.toText.toList v₂.toText.toList).run
        (arguments es)).exec run u).1 := by
  intro es
  obtain ⟨hgo, t₀, t₁, h₀, h₁, h₂⟩ := exec_of_argumentValues_three hvalues
  rw [outcome_call id _ hgo]
  show (((Plan.substitute _).run _).exec run _).1 = _
  rw [Plan.substitute, Plan.exec_run_bind _ (exec_text rfl h₀),
    Plan.exec_run_bind _ (exec_text rfl h₁), Plan.exec_run_bind _ (exec_text rfl h₂)]

/-- Without a number all occurrences are replaced. -/
theorem outcome_substitute_none (hold : v₁.toText.toList ≠ []) :
    ((call id Builtin.substitute.definition [e₀, e₁, e₂]).evaluate.exec run s).1 =
      .ok (.text (String.ofList
        (replaceAll v₁.toText.toList v₂.toText.toList v₀.toText.toList))) := by
  rw [outcome_substitute hvalues, Plan.substituteIn, if_neg hold,
    Plan.exec_run_bind _ (exec_value?_none (Nat.le_refl 3) run u)]
  rfl

/-- With a number only the occurrence with that number is replaced. -/
theorem outcome_substitute_some (hold : v₁.toText.toList ≠ []) {e₃ : Expr} {v₃ : Value}
    {t : EvalState} (h₃ : e₃.evaluate.exec run u = (.ok v₃, t)) {x : Float}
    (hx : v₃.asNumber = .ok x) (hge : ¬x < 1) :
    ((call id Builtin.substitute.definition [e₀, e₁, e₂, e₃]).evaluate.exec run s).1 =
      .ok (.text (String.ofList (replaceNth v₁.toText.toList v₂.toText.toList
        (Number.toCount x - 1) v₀.toText.toList))) := by
  have hnumber : ((Plan.ofOutcome (.ok x)).run (arguments [e₀, e₁, e₂, e₃])).exec run t =
      (.ok x, t) := rfl
  rw [outcome_substitute hvalues, Plan.substituteIn, if_neg hold,
    Plan.exec_run_bind _ (exec_value? rfl h₃)]
  dsimp only
  rw [hx, Plan.exec_run_bind _ hnumber, if_neg hge]
  rfl

omit hvalues in
/-- `LEN` of a call that has a text for its value counts the characters of the text. -/
theorem outcome_length {e : Expr} {text : List Char} {s' : EvalState}
    (hpoll : run.poll s' = (false, s))
    (h : (e.evaluate.exec run s).1 = .ok (.text (String.ofList text))) :
    ((call id Builtin.length.definition [e]).evaluate.exec run s').1 =
      .ok (.ofNat text.length) := by
  have hvalue : e.evaluate.exec run s = (.ok (.text (String.ofList text)), _) := Prod.ext h rfl
  rw [outcome_call id _ (congrArg Prod.fst hpoll), hpoll]
  show ((Plan.textLength.run (arguments [e])).exec run s).1 = _
  have htext : (Value.text (String.ofList text)).toText.toList = text := String.toList_ofList
  rw [Plan.textLength, Plan.exec_run_bind _ (exec_text rfl hvalue), htext]
  rfl

/-- `SUBSTITUTE` replaces the occurrences that are found from left to right.  The text between them
is in pieces, which there is one way to cut.  All of them are joined with the new text, so that the
text grows with each occurrence by as much as the new text is longer; or those on both sides of the
occurrence with a given number are, and the others are joined with the old text.  There is nothing
to replace when that number is as large as the number of pieces.  If the old text is empty the text
stays, and what else is given is not evaluated.  Texts have less than `2 ^ 63` characters, more than
any memory holds. -/
theorem substitute_splits (hmemory : v₀.toText.toList.length < 2 ^ 63) :
    let text := v₀.toText.toList
    let old := v₁.toText.toList
    let new := v₂.toText.toList
    let outcome (last : List Expr) :=
      ((call id Builtin.substitute.definition (e₀ :: e₁ :: e₂ :: last)).evaluate.exec run s).1
    (old = [] → ∀ last, outcome last = .ok (.text (String.ofList text))) ∧
      (old ≠ [] → ∃ pieces, Splits old text pieces ∧
        (∀ pieces', Splits old text pieces' → pieces' = pieces) ∧
        outcome [] = .ok (.text (String.ofList (new.intercalate pieces))) ∧
        (∀ m s', run.poll s' = (false, s) → ∃ length : Nat,
          ((call m Builtin.length.definition [call id Builtin.substitute.definition
            [e₀, e₁, e₂]]).evaluate.exec run s').1 = .ok (.ofNat length) ∧
          (length : Int) = text.length + (pieces.length - 1) * (new.length - old.length)) ∧
        ∀ e₃ v₃ t x (n : Nat), e₃.evaluate.exec run u = (.ok v₃, t) → v₃.asNumber = .ok x →
          Denotes x n → 1 ≤ n → outcome [e₃] = .ok (.text (String.ofList
            (if n < pieces.length then
              old.intercalate (pieces.take n) ++ new ++ old.intercalate (pieces.drop n)
            else text)))) := by
  intro text old new outcome
  refine ⟨fun hempty last => ?_, fun hold => ?_⟩
  · show ((call id _ _).evaluate.exec run s).1 = _
    rw [outcome_substitute hvalues, Plan.substituteIn, if_pos hempty]
    rfl
  · obtain ⟨pieces, hpieces⟩ := Splits.exists_pieces hold text
    have hall := hpieces.replaceAll_eq hold new
    have hreplaced : outcome [] = .ok (.text (String.ofList (new.intercalate pieces))) :=
      (outcome_substitute_none hvalues id hold).trans (hall ▸ rfl)
    refine ⟨pieces, hpieces, fun _ h => hpieces.pieces_unique h, hreplaced, ?_, ?_⟩
    · intro m s' hpoll
      refine ⟨_, outcome_length m hpoll hreplaced, ?_⟩
      rw [← hall]
      exact hpieces.length_replaceAll hold new
    · intro e₃ v₃ t x n h₃ hx hn hpos
      refine (outcome_substitute_some hvalues id hold h₃ hx (hn.not_lt_one hpos)).trans ?_
      have hbound : pieces.length ≤ v₀.toText.toList.length + 1 := hpieces.length_pieces_le hold
      -- A count that is cut off is larger than any number of pieces.
      have hcount := hn.toCount_eq
      split
      · next hlt =>
        have hindex : Number.toCount x - 1 + 1 = n := by omega
        rw [hpieces.replaceNth_eq hold new (by omega), hindex]
      · next hle => rw [hpieces.replaceNth_eq_self hold new (by omega)]

end

/-- The second of three occurrences, of which the first two stand side by side, is replaced by a
text that holds the old one. -/
theorem substitute_splits_second :
    let run : Run := { scope := {} }
    let texts : List Expr :=
      [.literal (.text "aaaabaa"), .literal (.text "aa"), .literal (.text "baa")]
    (argumentValues texts).exec run {} = (.ok [.text "aaaabaa", .text "aa", .text "baa"], {}) ∧
      "aaaabaa".toList.length < 2 ^ 63 ∧
      (Expr.evaluate (.literal (.number 2))).exec run {} = (.ok (.number 2), {}) ∧
      Denotes 2 (2 : Nat) ∧
      ((call 0 Builtin.substitute.definition (texts ++ [.literal (.number 2)])).evaluate.exec
        run {}).1 = .ok (.text "aabaabaa") := by
  intro run texts
  have hvalues : (argumentValues texts).exec run {} =
      (.ok [.text "aaaabaa", .text "aa", .text "baa"], {}) := rfl
  have hlength : "aaaabaa".toList.length < 2 ^ 63 := by decide +kernel
  obtain ⟨pieces, -, hunique, -, -, hnth⟩ := (substitute_splits hvalues 0 hlength).2 (by decide)
  refine ⟨hvalues, hlength, rfl, Number.denotes_two, ?_⟩
  have hlast : Splits ['a', 'a'] [] [[]] := .last (by decide)
  have hthird : Splits ['a', 'a'] (['b'] ++ ['a', 'a'] ++ []) [['b'], []] := .next (by decide) hlast
  have hsecond : Splits ['a', 'a'] ([] ++ ['a', 'a'] ++ _) [[], ['b'], []] := .next nofun hthird
  have hfirst : Splits ['a', 'a'] ([] ++ ['a', 'a'] ++ _) [[], [], ['b'], []] := .next nofun hsecond
  obtain rfl := hunique _ hfirst
  exact (hnth _ _ _ 2 2 rfl rfl Number.denotes_two (by decide)).trans rfl

end Formula.Expr
