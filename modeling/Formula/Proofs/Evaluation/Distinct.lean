import Formula.Proofs.Evaluation.Aggregates

/-!
# Distinct values

`Map` keeps the items of its arguments that equal none kept before them.  Which items it keeps
depends on their order, since equality is neither transitive nor reflexive: a text may equal a
number and another text the same number, and no NaN equals itself.  `Keeps` says which items are
kept and why the others are not (`Keeps.distinctOnto`); among those that are kept nothing is left to
drop (`Plan.distinctOnto_of_pairwise`), so `Map` of a `Map` is the `Map`.
-/

namespace Formula

/-! ## Kept items -/

/-- What is kept of some items, at which positions: the items that equal none kept before them. -/
structure Keeps (items kept : List Value) (positions : List Nat) : Prop where
  ascending : positions.Pairwise (· < ·)
  map_positions : positions.map (items[·]?) = kept.map some
  distinct : kept.Pairwise fun v w => v.equal w = false
  covered : ∀ j w, items[j]? = some w → j ∉ positions →
    ∃ i ∈ positions, i < j ∧ ∃ v, items[i]? = some v ∧ v.equal w = true

namespace Keeps

variable {items kept : List Value} {positions : List Nat}

theorem nil : Keeps [] [] [] := ⟨.nil, rfl, .nil, nofun⟩

/-- Each position that is kept is that of an item that is kept. -/
theorem getElem?_of_mem (h : Keeps items kept positions) {i : Nat} (hi : i ∈ positions) :
    ∃ v ∈ kept, items[i]? = some v := by
  have hmem : items[i]? ∈ kept.map some := h.map_positions ▸ List.mem_map_of_mem hi
  obtain ⟨v, hv, heq⟩ := List.mem_map.mp hmem
  exact ⟨v, hv, heq.symm⟩

theorem position_of_mem (h : Keeps items kept positions) {v : Value} (hv : v ∈ kept) :
    ∃ i ∈ positions, items[i]? = some v := by
  have hmem : some v ∈ positions.map (items[·]?) := h.map_positions ▸ List.mem_map_of_mem hv
  exact List.mem_map.mp hmem

theorem lt_length (h : Keeps items kept positions) {i : Nat} (hi : i ∈ positions) :
    i < items.length := by
  obtain ⟨v, -, hv⟩ := h.getElem?_of_mem hi
  exact (List.getElem?_eq_some_iff.mp hv).1

/-- What is kept is a subsequence of the items. -/
theorem sublist (h : Keeps items kept positions) : kept.Sublist items := by
  let places : List (Fin items.length) := positions.pmap Fin.mk fun _ => h.lt_length
  have hplaces : places.Pairwise (· < ·) :=
    (List.pairwise_pmap _).mpr (h.ascending.imp fun hlt _ _ => hlt)
  have hitems : (places.map (items[·])).map some = kept.map some := by
    rw [← h.map_positions, List.map_pmap, List.map_pmap, ← List.pmap_eq_map fun _ => h.lt_length]
    exact List.pmap_congr_left positions fun i _ hi _ => (List.getElem?_eq_getElem hi).symm
  rw [← List.map_inj_right (fun _ _ => Option.some.inj) |>.mp hitems]
  exact List.map_getElem_sublist hplaces

section
variable (h : Keeps items kept positions)
include h

/-- The positions are the same among more items. -/
theorem map_getElem?_append (more : List Value) :
    positions.map ((items ++ more)[·]?) = kept.map some := by
  rw [← h.map_positions]
  exact List.map_congr_left fun i hi => List.getElem?_append_left (h.lt_length hi)

/-- Of more items those that were there are covered as they were, and it remains to cover the
others. -/
theorem covered_append {more : List Value} {j : Nat} {w : Value}
    (hw : (items ++ more)[j]? = some w) (hj : j ∉ positions) :
    (∃ i ∈ positions, i < j ∧ ∃ v, (items ++ more)[i]? = some v ∧ v.equal w = true) ∨
      items.length ≤ j ∧ more[j - items.length]? = some w := by
  rcases Nat.lt_or_ge j items.length with hold | hmore
  · rw [List.getElem?_append_left hold] at hw
    obtain ⟨i, hi, hlt, hequal⟩ := h.covered j w hw hj
    refine .inl ⟨i, hi, hlt, ?_⟩
    rwa [List.getElem?_append_left (Nat.lt_trans hlt hold)]
  · rw [List.getElem?_append_right hmore] at hw
    exact .inr ⟨hmore, hw⟩

/-- An item that equals none of the kept ones is kept. -/
theorem keep {w : Value} (hnew : ∀ v ∈ kept, v.equal w = false) :
    Keeps (items ++ [w]) (kept ++ [w]) (positions ++ [items.length]) where
  ascending := by
    refine List.pairwise_append.mpr ⟨h.ascending, List.pairwise_singleton .., ?_⟩
    rintro i hi _ (_ | ⟨_, ⟨⟩⟩)
    exact h.lt_length hi
  map_positions := by
    rw [List.map_append, List.map_append, h.map_getElem?_append]
    simp
  distinct := by
    refine List.pairwise_append.mpr ⟨h.distinct, List.pairwise_singleton .., ?_⟩
    rintro v hv _ (_ | ⟨_, ⟨⟩⟩)
    exact hnew v hv
  covered := by
    intro j w' hw' hj
    rw [List.mem_append, List.mem_singleton, not_or] at hj
    rcases h.covered_append hw' hj.1 with ⟨i, hi, hcovered⟩ | ⟨hle, hw⟩
    · exact ⟨i, List.mem_append_left _ hi, hcovered⟩
    · -- Behind the items there is only the new one, which is kept.
      rw [List.getElem?_singleton, if_neg (by omega)] at hw
      cases hw

/-- An item that equals a kept one is dropped. -/
theorem drop {v w : Value} (hv : v ∈ kept) (hequal : v.equal w = true) :
    Keeps (items ++ [w]) kept positions where
  ascending := h.ascending
  map_positions := h.map_getElem?_append [w]
  distinct := h.distinct
  covered := by
    intro j w' hw' hj
    rcases h.covered_append hw' hj with hcovered | ⟨hle, hw⟩
    · exact hcovered
    · obtain ⟨i, hi, hiv⟩ := h.position_of_mem hv
      have hlt := h.lt_length hi
      rw [List.getElem?_singleton] at hw
      split at hw
      · obtain rfl : w = w' := Option.some.inj hw
        refine ⟨i, hi, by omega, v, ?_, hequal⟩
        rwa [List.getElem?_append_left hlt]
      · cases hw

/-- Going through more items keeps what those before them and these have to keep. -/
theorem distinctOnto (vs : List Value) :
    ∃ positions', Keeps (items ++ vs) (Plan.distinctOnto kept.reverse vs) positions' := by
  induction vs generalizing items kept positions with
  | nil =>
    rw [List.append_nil, Plan.distinctOnto, List.reverse_reverse]
    exact ⟨positions, h⟩
  | cons w vs ih =>
    rw [Plan.distinctOnto, List.any_reverse, List.append_cons]
    split
    · next hequal =>
      obtain ⟨v, hv, hequal⟩ := List.any_eq_true.mp hequal
      exact ih (h.drop hv hequal)
    · next hnew =>
      rw [← List.reverse_concat]
      refine ih (h.keep fun v hv => ?_)
      exact Bool.eq_false_iff.mpr fun hequal => hnew (List.any_eq_true.mpr ⟨v, hv, hequal⟩)

end

end Keeps

namespace Plan

/-- Where no item equals one before it nothing is dropped. -/
theorem distinctOnto_append {kept vs : List Value}
    (h : (kept.reverse ++ vs).Pairwise fun v w => v.equal w = false) :
    distinctOnto kept vs = kept.reverse ++ vs := by
  induction vs generalizing kept with
  | nil => rw [distinctOnto, List.append_nil]
  | cons w vs ih =>
    have hnew : ¬kept.any (·.equal w) = true := by
      intro hany
      obtain ⟨v, hv, hequal⟩ := List.any_eq_true.mp hany
      have hne := (List.pairwise_append.mp h).2.2 v (List.mem_reverse.mpr hv) w List.mem_cons_self
      cases hne.symm.trans hequal
    rw [List.append_cons, ← List.reverse_cons] at h
    rw [distinctOnto, if_neg hnew, ih h, List.reverse_cons, ← List.append_cons]

theorem distinctOnto_of_pairwise {vs : List Value}
    (h : vs.Pairwise fun v w => v.equal w = false) : distinctOnto [] vs = vs :=
  distinctOnto_append h

end Plan

/-! ## Calls of `Map` -/

namespace Expr

section
variable (n : Nat) (run : Run) (s : EvalState)

/-- `Map` gives what it keeps of the items of its arguments, and fails where these fail. -/
theorem outcome_distinct (es : List Expr) :
    ((call n Builtin.distinct.definition es).evaluate.exec run s).1 =
      ((argumentValues es).exec run s).1.map fun vs =>
        .array (Plan.distinctOnto [] (vs.flatMap Plan.itemsOf)) := by
  have hplan (count : Nat) : Builtin.distinct.plan count = Plan.items count >>= fun vs =>
      Plan.ofOutcome (.ok (.array (Plan.distinctOnto [] vs))) := rfl
  rw [outcome_aggregate hplan, Eval.exec_bind]
  rcases (argumentValues es).exec run s with ⟨_ | vs, t⟩ <;> rfl

/-- With one argument, the values of the arguments are the array of the one value. -/
theorem outcome_argumentValues_singleton (e : Expr) :
    ((argumentValues [e]).exec run s).1 =
      ((Eval.poll >>= fun _ => e.evaluate).exec run s).1.map ([·]) := by
  have hvalues : argumentValues [e] = (do Eval.poll; e.evaluate) >>= fun v => pure [v] := by
    simp [argumentValues, List.mapM_cons, List.mapM_nil]
  rw [hvalues, Eval.exec_bind]
  rcases (Eval.poll >>= fun _ => e.evaluate).exec run s with ⟨_ | v, t⟩ <;> rfl

end

/-- `Map` gives what is to be kept of the items of its arguments, in their order, and fails where
these fail.  The `Map` of a `Map` gives the same, under any numbers where the paths remember the
same; it polls once more, so it may be stopped where a cancellation from outside is due. -/
theorem distinct_distinct (es : List Expr) {run : Run} {s s' : EvalState}
    {f : Nat → Nat} (hf : f.Injective) (hhost : s'.host = s.host)
    (hmemo : ∀ m i typeName, s'.memo.get? (f m, i) typeName = s.memo.get? (m, i) typeName)
    (n n' : Nat) :
    let once := call n Builtin.distinct.definition es
    let twice := call n' Builtin.distinct.definition [once.renumber f]
    (∀ vs t, (argumentValues es).exec run s = (.ok vs, t) → ∃ kept positions,
      (once.evaluate.exec run s).1 = .ok (.array kept) ∧
        kept.Sublist (vs.flatMap Plan.itemsOf) ∧
        Keeps (vs.flatMap Plan.itemsOf) kept positions) ∧
      (∀ e t, (argumentValues es).exec run s = (.error e, t) →
        (once.evaluate.exec run s).1 = .error e) ∧
      ((twice.evaluate.exec run s').1 = (once.evaluate.exec run s).1 ∨
        (twice.evaluate.exec run s').1 = .error .cancelled ∧
          run.token ≠ none ∧ s.host.due ≠ none) := by
  intro once twice
  have honce : (once.evaluate.exec run s).1 = _ := outcome_distinct n run s es
  refine ⟨fun vs t hvalues => ?_, fun e t herror => ?_, ?_⟩
  · obtain ⟨positions, hkeeps⟩ := Keeps.nil.distinctOnto (vs.flatMap Plan.itemsOf)
    rw [hvalues] at honce
    exact ⟨_, positions, honce, hkeeps.sublist, hkeeps⟩
  · rw [herror] at honce
    exact honce
  · have htwice : (twice.evaluate.exec run s').1 = _ := outcome_distinct n' run s' _
    rw [outcome_argumentValues_singleton] at htwice
    have hshares : SharesNumbers f id (fun _ => True) _ s' s := .of_host_eq hhost hmemo
    have hinner := repeats_renumber_self hf run (s.host.due ≠ none) once
    rcases (hinner.polled once.exists_poll_bind).outcome hshares with hsame | ⟨hcancelled, hdue⟩
    · rw [hsame] at htwice
      refine .inl (htwice.trans ?_)
      rw [honce]
      rcases ((argumentValues es).exec run s).1 with e | vs
      · rfl
      · -- What is kept has no two equal items, so all of it is kept again.
        obtain ⟨_, hkeeps⟩ := Keeps.nil.distinctOnto (vs.flatMap Plan.itemsOf)
        have hagain := Plan.distinctOnto_of_pairwise hkeeps.distinct
        show Except.ok (Value.array (Plan.distinctOnto [] (_ ++ []))) = _
        rw [List.append_nil]
        exact congrArg (fun kept => Except.ok (Value.array kept)) hagain
    · rw [hcancelled] at htwice
      exact .inr ⟨htwice, hdue⟩

/-- A text that equals a number, the number, and a text that equals the number but not the first
text. -/
theorem distinct_distinct_mixed :
    let es : List Expr := [.literal (.text "1"), .literal (.number 1), .literal (.text "01")]
    let once := call 0 Builtin.distinct.definition es
    let twice := call 1 Builtin.distinct.definition [once.renumber (· + 1)]
    let run : Run := { scope := {} }
    Function.Injective (· + 1 : Nat → Nat) ∧
      (argumentValues es).exec run {} = (.ok [.text "1", .number 1, .text "01"], {}) ∧
      (twice.evaluate.exec run {}).1 = .ok (.array [.text "1", .text "01"]) := by
  intro es once twice run
  have hinjective : Function.Injective (· + 1 : Nat → Nat) := fun _ _ => Nat.succ.inj
  have hvalues : (argumentValues es).exec run {} =
      (.ok [.text "1", .number 1, .text "01"], {}) := rfl
  have honce : (once.evaluate.exec run {}).1 = .ok (.array [.text "1", .text "01"]) := rfl
  have hmain := @distinct_distinct es run {} {} (· + 1) hinjective rfl (fun _ _ _ => rfl) 0 1
  refine ⟨hinjective, hvalues, ?_⟩
  exact (hmain.2.2.resolve_right fun h => h.2.1 rfl).trans honce

end Expr

end Formula
