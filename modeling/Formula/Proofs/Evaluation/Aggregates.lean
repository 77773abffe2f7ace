import Formula.Proofs.Evaluation.Arguments
import Formula.Proofs.Evaluation.Renumbered

/-!
# Aggregates

An aggregate evaluates its arguments one after another and counts the items of an array among their
values, one level deep, as if they were arguments.  So some arguments in a row that are no arrays
may as well be given as the items of one `Array` (`Expr.aggregate_array`).
-/

namespace Formula

/-! ## The functions -/

/-- Whether a function takes the items of arrays for arguments. -/
def Builtin.isAggregate : Builtin → Bool
  | sum | max | min | average | averageAll | count | countAll | distinct => true
  | _ => false

/-- A number is checked once it is known: what comes of it is a result or an error. -/
theorem Plan.exists_finite (x : Float) : ∃ r, finite x = ofOutcome r := by
  unfold finite
  split
  · exact ⟨.ok _, rfl⟩
  · exact ⟨.error _, rfl⟩

/-- What comes of an aggregate depends on the items alone. -/
theorem Builtin.exists_ofItems {b : Builtin} (hb : b.isAggregate = true) :
    ∃ ofItems : List Value → Outcome Value, ∀ count,
      b.plan count = Plan.items count >>= fun vs => Plan.ofOutcome (ofItems vs) := by
  have hplan : ∃ next : List Value → Plan Value,
      (∀ count, b.plan count = Plan.items count >>= next) ∧
        ∀ vs, ∃ r, next vs = Plan.ofOutcome r := by
    cases b with
    | sum => exact ⟨_, fun _ => rfl, fun _ => Plan.exists_finite _⟩
    | max | min | count | countAll | distinct =>
      exact ⟨_, fun _ => rfl, fun _ => ⟨.ok _, rfl⟩⟩
    | average | averageAll =>
      refine ⟨_, fun _ => rfl, fun vs => ?_⟩
      split
      · exact ⟨.error _, rfl⟩
      · exact ⟨.ok _, rfl⟩
    | _ => cases hb
  obtain ⟨next, hnext, hends⟩ := hplan
  choose ofItems hofItems using hends
  refine ⟨ofItems, fun count => ?_⟩
  rw [hnext, funext hofItems]

/-- Values that are no arrays are items themselves. -/
theorem Plan.flatMap_itemsOf {vs : List Value} (h : ∀ v ∈ vs, v.kind ≠ .array) :
    vs.flatMap itemsOf = vs := by
  induction vs with
  | nil => rfl
  | cons v vs ih =>
    obtain ⟨hv, hvs⟩ := List.forall_mem_cons.mp h
    have hitem : itemsOf v = [v] := by
      cases v with
      | array items => exact absurd rfl hv
      | _ => rfl
    rw [List.flatMap_cons, hitem, ih hvs]
    rfl

open Coupling (renumbering)

namespace Expr

/-! ## Arguments as items of an array -/

/-- A call of an aggregate gives what comes of the items of its arguments. -/
theorem outcome_aggregate {b : Builtin} {ofItems : List Value → Outcome Value}
    (hb : ∀ count, b.plan count = Plan.items count >>= fun vs => Plan.ofOutcome (ofItems vs))
    (n : Nat) (es : List Expr) (run : Run) (s : EvalState) :
    ((call n b.definition es).evaluate.exec run s).1 =
      ((argumentValues es >>= fun vs =>
        Eval.ofOutcome (ofItems (vs.flatMap Plan.itemsOf))).exec run s).1 := by
  have hplan : (b.definition.implementation.plan es.length).run (arguments es) =
      es.mapM evaluate >>= fun vs => Eval.ofOutcome (ofItems (vs.flatMap Plan.itemsOf)) := by
    show (b.plan es.length).run (arguments es) = _
    simp only [hb, Plan.run_bind, run_items, bind_assoc, pure_bind, Plan.run_ofOutcome]
  rw [evaluate, Eval.outcome_recorded, hplan, argumentValues, bind_assoc]

/-- Calling `Array` polls, evaluates the arguments in order and records the array of their
values. -/
theorem evaluate_array (n : Nat) (es : List Expr) :
    (call n Builtin.array.definition es).evaluate = (do
      Eval.poll
      let vs ← es.mapM evaluate
      Eval.record n (.array vs)
      return .array vs) := by
  have hplan : (Builtin.array.definition.implementation.plan es.length).run (arguments es) =
      es.mapM evaluate >>= fun vs => pure (.array vs) := run_array es
  rw [evaluate, hplan]
  simp only [bind_assoc, pure_bind]

/-- The values of the first arguments of a call and of some after them, before which `between` is
done. -/
def firstValues (between : Eval Unit) (before group : List Expr) :
    Eval (List Value × List Value) := do
  Eval.poll
  let vs ← before.mapM evaluate
  let ws ← (do between; group.mapM evaluate)
  return (vs, ws)

section
variable (before group after : List Expr)

theorem argumentValues_append : argumentValues (before ++ group) =
    firstValues (pure ()) before group >>= fun p => pure (p.1 ++ p.2) := by
  simp only [argumentValues, firstValues, List.mapM_append, bind_assoc, pure_bind]

theorem argumentValues_alone : argumentValues (before ++ group ++ after) =
    firstValues (pure ()) before group >>= fun p =>
      after.mapM evaluate >>= fun vs => pure (p.1 ++ p.2 ++ vs) := by
  simp only [argumentValues, firstValues, List.mapM_append, bind_assoc, pure_bind]

theorem argumentValues_wrapped (n : Nat) :
    argumentValues (before ++ call n Builtin.array.definition group :: after) =
      firstValues Eval.poll before group >>= fun p =>
        Eval.record n (.array p.2) >>= fun _ =>
          after.mapM evaluate >>= fun vs => pure (p.1 ++ .array p.2 :: vs) := by
  simp only [argumentValues, firstValues, List.mapM_append, List.mapM_cons, evaluate_array,
    bind_assoc, pure_bind]

end

/-- As many values are found before the group as there are arguments before it. -/
theorem length_of_firstValues {between : Eval Unit} {before group : List Expr}
    {vs ws : List Value} {run : Run} {s t : EvalState}
    (h : (firstValues between before group).exec run s = (.ok (vs, ws), t)) :
    vs.length = before.length := by
  obtain ⟨-, t₀, -, h⟩ := Eval.exec_bind_ok h
  obtain ⟨us, t₁, hbefore, h⟩ := Eval.exec_bind_ok h
  obtain ⟨us', t₂, -, h⟩ := Eval.exec_bind_ok h
  cases h
  exact Eval.length_of_exec_mapM hbefore

/-- What is known of the values behind some arguments holds of those of the group. -/
theorem kind_of_firstValues {before group : List Expr} {vs ws : List Value} {run : Run}
    {s t : EvalState}
    (hplain : ∀ us u, (argumentValues (before ++ group)).exec run s = (.ok us, u) →
      ∀ v ∈ us.drop before.length, v.kind ≠ .array)
    (h : (firstValues (pure ()) before group).exec run s = (.ok (vs, ws), t)) :
    ∀ v ∈ ws, v.kind ≠ .array := by
  have hvalues : (argumentValues (before ++ group)).exec run s = (.ok (vs ++ ws), t) := by
    rw [argumentValues_append, Eval.exec_bind, h]
    rfl
  have hplain := hplain _ _ hvalues
  rwa [← length_of_firstValues h, List.drop_left] at hplain

section
variable {f : Nat → Nat} (hf : f.Injective) (run : Run) (isDue : Prop)
include hf

/-- Up to a group of arguments a call does the same if it polls once more before the group: what
stops the poll stops the first of the group. -/
theorem follows_firstValues (before : List Expr) {group : List Expr} (hgroup : group ≠ []) :
    (renumbering f id (fun _ => True) run isDue).Follows (fun _ => True)
      (firstValues Eval.poll (before.map (renumber f)) (group.map (renumber f)))
      (firstValues (pure ()) before group) fun _ => True := by
  refine (Coupling.Follows.poll fun _ => trivial).bind fun _ _ => ?_
  refine (Coupling.Follows.mapM (repeats_map_renumber hf run isDue before)).bind fun _ _ => ?_
  obtain ⟨e, es, rfl⟩ := List.exists_cons_of_ne_nil hgroup
  obtain ⟨rest, he⟩ := e.exists_poll_bind
  have hvalues : (e :: es).mapM evaluate = Eval.poll >>= fun u =>
      rest u >>= fun v => es.mapM evaluate >>= fun vs => pure (v :: vs) := by
    rw [List.mapM_cons, he, bind_assoc]
  have hsame := Coupling.Follows.mapM (repeats_map_renumber hf run isDue (e :: es))
  exact (hsame.polled ⟨_, hvalues⟩).bind fun _ _ => .pure trivial

/-- Behind the group it does the same with the items that it has so far. -/
theorem follows_ofItems (ofItems : List Value → Outcome Value) (items : List Value)
    (after : List Expr) :
    (renumbering f id (fun _ => True) run isDue).Follows (fun _ => True)
      ((after.map (renumber f)).mapM evaluate >>= fun us =>
        Eval.ofOutcome (ofItems (items ++ us.flatMap Plan.itemsOf)))
      (after.mapM evaluate >>= fun us =>
        Eval.ofOutcome (ofItems (items ++ us.flatMap Plan.itemsOf))) fun _ => True := by
  refine (Coupling.Follows.mapM (repeats_map_renumber hf run isDue after)).bind fun us _ => ?_
  cases ofItems (items ++ us.flatMap Plan.itemsOf) with
  | error e => exact .throw_self trivial
  | ok v => exact .pure trivial

end

/-- An aggregate gives the same, a value or an error, where some arguments in a row, none of which
has an array for its value, are made the items of one `Array`.  This holds under any other numbers
too, where the paths remember the same.  The `Array` polls once more than its items do alone, so it
may be stopped where a cancellation from outside is due. -/
theorem aggregate_array {b : Builtin} (hb : b.isAggregate = true) {before group after : List Expr}
    (hgroup : group ≠ []) {run : Run} {s s' : EvalState}
    (hplain : ∀ vs t, (argumentValues (before ++ group)).exec run s = (.ok vs, t) →
      ∀ v ∈ vs.drop before.length, v.kind ≠ .array)
    {f : Nat → Nat} (hf : f.Injective) (hhost : s'.host = s.host)
    (hmemo : ∀ m i typeName, s'.memo.get? (f m, i) typeName = s.memo.get? (m, i) typeName)
    (n n' n'' : Nat) :
    let alone := (call n b.definition (before ++ group ++ after)).evaluate.exec run s
    let wrapped := (call n' b.definition (before.map (renumber f) ++
      call n'' Builtin.array.definition (group.map (renumber f)) ::
        after.map (renumber f))).evaluate.exec run s'
    wrapped.1 = alone.1 ∨
      wrapped.1 = .error .cancelled ∧ run.token ≠ none ∧ s.host.due ≠ none := by
  intro alone wrapped
  have hshares : SharesNumbers f id (fun _ => True) _ s' s := .of_host_eq hhost hmemo
  obtain ⟨ofItems, hofItems⟩ := Builtin.exists_ofItems hb
  have halone : alone.1 = _ := outcome_aggregate hofItems n _ run s
  have hwrapped : wrapped.1 = _ := outcome_aggregate hofItems n' _ run s'
  rw [argumentValues_alone, bind_assoc, Eval.exec_bind] at halone
  rw [argumentValues_wrapped, bind_assoc, Eval.exec_bind] at hwrapped
  rcases follows_firstValues hf run _ before hgroup hshares with
    ⟨⟨vs, ws⟩, t', t, hfirst', hfirst, -, hshares'⟩ |
    ⟨e, t', hfirst', -, ⟨rfl, hdue⟩ | ⟨e', t, hfirst, rfl, -⟩⟩
  · -- Both come to the group with the same values, and the array holds those of the group.
    have hfirst' : (firstValues Eval.poll _ _).exec run s' = (.ok (vs, ws), t') := hfirst'
    have hfirst : (firstValues (pure ()) before group).exec run s = (.ok (vs, ws), t) := hfirst
    have hws := Plan.flatMap_itemsOf (kind_of_firstValues hplain hfirst)
    have hrest := (follows_ofItems hf run _ ofItems (vs.flatMap Plan.itemsOf ++ ws) after).outcome
      (hshares'.record run (n'', .array ws))
    rw [hfirst'] at hwrapped
    rw [hfirst] at halone
    simp only [bind_assoc, pure_bind, Eval.exec_bind _ _ (Eval.record _ _), Eval.exec_record,
      List.flatMap_append, List.flatMap_cons, hws, Plan.itemsOf, List.append_assoc]
      at hwrapped halone hrest
    rw [hwrapped, halone]
    exact hrest
  · have hfirst' : (firstValues Eval.poll _ _).exec run s' = (.error .cancelled, t') := hfirst'
    rw [hfirst'] at hwrapped
    exact .inr ⟨hwrapped, hdue⟩
  · have hfirst' : (firstValues Eval.poll _ _).exec run s' = (.error e, t') := hfirst'
    have hfirst : (firstValues (pure ()) before group).exec run s = (.error e, t) := hfirst
    rw [hfirst'] at hwrapped
    rw [hfirst] at halone
    exact .inl (hwrapped.trans halone.symm)

/-- Counting a number, and then a variable and a text that are the items of an `Array`. -/
theorem aggregate_array_counted :
    let run : Run := { scope := { vars := ⟨[("n", .number 2)]⟩ } }
    let before : List Expr := [.literal (.number 1)]
    let group : List Expr := [.var 1 "n" [], .literal (.text "x")]
    Builtin.countAll.isAggregate = true ∧ group ≠ [] ∧
      (∀ vs t, (argumentValues (before ++ group)).exec run {} = (.ok vs, t) →
        ∀ v ∈ vs.drop before.length, v.kind ≠ .array) ∧
      Function.Injective (· + 1 : Nat → Nat) ∧
      ((call 0 Builtin.countAll.definition (before.map (renumber (· + 1)) ++
        call 1 Builtin.array.definition (group.map (renumber (· + 1))) :: [])).evaluate.exec
          run {}).1 = .ok (.ofNat 3) := by
  intro run before group
  have hplain : ∀ vs t, (argumentValues (before ++ group)).exec run {} = (.ok vs, t) →
      ∀ v ∈ vs.drop before.length, v.kind ≠ .array := by
    intro vs t h
    obtain rfl : [.number 1, .number 2, .text "x"] = vs := Except.ok.inj (congrArg Prod.fst h)
    rintro v (_ | ⟨_, _ | ⟨_, ⟨⟩⟩⟩) <;> exact nofun
  have hinjective : Function.Injective (· + 1 : Nat → Nat) := fun _ _ => Nat.succ.inj
  have hgroup : group ≠ [] := List.cons_ne_nil _ _
  refine ⟨rfl, hgroup, hplain, hinjective, ?_⟩
  have halike := @aggregate_array .countAll rfl before group [] hgroup run {} {} hplain (· + 1)
    hinjective rfl (fun _ _ _ => rfl) 0 0 1
  exact (halike.resolve_right fun h => h.2.1 rfl).trans rfl

end Expr

end Formula
