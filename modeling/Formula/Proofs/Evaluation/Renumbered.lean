import Formula.Proofs.Evaluation.Handles
import Formula.Proofs.Expr.Renumbered

/-!
# Evaluation under other numbers

The numbers of an expression tell its paths apart, which remember handles, and say nothing else.
With other numbers, no two of them made the same, it gives the same from states in which its paths
remember the same handles (`Expr.repeats_renumber`), whatever functions it calls: these see the
values of their arguments and how they are printed, and numbers are not printed.  One of the
evaluations may have polled more often than the other, and then it may be stopped alone.
-/

namespace Formula

namespace Expr

/-! ## How expressions are printed -/

/-- A list is printed from what its elements are printed as, and from nothing else. -/
theorem listText_congr {es es' : List Expr} (h : es.map text = es'.map text) :
    listText es = listText es' := by
  induction es generalizing es' with
  | nil =>
    cases es' with
    | nil => rfl
    | cons => cases h
  | cons e es ih =>
    cases es' with
    | nil => cases h
    | cons e' es' =>
      obtain ⟨he, hes⟩ := List.cons.inj h
      cases es with
      | nil =>
        cases es' with
        | nil => exact he
        | cons => cases hes
      | cons d es =>
        cases es' with
        | nil => cases hes
        | cons d' es' =>
          have hlist : listText (d :: es) = listText (d' :: es') := ih hes
          show e.text ++ ", " ++ listText (d :: es) = e'.text ++ ", " ++ listText (d' :: es')
          rw [he, hlist]

variable (f : Nat → Nat)

theorem isBinary_renumber (e : Expr) : (e.renumber f).isBinary = e.isBinary := by
  cases e <;> rfl

/-- Numbers are not printed. -/
theorem text_renumber (e : Expr) : (e.renumber f).text = e.text := by
  have hall : ∀ es : List Expr, (∀ e ∈ es, (e.renumber f).text = e.text) →
      listText (renumberAll f es) = listText es := by
    intro es hes
    apply listText_congr
    rw [renumberAll_eq_map, List.map_map]
    exact List.map_congr_left hes
  induction e with
  | literal v => rfl
  | unary op e ih => rw [renumber, text, text, bracketed, bracketed, isBinary_renumber, ih]
  | binary op l r ihl ihr =>
    rw [renumber, text, text, bracketed, bracketed, bracketed, bracketed, isBinary_renumber,
      isBinary_renumber, ihl, ihr]
  | call id g args ih => rw [renumber, text, text, hall args ih]
  | var id name index ih =>
    cases index with
    | nil => rfl
    | cons e es =>
      show name ++ "[" ++ listText (renumberAll f (e :: es)) ++ "]" =
        name ++ "[" ++ listText (e :: es) ++ "]"
      rw [hall (e :: es) ih]
  | path id steps text ih => rfl

/-- Renumbering the keys of steps leaves the steps as they are printed. -/
theorem map_text_renumberSteps (steps : List (Step Expr)) :
    (renumberSteps f steps).map Step.text = steps.map Step.text := by
  rw [renumberSteps_eq_map, List.map_map]
  refine List.map_congr_left fun s _ => ?_
  have hkeys : listText (s.keys.map (renumber f)) = listText s.keys := by
    apply listText_congr
    rw [List.map_map]
    exact List.map_congr_left fun e _ => text_renumber f e
  rw [Function.comp_apply, Step.text, Step.text, hkeys]

end Expr

/-! ## Worlds in which a cancellation is due sooner -/

namespace Host

/-- Whether a world is like another but for a cancellation from outside, which is due no later. -/
structure IsSooner (h h' : Host) : Prop where
  cancelled_eq : h.cancelled = h'.cancelled
  calls_eq : h.calls = h'.calls
  due : Option.Rel (· ≤ ·) h.due h'.due

theorem isSooner_refl (h : Host) : h.IsSooner h where
  cancelled_eq := rfl
  calls_eq := rfl
  due := by
    cases h.due with
    | none => exact .none
    | some n => exact .some (Nat.le_refl n)

/-- A cancellation that is due in a world is due in every world that is sooner. -/
theorem IsSooner.due_ne_none {h h' : Host} (hsooner : h.IsSooner h') (hdue : h.due ≠ none) :
    h'.due ≠ none := by
  intro hnone
  have hrel := hsooner.due
  rw [hnone] at hrel
  cases hn : h.due with
  | none => exact hdue hn
  | some n => rw [hn] at hrel; cases hrel

/-- Worlds that are sooner and sooner are sooner than the last. -/
theorem IsSooner.trans {h h' h'' : Host} (hsooner : h.IsSooner h')
    (hsooner' : h'.IsSooner h'') : h.IsSooner h'' := by
  obtain ⟨cancelled, calls, due⟩ := h
  obtain ⟨cancelled', calls', due'⟩ := h'
  obtain ⟨cancelled'', calls'', due''⟩ := h''
  obtain ⟨rfl, rfl, hdue⟩ := hsooner
  obtain ⟨rfl, rfl, hdue'⟩ := hsooner'
  refine ⟨rfl, rfl, ?_⟩
  cases hdue with
  | none => exact hdue'
  | some hle =>
    cases hdue' with
    | some hle' => exact .some (Nat.le_trans hle hle')

/-- A world that was polled is sooner than it was. -/
theorem isSooner_poll (h : Host) {token : Nat} (hgo : (h.poll token).1 = false) :
    (h.poll token).2.IsSooner h := by
  obtain ⟨cancelled, calls, due⟩ := h
  unfold poll at hgo ⊢
  split at hgo
  · cases hgo
  · next hcancelled =>
    rw [if_neg hcancelled]
    match due with
    | none => exact ⟨rfl, rfl, .none⟩
    | some 0 => cases hgo
    | some (n + 1) => exact ⟨rfl, rfl, .some n.le_succ⟩

/-- Where no cancellation is due, polling brings none about. -/
theorem due_poll {h : Host} {token : Nat} (hdue : h.due = none) : (h.poll token).2.due = none := by
  unfold poll
  split
  · exact hdue
  · rw [hdue]
    exact hdue

/-- A world in which a cancellation is due sooner stops alone, or it stops or goes on with the
other. -/
theorem IsSooner.poll {h h' : Host} (hsooner : h.IsSooner h') (token : Nat) :
    (h.poll token).1 = true ∧ h.due ≠ none ∨
      (h'.poll token).1 = (h.poll token).1 ∧ (h.poll token).2.IsSooner (h'.poll token).2 := by
  obtain ⟨cancelled, calls, due⟩ := h
  obtain ⟨cancelled', calls', due'⟩ := h'
  obtain ⟨rfl, rfl, hdue⟩ := hsooner
  unfold Host.poll isCancelled
  by_cases hstopped : cancelled.contains token = true
  · rw [if_pos hstopped, if_pos hstopped]
    exact .inr ⟨rfl, rfl, rfl, hdue⟩
  · rw [if_neg hstopped, if_neg hstopped]
    cases hdue with
    | none => exact .inr ⟨rfl, rfl, rfl, .none⟩
    | @some n n' hle =>
      match n, n', hle with
      | 0, _, _ => exact .inl ⟨rfl, nofun⟩
      | n + 1, n' + 1, hle =>
        exact .inr ⟨rfl, rfl, rfl, .some (Nat.le_of_succ_le_succ hle)⟩

end Host

namespace Run

variable {run : Run} {s : EvalState} (hgo : (run.poll s).1 = false)
include hgo

/-- A run that goes on leaves a world that is sooner than it was. -/
theorem isSooner_poll : (run.poll s).2.host.IsSooner s.host := by
  unfold poll at hgo ⊢
  cases htoken : run.token with
  | none => exact s.host.isSooner_refl
  | some token =>
    rw [htoken] at hgo
    exact s.host.isSooner_poll hgo

/-- A run that goes on when it polls and stops when it polls again is stopped from outside. -/
theorem isDue_of_poll_poll (hstop : (run.poll (run.poll s).2).1 = true) :
    run.token ≠ none ∧ s.host.due ≠ none :=
  (stop_or_isDue (k := 1) hstop).resolve_left (Bool.eq_false_iff.mp hgo)

end Run

/-- After some polls the run is to stop, or a cancellation that is due from outside is due
sooner. -/
theorem Run.stop_or_isSooner_polled {run : Run} {s : EvalState} (k : Nat) :
    (run.poll (run.polled k s)).1 = true ∨ (run.polled k s).host.IsSooner s.host := by
  induction k with
  | zero => exact .inr s.host.isSooner_refl
  | succ k ih =>
    cases hstop : (run.poll (run.polled k s)).1 with
    | false =>
      rcases ih with hgo | hsooner
      · cases hstop.symm.trans hgo
      · exact .inr ((isSooner_poll hstop).trans hsooner)
    | true => exact .inl (congrArg Prod.fst (poll_of_stop hstop))

/-! ## The same expression under other numbers -/

/-- Whether the paths of some numbers, given in two ways, remember the same handles.  The first
state may have been polled more often, where a cancellation from outside is due. -/
structure SharesNumbers (f g : Nat → Nat) (ids : Nat → Prop) (isDue : Prop) (s t : EvalState) :
    Prop where
  sooner : s.host.IsSooner t.host
  isDue : s.host.due ≠ none → isDue
  get?_eq : ∀ id, ids id → ∀ i typeName,
    s.memo.get? (f id, i) typeName = t.memo.get? (g id, i) typeName

section
variable {f g : Nat → Nat} {ids : Nat → Prop} {isDue : Prop} {s t : EvalState}

/-- States with the same world, whose paths remember the same, share all numbers. -/
theorem SharesNumbers.of_host_eq {ids : Nat → Prop} (hhost : s.host = t.host)
    (hmemo : ∀ id i typeName, s.memo.get? (f id, i) typeName = t.memo.get? (g id, i) typeName) :
    SharesNumbers f g ids (t.host.due ≠ none) s t :=
  ⟨hhost ▸ t.host.isSooner_refl, fun h => hhost ▸ h, fun id _ => hmemo id⟩

/-- States that share the handles of some numbers share them after a poll, or the first run is
stopped from outside. -/
theorem SharesNumbers.poll (run : Run) (h : SharesNumbers f g ids isDue s t) :
    (run.poll s).1 = true ∧ run.token ≠ none ∧ isDue ∨
      (run.poll t).1 = (run.poll s).1 ∧
        SharesNumbers f g ids isDue (run.poll s).2 (run.poll t).2 := by
  unfold Run.poll
  cases htoken : run.token with
  | none => exact .inr ⟨rfl, h⟩
  | some token =>
    rcases h.sooner.poll token with ⟨hstop, hdue⟩ | ⟨hsame, hsooner⟩
    · exact .inl ⟨hstop, Option.some_ne_none token, h.isDue hdue⟩
    · exact .inr ⟨hsame, hsooner, fun hdue => h.isDue fun hnone => hdue (Host.due_poll hnone),
        h.get?_eq⟩

/-- A state that is polled alone still shares what it shared, if the run goes on. -/
theorem SharesNumbers.of_poll {run : Run} (h : SharesNumbers f g ids isDue s t)
    (hgo : (run.poll s).1 = false) : SharesNumbers f g ids isDue (run.poll s).2 t := by
  have hsooner := run.isSooner_poll hgo
  refine ⟨hsooner.trans h.sooner, fun hdue => h.isDue (hsooner.due_ne_none hdue), ?_⟩
  rw [run.memo_poll]
  exact h.get?_eq

theorem SharesNumbers.record (h : SharesNumbers f g ids isDue s t) (run : Run)
    (entry : Nat × Value) :
    SharesNumbers f g ids isDue
      (if run.traced then { s with recorded := entry :: s.recorded } else s) t := by
  split <;> exact ⟨h.sooner, h.isDue, h.get?_eq⟩

end

namespace Coupling

/-- A run coupled with itself, for an expression with numbers given in two ways.  Where a
cancellation from outside is due, the first run may be stopped alone. -/
def renumbering (f g : Nat → Nat) (ids : Nat → Prop) (run : Run) (isDue : Prop) : Coupling :=
  { same run with
    states := SharesNumbers f g ids isDue
    alone := fun e => e = .cancelled ∧ run.token ≠ none ∧ isDue
    mode := .inl rfl
    strict := fun h => CalcError.noConfusion h.1
    poll := fun hst => (hst.poll run).imp_left (And.imp_right fun h => ⟨rfl, h⟩)
    records := fun _ _ _ => True
    record := fun _ hst => by split <;> split <;> exact ⟨hst.sooner, hst.isDue, hst.get?_eq⟩ }

variable {f g : Nat → Nat} {ids : Nat → Prop} {run : Run} {isDue : Prop}

/-- Functions of the host see the same number of calls under other numbers. -/
theorem sharesCalls_renumbering : SharesCalls (renumbering f g ids run isDue).states where
  calls_eq h := h.sooner.calls_eq
  count h := ⟨⟨h.sooner.cancelled_eq, congrArg (· + 1) h.sooner.calls_eq, h.sooner.due⟩, h.isDue,
    h.get?_eq⟩
  cancel token h := ⟨⟨congrArg (token :: ·) h.sooner.cancelled_eq, h.sooner.calls_eq,
    h.sooner.due⟩, h.isDue, h.get?_eq⟩

/-- Paths whose numbers are given apart remember the same handles, each under the number that it
has. -/
theorem sharesHandles_renumbering (hf : f.Injective) (hg : g.Injective) {id : Nat} (hid : ids id) :
    SharesHandles (renumbering f g ids run isDue).states (f id) (g id) where
  get?_eq i typeName h := h.get?_eq id hid i typeName
  remember i typeName handle h := by
    refine ⟨h.sooner, h.isDue, fun id' hid' i' typeName' => ?_⟩
    simp only [Memo.get?_remember, h.get?_eq id' hid', Prod.mk.injEq, hf.eq_iff, hg.eq_iff]

end Coupling

namespace Coupling.Follows

variable {f g : Nat → Nat} {ids : Nat → Prop} {run : Run} {isDue : Prop} {α : Type} {x y : Eval α}
  {post : α → Prop}

/-- Coupled so, two computations have one outcome, or the first is stopped alone. -/
theorem outcome {cause : CalcError → Prop} {s t : EvalState}
    (h : (renumbering f g ids run isDue).Follows cause x y post)
    (hst : SharesNumbers f g ids isDue s t) :
    (x.exec run s).1 = (y.exec run t).1 ∨
      (x.exec run s).1 = .error .cancelled ∧ run.token ≠ none ∧ isDue := by
  rcases h hst with ⟨a, s', t', hx, hy, -⟩ |
    ⟨e, s', hx, -, ⟨rfl, hdue⟩ | ⟨e', t', hy, rfl, -⟩⟩
  · exact .inl ((congrArg Prod.fst hx).trans (congrArg Prod.fst hy).symm)
  · exact .inr ⟨congrArg Prod.fst hx, hdue⟩
  · exact .inl ((congrArg Prod.fst hx).trans (congrArg Prod.fst hy).symm)

/-- It makes no difference to poll once more before a computation that polls first: what stops the
one poll stops the other. -/
theorem polled (hpolls : ∃ rest, y = Eval.poll >>= rest)
    (h : (renumbering f g ids run isDue).Follows (fun _ => True) x y post) :
    (renumbering f g ids run isDue).Follows (fun _ => True) (Eval.poll >>= fun _ => x) y post := by
  intro s t hst
  have hpolled : (Eval.poll >>= fun _ => x).exec run s =
      if (run.poll s).1 then (.error .cancelled, (run.poll s).2)
      else x.exec run (run.poll s).2 := Eval.exec_polled run s x
  cases hstop : (run.poll s).1 with
  | false =>
    rw [hstop] at hpolled
    rcases h (hst.of_poll hstop) with ⟨a, s', t', hx, hy⟩ | ⟨e, s', hx, hy⟩
    · exact .inl ⟨a, s', t', hpolled.trans hx, hy⟩
    · exact .inr ⟨e, s', hpolled.trans hx, hy⟩
  | true =>
    rw [hstop] at hpolled
    refine .inr ⟨.cancelled, (run.poll s).2, hpolled, trivial, ?_⟩
    rcases hst.poll run with ⟨-, hdue⟩ | ⟨hsame, hst'⟩
    · exact .inl ⟨rfl, hdue⟩
    · obtain ⟨rest, rfl⟩ := hpolls
      have hstop' : (Eval.poll >>= rest).exec run t = _ := Eval.exec_polled run t (rest ())
      rw [hsame, hstop] at hstop'
      exact .inr ⟨.cancelled, (run.poll t).2, hstop', rfl, hst'⟩

end Coupling.Follows

open Coupling (Repeats renumbering)

/-- An expression gives the same under other numbers, if the numbers of its paths are among those
that are said to remember the same. -/
theorem Expr.repeats_renumber {f g : Nat → Nat} {ids : Nat → Prop} (hf : f.Injective)
    (hg : g.Injective) (run : Run) (isDue : Prop) (e : Expr)
    (hids : ∀ id steps text, .path id steps text ∈ e.nodes → ids id) :
    (renumbering f g ids run isDue).Repeats (fun _ => True) (e.renumber f) (e.renumber g) := by
  have hall : ∀ es : List Expr,
      (∀ e ∈ es, (renumbering f g ids run isDue).Repeats (fun _ => True) (e.renumber f)
        (e.renumber g)) →
      List.Forall₂ ((renumbering f g ids run isDue).Repeats fun _ => True) (renumberAll f es)
        (renumberAll g es) := by
    intro es hes
    rw [renumberAll_eq_map, renumberAll_eq_map, List.forall₂_map_left_iff,
      List.forall₂_map_right_iff]
    exact List.forall₂_same.mpr hes
  have halone : ∀ b, ¬(renumbering f g ids run isDue).alone (.binding b) :=
    fun b h => CalcError.noConfusion h.1
  have hvalidates : ¬(renumbering f g ids run isDue).Validates := Coupling.not_validates rfl
  induction e with
  | literal v => exact .literal .any v
  | unary op e ih =>
    exact .unary .any (ih fun id steps text h => hids id steps text (mem_nodes_operand h))
  | binary op l r ihl ihr =>
    exact .binary .any (ihl fun id steps text h => hids id steps text (mem_nodes_left h))
      (ihr fun id steps text h => hids id steps text (mem_nodes_right h))
  | call id h args ih =>
    have hargs := hall args fun e he =>
      ih e he fun id steps text h => hids id steps text (mem_nodes_argument he h)
    have hsource : ∀ i : Nat, (arguments (renumberAll g args))[i]?.map (fun a => a.source ()) =
        (arguments (renumberAll f args))[i]?.map fun a => a.source () := by
      intro i
      rw [arguments_eq_map, arguments_eq_map, renumberAll_eq_map, renumberAll_eq_map]
      simp only [List.getElem?_map, Option.map_map, Function.comp_def, text_renumber]
    refine .call .any (fun _ _ _ _ _ _ => trivial) ?_
    rw [← hargs.length_eq]
    exact .plan_raising rfl Coupling.sharesCalls_renumbering halone (fun _ => trivial)
      (fun _ => trivial) (Repeats.arguments hargs) hsource (Plan.raisesOnly_any _)
  | var id name index ih =>
    exact .var .any (fun _ _ _ _ _ _ => trivial) (fun _ => trivial) (hall index fun e he =>
      ih e he fun id steps text h => hids id steps text (mem_nodes_index he h))
  | path id steps text ih =>
    have hsite : (renumbering f g ids run isDue).SameSite (fun _ => True) (fun _ => True)
        (fun _ _ => True) ⟨f id, text, fun _ => (renumberSteps f steps).map Step.text⟩
        ⟨g id, text, fun _ => (renumberSteps g steps).map Step.text⟩ := by
      have herrors : ∀ i problem,
          CalcError.binding ⟨problem, text, (renumberSteps f steps).map Step.text, i⟩ =
            .binding ⟨problem, text, (renumberSteps g steps).map Step.text, i⟩ := by
        intro i problem
        rw [map_text_renumberSteps, map_text_renumberSteps]
      refine ⟨herrors, fun _ _ _ => trivial, fun i name o _ _ => ?_⟩
      exact .objectMember
        (Coupling.sharesHandles_renumbering hf hg (hids id steps text List.mem_cons_self))
        (herrors i) (fun _ _ => trivial) fun _ _ _ => trivial
    refine .path (fun _ => trivial) (fun _ _ _ _ _ _ => trivial) .any (.of_graph .all hvalidates)
      hsite ?_ (fun _ _ _ => trivial) (fun _ _ => trivial) (fun _ => trivial) fun _ _ _ => trivial
    rw [renumberSteps_eq_map, renumberSteps_eq_map, List.forall₂_map_left_iff,
      List.forall₂_map_right_iff]
    refine List.forall₂_same.mpr fun s hs => ⟨rfl, ?_, fun h => absurd h hvalidates⟩
    have hkeys := hall s.keys fun e he =>
      ih s hs e he fun id steps text h => hids id steps text (mem_nodes_key hs he h)
    rwa [renumberAll_eq_map, renumberAll_eq_map] at hkeys

section
variable {f : Nat → Nat} (hf : f.Injective) (run : Run) (isDue : Prop)
include hf

/-- Under other numbers, all different, an expression gives what it gives. -/
theorem Expr.repeats_renumber_self (e : Expr) :
    (renumbering f id (fun _ => True) run isDue).Repeats (fun _ => True) (e.renumber f) e := by
  have hrepeats : (renumbering f id (fun _ => True) run isDue).Repeats _ (e.renumber f)
      (e.renumber id) :=
    repeats_renumber hf Function.injective_id run isDue e fun _ _ _ _ => trivial
  rwa [renumber_id] at hrepeats

theorem Expr.repeats_map_renumber (es : List Expr) :
    List.Forall₂ ((renumbering f id (fun _ => True) run isDue).Repeats fun _ => True)
      (es.map (renumber f)) es := by
  rw [List.forall₂_map_left_iff]
  exact List.forall₂_same.mpr fun e _ => repeats_renumber_self hf run isDue e

end

end Formula
