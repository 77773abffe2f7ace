import Formula.Proofs.Object.HostFree
import Formula.Proofs.Value.Order

/-!
# Members of arrays

A step that reads a member of an array reads it from the items, one after another.  The result has
the shape of the array: absent items stay absent, and nested arrays keep their nesting.  The first
item without the member decides the error (`PathSite.keepsShape`).  Only placeholders are not what
they are for the items alone: a validation puts them in for a member that is read, and not for the
members in an array of them (`PathSite.step_offices_unlike_office`).
-/

namespace Formula

/-! ## Computations for the elements of a list -/

namespace Eval

variable {α β : Type} {f : α → Eval β} {run : Run}

/-- The state in which a computation for each element of a list comes to one of them. -/
def stateAt (f : α → Eval β) (run : Run) (s : EvalState) (l : List α) (j : Nat) : EvalState :=
  (((l.take j).mapM f).exec run s).2

/-- The state at an element behind the first is the one that the first leaves for the others. -/
theorem stateAt_succ {a : α} {b : β} {s t : EvalState} (h : (f a).exec run s = (.ok b, t))
    (l : List α) (j : Nat) : stateAt f run s (a :: l) (j + 1) = stateAt f run t l j := by
  unfold stateAt
  rw [List.take_succ_cons, exec_mapM_cons, h]

theorem stateAt_take {j k : Nat} (h : k ≤ j) (s : EvalState) (l : List α) :
    stateAt f run s (l.take j) k = stateAt f run s l k := by
  unfold stateAt
  rw [List.take_take, Nat.min_eq_left h]

/-- Where all computations have a result, the results stand in the order of the elements. -/
theorem exec_mapM_ok {l : List α} {s : EvalState} {bs : List β}
    (h : ((l.mapM f).exec run s).1 = .ok bs) : bs.length = l.length ∧
      ∀ j a, l[j]? = some a →
        ∃ b, bs[j]? = some b ∧ ((f a).exec run (stateAt f run s l j)).1 = .ok b := by
  induction l generalizing s bs with
  | nil =>
    cases h
    refine ⟨rfl, fun j a ha => ?_⟩
    cases ha
  | cons a l ih =>
    rw [exec_mapM_cons] at h
    generalize hfirst : (f a).exec run s = result at h
    rcases result with ⟨e | b, t⟩
    · cases h
    · dsimp only at h
      generalize hrest : ((l.mapM f).exec run t).1 = rest at h
      rcases rest with e | bs'
      · cases h
      · cases h
        obtain ⟨hlength, hitems⟩ := ih hrest
        refine ⟨congrArg (· + 1) hlength, fun j a' ha => ?_⟩
        cases j with
        | zero =>
          cases ha
          exact ⟨b, rfl, congrArg Prod.fst hfirst⟩
        | succ j =>
          rw [stateAt_succ hfirst]
          exact hitems j a' ha

/-- Where some computation fails, the first that does decides the error. -/
theorem exec_mapM_error {l : List α} {s : EvalState} {e : CalcError}
    (h : ((l.mapM f).exec run s).1 = .error e) : ∃ j a, l[j]? = some a ∧
      ((f a).exec run (stateAt f run s l j)).1 = .error e ∧
      ∃ bs, (((l.take j).mapM f).exec run s).1 = .ok bs := by
  induction l generalizing s with
  | nil => cases h
  | cons a l ih =>
    rw [exec_mapM_cons] at h
    generalize hfirst : (f a).exec run s = result at h
    rcases result with ⟨e' | b, t⟩
    · cases h
      exact ⟨0, a, rfl, congrArg Prod.fst hfirst, [], rfl⟩
    · dsimp only at h
      generalize hrest : ((l.mapM f).exec run t).1 = rest at h
      rcases rest with e' | bs
      · cases h
        obtain ⟨j, a', ha, hfails, bs, hbefore⟩ := ih hrest
        refine ⟨j + 1, a', ha, ?_, b :: bs, ?_⟩
        · rw [stateAt_succ hfirst]
          exact hfails
        · rw [List.take_succ_cons, exec_mapM_cons, hfirst]
          dsimp only
          rw [hbefore]
          rfl
      · cases h

end Eval

/-! ## Items -/

namespace PathSite

variable (p : PathSite) (i : Nat) (name : String)

/-- What a step reads from an item of an array: absent items stay absent. -/
def itemMember : Value → Eval Value
  | .empty => return .empty
  | v => p.member i name v

/-- What is read from an item that is not absent is its member. -/
theorem itemMember_of_ne {v : Value} (h : v ≠ .empty) :
    p.itemMember i name v = p.member i name v := by
  cases v with
  | empty => contradiction
  | _ => rfl

/-- Absent items are no case of their own: what is read of the first item is put before the rest. -/
theorem members_cons (before items : List Value) (v : Value) :
    p.members i name before (v :: items) =
      p.itemMember i name v >>= fun w => p.members i name (w :: before) items := by
  by_cases hempty : v = .empty
  · subst hempty
    rw [members.eq_2, itemMember, pure_bind]
  · rw [members.eq_3 _ _ _ _ _ _ hempty, itemMember_of_ne p i name hempty]

/-- The members of the items, read one after another, stand behind those that were read before. -/
theorem members_eq (before items : List Value) : p.members i name before items =
    (before.reverse ++ ·) <$> items.mapM (p.itemMember i name) := by
  induction items generalizing before with
  | nil => rw [members.eq_1, List.mapM_nil, map_pure, List.append_nil]
  | cons v items ih =>
    simp only [members_cons, ih, List.mapM_cons, map_eq_pure_bind, bind_assoc, pure_bind,
      List.reverse_cons, List.append_assoc, List.singleton_append]

/-- The member of an array is the array of the members of its items. -/
theorem member_array {name : String} (hname : isLengthName name = false) (items : List Value) :
    p.member i name (.array items) = .array <$> items.mapM (p.itemMember i name) := by
  rw [member.eq_3, hname, members_eq, map_eq_pure_bind, map_eq_pure_bind]
  simp only [List.reverse_nil, List.nil_append, bind_pure]
  rfl

/-- What a step makes of a member that was read from a value: in a validation a placeholder stands
in for a member that is absent. -/
def withPlaceholder (mode : Mode) (name : String) (v m : Value) : Value :=
  if m.isEmpty && mode == .validation then (memberPlaceholder? name v).getD m else m

theorem withPlaceholder_of_ne {mode : Mode} (h : mode ≠ .validation) (name : String)
    (v m : Value) : withPlaceholder mode name v m = m := by
  rw [withPlaceholder, beq_false_of_ne h, Bool.and_false]
  rfl

/-- Arrays have no placeholders for their members. -/
theorem withPlaceholder_array (mode : Mode) (name : String) (items : List Value) (m : Value) :
    withPlaceholder mode name (.array items) m = m := ite_self m

/-- A step without keys reads a member, for which a placeholder may stand in. -/
theorem exec_step_of_keyless {s : Step (Eval Value)} (hkeys : s.keys = []) (run : Run) (v : Value)
    (t : EvalState) : (p.step i s v).exec run t =
      (((p.member i s.name v).exec run t).1.map (withPlaceholder run.mode s.name v),
        ((p.member i s.name v).exec run t).2) := by
  unfold step
  rw [hkeys, Eval.exec_bind]
  rcases (p.member i s.name v).exec run t with ⟨_ | _, _⟩ <;> rfl

/-- What a step without keys reads from an array is the member, whatever the mode. -/
theorem exec_step_array {s : Step (Eval Value)} (hkeys : s.keys = []) (run : Run)
    (items : List Value) (t : EvalState) :
    (p.step i s (.array items)).exec run t = (p.member i s.name (.array items)).exec run t := by
  rw [exec_step_of_keyless p i hkeys]
  rcases (p.member i s.name (.array items)).exec run t with ⟨e | m, u⟩
  · rfl
  · rw [Except.map, withPlaceholder_array]

end PathSite

/-! ## What objects promise -/

/-- Whether a computation does nothing but remember handles, and gives the same whatever handles
are remembered, as long as they are valid. -/
def Eval.Remembers {α : Type} (good : Value → Prop) (names : Nat → Nat → String) (x : Eval α) :
    Prop :=
  ∀ run, ∃ r : Outcome α, ∀ ⦃s : EvalState⦄, s.memo.IsValid good names →
    ∃ memo : Memo, memo.IsValid good names ∧ x.exec run s = (r, { s with memo })

namespace Eval.Remembers

variable {α β : Type} {good : Value → Prop} {names : Nat → Nat → String}

theorem pure (a : α) : (Pure.pure a : Eval α).Remembers good names :=
  fun _ => ⟨.ok a, fun s hs => ⟨s.memo, hs, rfl⟩⟩

theorem throw (e : CalcError) : (MonadExcept.throw e : Eval α).Remembers good names :=
  fun _ => ⟨.error e, fun s hs => ⟨s.memo, hs, rfl⟩⟩

/-- What is remembered on the way stays valid, so the second computation gives what it gives. -/
theorem bind {x : Eval α} {f : α → Eval β} (hx : x.Remembers good names)
    (hf : ∀ a, (f a).Remembers good names) : (x >>= f).Remembers good names := by
  intro run
  obtain ⟨r, hx⟩ := hx run
  rcases r with e | a
  · refine ⟨.error e, fun s hs => ?_⟩
    obtain ⟨memo, hmemo, hx⟩ := hx hs
    exact ⟨memo, hmemo, by rw [Eval.exec_bind, hx]⟩
  · obtain ⟨r, hf⟩ := hf a run
    refine ⟨r, fun s hs => ?_⟩
    obtain ⟨memo, hmemo, hx⟩ := hx hs
    obtain ⟨memo', hmemo', hf⟩ := hf (s := { s with memo }) hmemo
    exact ⟨memo', hmemo', by rw [Eval.exec_bind, hx]; exact hf⟩

/-- So it is with a computation for each element of a list, by induction on the list. -/
theorem mapM {f : α → Eval β} {l : List α} (h : ∀ a ∈ l, (f a).Remembers good names) :
    (l.mapM f).Remembers good names := by
  induction l with
  | nil => exact pure []
  | cons a l ih =>
    obtain ⟨ha, hl⟩ := List.forall_mem_cons.mp h
    rw [List.mapM_cons]
    exact ha.bind fun b => (ih hl).bind fun bs => pure (b :: bs)

end Eval.Remembers

namespace PathSite

section
variable {good : Value → Prop} {names : Nat → Nat → String} (hgood : HandleContract good)
include hgood

/-- What a step reads is the same whatever it remembers, if objects keep their promises. -/
theorem remembers_member (p : PathSite) (i : Nat) (v : Value) (hv : good v) :
    (p.member i (names p.id i) v).Remembers good names := by
  induction v using Value.induct with
  | atom v hatom =>
    cases v with
    | object o =>
      refine fun run => ⟨memberOutcome p i (names p.id i) o.contents, fun s hs => ?_⟩
      rw [member.eq_1]
      exact exec_objectMember hgood hv hs
    | text s =>
      rw [member.eq_2]
      split
      · exact .pure _
      · exact .throw _
    | array items => contradiction
    | _ => exact .throw _
  | array items ih =>
    rw [member.eq_3]
    split
    · exact .pure _
    · rw [members_eq, map_eq_pure_bind]
      refine .bind (.bind (.mapM fun v hmem => ?_) fun _ => .pure _) fun _ => .pure _
      by_cases hempty : v = .empty
      · subst hempty
        exact .pure _
      · rw [itemMember_of_ne p i _ hempty]
        exact ih v hmem (hgood.array.mp hv v hmem)

end

end PathSite

/-! ## The shape of an array -/

/-- Whether a value has the nested arrays and the absent items of another, with related values in
place of all the others. -/
inductive Value.MapsTo (r : Value → Value → Prop) : Value → Value → Prop where
  | empty : MapsTo r .empty .empty
  | item {v w : Value} : v.kind ≠ .array → v ≠ .empty → r v w → MapsTo r v w
  | array {vs ws : List Value} : List.Forall₂ (MapsTo r) vs ws → MapsTo r (.array vs) (.array ws)

/-- Whether a value is an array with a value for each of some items: an absent one for those that
are absent, and one that is related to the position and the item for the others. -/
def Value.HasItemsOf (items : List Value) (r : Nat → Value → Value → Prop) (w : Value) : Prop :=
  ∃ ws, w = .array ws ∧ ws.length = items.length ∧ ∀ j v, items[j]? = some v →
    ∃ u, ws[j]? = some u ∧ (v = .empty → u = .empty) ∧ (v ≠ .empty → r j v u)

/-- What the items are related by may be weakened. -/
theorem Value.HasItemsOf.mono {items : List Value} {r r' : Nat → Value → Value → Prop} {w : Value}
    (h : w.HasItemsOf items r) (hr : ∀ j v u, r j v u → r' j v u) : w.HasItemsOf items r' := by
  obtain ⟨ws, hw, hlength, hitems⟩ := h
  refine ⟨ws, hw, hlength, fun j v hv => ?_⟩
  obtain ⟨u, hu, habsent, hrelated⟩ := hitems j v hv
  exact ⟨u, hu, habsent, fun hpresent => hr j v u (hrelated hpresent)⟩

namespace PathSite

section
variable (p : PathSite) (i : Nat) (step : Step (Eval Value)) (run : Run) (s : EvalState)
  (items : List Value)

/-- The state in which a step comes to an item of an array: it has read the items before it. -/
def reached (j : Nat) : EvalState := ((p.step i step (.array (items.take j))).exec run s).2

/-- Where a step leads from a value when it comes to it as an item of an array. -/
def outcomeAt (j : Nat) (v : Value) : Outcome Value :=
  ((p.step i step v).exec run (p.reached i step run s items j)).1

/-- The member that a step reads from a value then, before a placeholder may stand in for it. -/
def memberAt (j : Nat) (v : Value) : Outcome Value :=
  ((p.member i step.name v).exec run (p.reached i step run s items j)).1

end

/-- What a step does with an array: where it leads has the shape of the array. -/
structure KeepsShape (p : PathSite) (i : Nat) (step : Step (Eval Value)) (run : Run)
    (s : EvalState) (items : List Value) : Prop where
  /-- It succeeds when it succeeds on every item that is not absent. -/
  ok_iff : (∃ w, ((p.step i step (.array items)).exec run s).1 = .ok w) ↔
    ∀ j v, items[j]? = some v → v ≠ .empty → ∃ w, p.outcomeAt i step run s items j v = .ok w
  /-- The result is an array with a value for each item: where it leads from the item. -/
  items_eq : run.mode ≠ .validation →
    ∀ w, ((p.step i step (.array items)).exec run s).1 = .ok w →
      w.HasItemsOf items fun j v u => p.outcomeAt i step run s items j v = .ok u
  /-- In a validation it is the member of the item, in place of which the item alone would give the
  placeholder if it is absent. -/
  validation_items_eq : run.mode = .validation →
    ∀ w, ((p.step i step (.array items)).exec run s).1 = .ok w →
      w.HasItemsOf items fun j v u => p.memberAt i step run s items j v = .ok u ∧
        p.outcomeAt i step run s items j v =
          .ok (if u.isEmpty then (memberPlaceholder? step.name v).getD u else u)
  /-- The values stand where their items do, however deep the arrays are nested. -/
  mapsTo : run.mode ≠ .validation →
    ∀ w, ((p.step i step (.array items)).exec run s).1 = .ok w →
      Value.MapsTo (fun v w => ∃ t, ((p.step i step v).exec run t).1 = .ok w) (.array items) w
  /-- So do the members in a validation. -/
  validation_mapsTo : run.mode = .validation →
    ∀ w, ((p.step i step (.array items)).exec run s).1 = .ok w →
      Value.MapsTo (fun v w => ∃ t, ((p.member i step.name v).exec run t).1 = .ok w)
        (.array items) w
  /-- The first item on which it fails decides the error. -/
  first_error : ∀ e, ((p.step i step (.array items)).exec run s).1 = .error e →
    ∃ j v, items[j]? = some v ∧ v ≠ .empty ∧
      p.outcomeAt i step run s items j v = .error e ∧
      ∀ k u, k < j → items[k]? = some u → u ≠ .empty →
        ∃ w, p.outcomeAt i step run s items k u = .ok w
  /-- What it reads from an item and where it leads do not depend on the items before it, as objects
  promise. -/
  independent : ∀ (good : Value → Prop) (names : Nat → Nat → String), HandleContract good →
    names p.id i = step.name → s.memo.IsValid good names → good (.array items) →
    ∀ j v, items[j]? = some v →
      p.memberAt i step run s items j v = ((p.member i step.name v).exec run s).1 ∧
        p.outcomeAt i step run s items j v = ((p.step i step v).exec run s).1

section
variable {p : PathSite} {i : Nat} {step : Step (Eval Value)} {run : Run} (hkeys : step.keys = [])
include hkeys

/-- Where a step leads from an item is the member that it reads, or the placeholder for it. -/
theorem outcomeAt_eq_map (s : EvalState) (items : List Value) (j : Nat) (v : Value) :
    p.outcomeAt i step run s items j v =
      (p.memberAt i step run s items j v).map (withPlaceholder run.mode step.name v) := by
  rw [outcomeAt, exec_step_of_keyless p i hkeys]
  rfl

variable (hname : isLengthName step.name = false)
include hname

theorem reached_eq (s : EvalState) (items : List Value) (j : Nat) :
    p.reached i step run s items j = Eval.stateAt (p.itemMember i step.name) run s items j := by
  rw [reached, exec_step_array p i hkeys, member_array p i hname, Eval.exec_map]
  rfl

/-- Where a step leads from an array is the array of what it reads from the items. -/
theorem exec_step_items (s : EvalState) (items : List Value) :
    ((p.step i step (.array items)).exec run s).1 =
      ((items.mapM (p.itemMember i step.name)).exec run s).1.map .array := by
  rw [exec_step_array p i hkeys, member_array p i hname, Eval.exec_map]

/-- Where a step succeeds, the members of the items stand in the order of the items. -/
theorem exec_step_array_ok {s : EvalState} {items : List Value} {w : Value}
    (h : ((p.step i step (.array items)).exec run s).1 = .ok w) :
    w.HasItemsOf items fun j v u => p.memberAt i step run s items j v = .ok u := by
  rw [exec_step_items hkeys hname] at h
  generalize hmembers : ((items.mapM (p.itemMember i step.name)).exec run s).1 = result at h
  rcases result with e | ws
  · cases h
  · cases h
    obtain ⟨hlength, hitems⟩ := Eval.exec_mapM_ok hmembers
    refine ⟨ws, rfl, hlength, fun j v hv => ?_⟩
    obtain ⟨u, hu, hread⟩ := hitems j v hv
    refine ⟨u, hu, ?_, fun hpresent => ?_⟩
    · rintro rfl
      cases hread
      rfl
    · rw [itemMember_of_ne p i _ hpresent, ← reached_eq hkeys hname] at hread
      exact hread

/-- Where a step fails, the first item without the member decides the error. -/
theorem exec_step_array_error {s : EvalState} {items : List Value} {e : CalcError}
    (h : ((p.step i step (.array items)).exec run s).1 = .error e) :
    ∃ j v, items[j]? = some v ∧ v ≠ .empty ∧ p.memberAt i step run s items j v = .error e ∧
      ∀ k u, k < j → items[k]? = some u → u ≠ .empty →
        ∃ w, p.memberAt i step run s items k u = .ok w := by
  rw [exec_step_items hkeys hname] at h
  generalize hmembers : ((items.mapM (p.itemMember i step.name)).exec run s).1 = result at h
  rcases result with e' | ws
  · cases h
    obtain ⟨j, v, hv, hfails, ws, hbefore⟩ := Eval.exec_mapM_error hmembers
    have hpresent : v ≠ .empty := by
      rintro rfl
      cases hfails
    rw [itemMember_of_ne p i _ hpresent, ← reached_eq hkeys hname] at hfails
    refine ⟨j, v, hv, hpresent, hfails, fun k u hk hu hpresent' => ?_⟩
    have hu' : (items.take j)[k]? = some u := by rw [List.getElem?_take_of_lt hk, hu]
    obtain ⟨w, -, hread⟩ := (Eval.exec_mapM_ok hbefore).2 k u hu'
    rw [itemMember_of_ne p i _ hpresent', Eval.stateAt_take (Nat.le_of_lt hk),
      ← reached_eq hkeys hname] at hread
    exact ⟨w, hread⟩
  · cases h

/-- A step succeeds on an array when it succeeds on every item that is not absent. -/
theorem exec_step_array_ok_iff (s : EvalState) (items : List Value) :
    (∃ w, ((p.step i step (.array items)).exec run s).1 = .ok w) ↔
      ∀ j v, items[j]? = some v → v ≠ .empty →
        ∃ w, p.outcomeAt i step run s items j v = .ok w := by
  constructor
  · rintro ⟨w, hw⟩ j v hv hpresent
    obtain ⟨ws, -, -, hitems⟩ := exec_step_array_ok hkeys hname hw
    obtain ⟨u, -, -, hread⟩ := hitems j v hv
    exact ⟨_, (outcomeAt_eq_map hkeys ..).trans (by rw [hread hpresent, Except.map])⟩
  · intro hall
    generalize hresult : ((p.step i step (.array items)).exec run s).1 = result
    rcases result with e | w
    · obtain ⟨j, v, hv, hpresent, hfails, -⟩ := exec_step_array_error hkeys hname hresult
      obtain ⟨w, hread⟩ := hall j v hv hpresent
      rw [outcomeAt_eq_map hkeys, hfails] at hread
      cases hread
    · exact ⟨w, rfl⟩

/-- What is read from a value has the nested arrays of the value, with members in place of what is
not an array. -/
theorem mapsTo_of_member {r : Value → Value → Prop}
    (hr : ∀ v w t, ((p.member i step.name v).exec run t).1 = .ok w → r v w) (v : Value)
    {s : EvalState} {w : Value} (hpresent : v ≠ .empty)
    (h : ((p.member i step.name v).exec run s).1 = .ok w) : Value.MapsTo r v w := by
  induction v using Value.induct generalizing s w with
  | atom v hatom => exact .item hatom hpresent (hr v w s h)
  | array items ih =>
    rw [← exec_step_array p i hkeys] at h
    obtain ⟨ws, rfl, hlength, hitems⟩ := exec_step_array_ok hkeys hname h
    refine .array (List.forall₂_iff_get.mpr ⟨hlength.symm, fun j hj hj' => ?_⟩)
    have hv : items[j]? = some (items.get ⟨j, hj⟩) := List.getElem?_eq_getElem hj
    obtain ⟨w, hw, habsent, hread⟩ := hitems j _ hv
    obtain rfl : ws.get ⟨j, hj'⟩ = w :=
      Option.some.inj ((List.getElem?_eq_getElem hj').symm.trans hw)
    by_cases hempty : items.get ⟨j, hj⟩ = .empty
    · rw [hempty, habsent hempty]
      exact .empty
    · exact ih _ (List.mem_of_getElem? hv) hempty (hread hempty)

omit hname in
/-- What a step reads from an item does not depend on what it remembers of the items before it. -/
theorem memberAt_eq {good : Value → Prop} {names : Nat → Nat → String}
    (hgood : HandleContract good) (hnames : names p.id i = step.name) {s : EvalState}
    (hs : s.memo.IsValid good names) {items : List Value} (hitems : good (.array items)) {j : Nat}
    {v : Value} (hv : items[j]? = some v) :
    p.memberAt i step run s items j v = ((p.member i step.name v).exec run s).1 := by
  have hgoods := hgood.array.mp hitems
  have hbefore : good (.array (items.take j)) :=
    hgood.array.mpr fun u hu => hgoods u (List.mem_of_mem_take hu)
  obtain ⟨r, hr⟩ := remembers_member hgood p i v (hgoods v (List.mem_of_getElem? hv)) run
  obtain ⟨before, hbefore⟩ := remembers_member hgood p i _ hbefore run
  obtain ⟨memo, hmemo, hreached⟩ := hbefore hs
  obtain ⟨memo', -, hthere⟩ := hr (s := { s with memo }) hmemo
  obtain ⟨memo'', -, hhere⟩ := hr hs
  rw [hnames] at hreached hthere hhere
  rw [memberAt, reached, exec_step_array p i hkeys, hreached, hthere, hhere]

end

/-- A step without keys that does not ask for the length keeps the shape of an array. -/
theorem keepsShape (p : PathSite) (i : Nat) (step : Step (Eval Value)) (hkeys : step.keys = [])
    (hname : isLengthName step.name = false) (run : Run) (s : EvalState) (items : List Value) :
    p.KeepsShape i step run s items := by
  have hmap := @outcomeAt_eq_map p i step run hkeys s items
  have hmember (w : Value) (hw : ((p.step i step (.array items)).exec run s).1 = .ok w) :
      ((p.member i step.name (.array items)).exec run s).1 = .ok w := by
    rwa [exec_step_array p i hkeys] at hw
  refine ⟨exec_step_array_ok_iff hkeys hname s items, fun hmode w hw => ?_, fun hmode w hw => ?_,
    fun hmode w hw => ?_, fun hmode w hw => ?_, fun e he => ?_,
    fun good names hgood hnames hs hitems j v hv => ?_⟩
  · refine (exec_step_array_ok hkeys hname hw).mono fun j v u hread => ?_
    rw [hmap, hread, Except.map, withPlaceholder_of_ne hmode]
  · refine (exec_step_array_ok hkeys hname hw).mono fun j v u hread => ⟨hread, ?_⟩
    rw [hmap, hread, Except.map, hmode, withPlaceholder]
    cases u <;> rfl
  · refine mapsTo_of_member hkeys hname (fun v w t hread => ⟨t, ?_⟩) _ Value.noConfusion
      (hmember w hw)
    rw [exec_step_of_keyless p i hkeys, hread, Except.map, withPlaceholder_of_ne hmode]
  · exact mapsTo_of_member hkeys hname (fun v w t hread => ⟨t, hread⟩) _ Value.noConfusion
      (hmember w hw)
  · obtain ⟨j, v, hv, hpresent, hfails, hbefore⟩ := exec_step_array_error hkeys hname he
    refine ⟨j, v, hv, hpresent, by rw [hmap, hfails, Except.map], fun k u hk hu hpresent' => ?_⟩
    obtain ⟨w, hread⟩ := hbefore k u hk hu hpresent'
    exact ⟨_, (hmap k u).trans (by rw [hread, Except.map])⟩
  · have hread : p.memberAt i step run s items j v = _ :=
      memberAt_eq hkeys hgood hnames hs hitems hv
    exact ⟨hread, by rw [hmap, hread, exec_step_of_keyless p i hkeys]⟩

/-! ## A nested array -/

/-- A person with a name. -/
def person (id : Nat) (name : String) : Value :=
  .object ⟨id, .record ⟨"Person", [⟨"Name", .text name, none⟩]⟩⟩

theorem hostFree_person (id : Nat) (name : String) : (person id name).HostFree := by
  refine .record (List.forall_mem_singleton.mpr (.text name)) fun m hm v hv => ?_
  obtain rfl := List.mem_singleton.mp hm
  cases hv

/-- The rooms of a house: one with a person, an empty one, and one that is shared. -/
def rooms : List Value := [person 0 "Ann", .empty, .array [person 1 "Bob"]]

theorem hostFree_rooms : (Value.array rooms).HostFree := by
  refine .array ?_
  simp only [rooms, List.forall_mem_cons]
  exact ⟨hostFree_person _ _, Value.HostFree.handleContract.empty,
    .array (List.forall_mem_singleton.mpr (hostFree_person _ _)), List.forall_mem_nil _⟩

theorem exec_member_rooms :
    ((member ⟨0, "Name", fun _ => ["Name"]⟩ 0 "Name" (.array rooms)).exec { scope := {} } {}).1 =
      .ok (.array [.text "Ann", .empty, .array [.text "Bob"]]) := rfl

/-- The names of the people in the rooms of a house. -/
theorem keepsShape_rooms :
    let p : PathSite := ⟨0, "Name", fun _ => ["Name"]⟩
    let step : Step (Eval Value) := ⟨"Name", false, []⟩
    let run : Run := { scope := {} }
    step.keys = [] ∧ isLengthName step.name = false ∧
      ((p.step 0 step (.array rooms)).exec run {}).1 =
        .ok (.array [.text "Ann", .empty, .array [.text "Bob"]]) ∧
      p.KeepsShape 0 step run {} rooms ∧
      ∀ j v, rooms[j]? = some v →
        p.memberAt 0 step run {} rooms j v = ((p.member 0 step.name v).exec run {}).1 ∧
          p.outcomeAt 0 step run {} rooms j v = ((p.step 0 step v).exec run {}).1 := by
  intro p step run
  have hname : isLengthName step.name = false := by decide
  have hshape := keepsShape p 0 step rfl hname run {} rooms
  refine ⟨rfl, hname, ?_, hshape, hshape.independent Value.HostFree (fun _ _ => "Name")
    Value.HostFree.handleContract rfl .nil hostFree_rooms⟩
  rw [exec_step_array p 0 rfl]
  exact exec_member_rooms

/-! ## Members with placeholders -/

/-- An office of which it is not known yet who works in it. -/
def office : Value :=
  .object ⟨0, .record ⟨"Office", [⟨"Owner", .empty, some (.text "Ann")⟩]⟩⟩

/-- In a validation the owner of an office is the placeholder, but the owners of some offices are
absent. -/
theorem step_offices_unlike_office :
    let p : PathSite := ⟨0, "Owner", fun _ => ["Owner"]⟩
    let step : Step (Eval Value) := ⟨"Owner", false, []⟩
    let run : Run := { scope := {}, mode := .validation }
    step.keys = [] ∧ isLengthName step.name = false ∧
      ((p.step 0 step office).exec run {}).1 = .ok (.text "Ann") ∧
      ((p.step 0 step (.array [office])).exec run {}).1 = .ok (.array [.empty]) ∧
      ¬(Value.array [.empty]).HasItemsOf [office] fun j v u =>
        p.outcomeAt 0 step run {} [office] j v = .ok u := by
  have hoffice : outcomeAt ⟨0, "Owner", fun _ => ["Owner"]⟩ 0 ⟨"Owner", false, []⟩
      { scope := {}, mode := .validation } {} [office] 0 office = .ok (.text "Ann") := rfl
  refine ⟨rfl, by decide, rfl, rfl, ?_⟩
  rintro ⟨ws, hws, -, hitems⟩
  cases hws
  obtain ⟨u, hu, -, hread⟩ := hitems 0 office rfl
  cases hu
  cases hoffice.symm.trans (hread Value.noConfusion)

end PathSite

end Formula
