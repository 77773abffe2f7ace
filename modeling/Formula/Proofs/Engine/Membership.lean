import Formula.Proofs.Engine.Indexed
import Formula.Proofs.Evaluation.Renumbered
import Formula.Proofs.Object.Dictionaries

/-!
# Items of a dictionary and its membership test

A path takes an item of a dictionary under a key that it converts to the kind of the keys first.
`Contains` looks a key up as it is, but without certain characters at the start of a text.  So where
a path resolves, `Contains` finds the key too if that is the same key (`contains_of_resolved`), and
need not find it otherwise (`contains_unlike_resolved`).
-/

namespace Formula

/-! ## Keys that are found -/

namespace Dictionary

variable {d : Dictionary Value} {key key' v : Value}

/-- What is found under a key is found under the keys that are the same. -/
theorem isSome_get?_of_sameKey (hget : d.get? key = some v) (hsame : key.sameKey key' = true) :
    (d.get? key').isSome = true := by
  obtain ⟨entry, hfind, -⟩ := Option.map_eq_some_iff.mp hget
  have hkey : entry.1.sameKey key = true :=
    List.find?_some (p := fun entry : Value × Value => entry.1.sameKey key) hfind
  rw [get?, Option.isSome_map, List.find?_isSome]
  exact ⟨entry, List.mem_of_find?_eq_some hfind, Value.sameKey_trans hkey hsame⟩

/-- A dictionary in which something is found has a kind of keys. -/
theorem exists_keyKind? (hget : d.get? key = some v) : ∃ kind, d.keyKind? = some kind := by
  obtain ⟨entry, hfind, -⟩ := Option.map_eq_some_iff.mp hget
  rw [keyKind?]
  cases d.declaredKind with
  | some kind => exact ⟨kind, rfl⟩
  | none =>
    cases hentries : d.entries with
    | nil => rw [hentries] at hfind; cases hfind
    | cons first entries => exact ⟨first.1.kind, rfl⟩

/-- What a path finds under a key: it looks up the key that this is converted to. -/
structure Finds (d : Dictionary Value) (key key' v : Value) : Prop where
  coerce : ∃ kind, d.keyKind? = some kind ∧ key.coerce kind = .ok key'
  get?_eq : d.get? key' = some v

/-- A key that is found as it is, and one that is taken for it. -/
theorem Finds.isSome_get? (h : d.Finds key key' v) {needle : Value}
    (hneedle : key'.sameKey needle = true ∨ d.keyKind? = some key.kind ∧ needle = key) :
    (d.get? needle).isSome = true := by
  rcases hneedle with hsame | ⟨hkind, rfl⟩
  · exact isSome_get?_of_sameKey h.get?_eq hsame
  · obtain ⟨kind, hkind', hcoerce⟩ := h.coerce
    obtain rfl : needle.kind = kind := Option.some.inj (hkind.symm.trans hkind')
    rw [Value.coerce, if_pos rfl] at hcoerce
    obtain rfl : needle = key' := Except.ok.inj hcoerce
    rw [h.get?_eq]
    rfl

end Dictionary

/-- Outside of the modes that put up with it, an object has the item that a path finds. -/
theorem indexed?_of_objectItem {run : Run} {s : EvalState} {p : PathSite} {i : Nat} {name : String}
    {c : Contents Value} {keys : List Value} {v : Value} (hmode : run.mode.throws = true)
    (hitem : ((p.objectItem i name c keys).exec run s).1 = .ok v) :
    ∃ keys', PathSite.coerceKeys c keys = .ok keys' ∧ c.indexed? keys' = some v := by
  unfold PathSite.objectItem at hitem
  cases hkeys : PathSite.coerceKeys c keys with
  | error e =>
    rw [hkeys] at hitem
    cases hitem
  | ok keys' =>
    rw [hkeys] at hitem
    dsimp only at hitem
    cases hfound : c.indexed? keys' with
    | some w =>
      rw [hfound] at hitem
      exact ⟨keys', rfl, hfound.trans (congrArg some (Except.ok.inj hitem))⟩
    | none =>
      -- Only another mode puts something in the place of an item that is missing.
      rw [hfound] at hitem
      dsimp only at hitem
      cases hshape : c.shape with
      | plain => rw [hshape] at hitem; cases hitem
      | sequence => rw [hshape] at hitem; cases hitem
      | dictionary =>
        rw [hshape] at hitem
        dsimp only at hitem
        rw [Eval.exec_bind, Eval.exec_read] at hitem
        dsimp only at hitem
        rw [hmode] at hitem
        cases hplaceholder : c.elementPlaceholder? <;> rw [hplaceholder] at hitem <;> cases hitem

/-- An item of a dictionary that a path finds is that under the converted key. -/
theorem finds_of_item {run : Run} {s : EvalState} {p : PathSite} {i : Nat} {name : String}
    {o : Object Value} {d : Dictionary Value} {key v : Value} (ho : o.contents = .dictionary d)
    (hmode : run.mode = .strict)
    (hitem : ((p.item i name (.object o) [key]).exec run s).1 = .ok v) :
    ∃ key', d.Finds key key' v := by
  unfold PathSite.item at hitem
  rw [Eval.exec_bind, Eval.exec_read] at hitem
  dsimp only at hitem
  rw [hmode, if_neg nofun, ho] at hitem
  obtain ⟨keys', hkeys, hfound⟩ := indexed?_of_objectItem (by rw [hmode]; rfl) hitem
  unfold PathSite.coerceKeys at hkeys
  cases hkind : d.keyKind? with
  | none =>
    rw [show (Contents.dictionary d).keyKind? = none from hkind] at hkeys
    obtain rfl : [key] = keys' := Except.ok.inj hkeys
    obtain ⟨kind, hsome⟩ := Dictionary.exists_keyKind? hfound
    rw [hkind] at hsome
    cases hsome
  | some kind =>
    rw [show (Contents.dictionary d).keyKind? = some kind from hkind] at hkeys
    simp only [List.mapM_cons, List.mapM_nil] at hkeys
    cases hcoerce : key.coerce kind with
    | error e => rw [hcoerce] at hkeys; cases hkeys
    | ok key' =>
      rw [hcoerce] at hkeys
      obtain rfl : [key'] = keys' := Except.ok.inj hkeys
      exact ⟨key', ⟨kind, hkind, hcoerce⟩, hfound⟩

/-! ## The test -/

/-- `Contains` asks for the collection and then for the value. -/
theorem exec_contains {run : Run} {s : EvalState} (collection needle : Argument) :
    (Plan.contains.run [collection, needle]).exec run s =
      (do
        let c ← collection.value
        let k ← needle.value
        return .boolean (Plan.isIn run.scope.trimStart (Plan.trimmed run.scope.trimStart k) c)
        : Eval Value).exec run s := by
  unfold Plan.contains Plan.run
  rw [Eval.exec_bind, Eval.exec_read]
  rfl

theorem isIn_dictionary {set : List Char} {needle : Value} {o : Object Value}
    {d : Dictionary Value} (ho : o.contents = .dictionary d) :
    Plan.isIn set needle (.object o) = (d.get? needle).isSome := by
  rw [Plan.isIn, ho]
  rfl

/-- Nothing is caught where no problem of a path is put up with. -/
theorem Eval.exec_tolerating_none {run : Run} {s : EvalState} (x : Eval Value)
    {tolerates : BindingKind → Bool} (h : ∀ kind, tolerates kind = false) :
    (x.tolerating tolerates).exec run s = x.exec run s := by
  rw [tolerating, exec_tryCatch]
  rcases x.exec run s with ⟨e | v, t⟩
  · have hnone : e.bindingKind?.any tolerates = false := by
      cases hkind : e.bindingKind? with
      | none => rfl
      | some kind => exact h kind
    dsimp only
    rw [hnone]
    rfl
  · rfl

/-- The state in which a path that polled has read its member. -/
def memberState (run : Run) (start : EvalState) (n : Nat) (typeName : String) (handle : Handle) :
    EvalState :=
  { (run.poll start).2 with memo := (run.poll start).2.memo.remember (n, 0) typeName handle }

section
variable {run : Run} {start : EvalState} {n : Nat} {typeName : String} {handle : Handle}

theorem get?_memberState {id : Nat} (hid : id ≠ n) (i : Nat) (typeName' : String) :
    (memberState run start n typeName handle).memo.get? (id, i) typeName' =
      start.memo.get? (id, i) typeName' := by
  rw [memberState, Memo.get?_remember, if_neg fun h => hid (congrArg Prod.fst h), run.memo_poll]

variable {member : String} {root D : Object Value} {d : Dictionary Value} (text : String)
  (listed : Bool) (needle : Eval Value) (source source' : Unit → String)
  (hcontext : run.scope.context = some (.object root))
  (hmember : root.contents.get? member = some (.object D)) (ho : D.contents = .dictionary d)
  (hmemo : start.memo.get? (n, 0) root.contents.typeName = none)
include hcontext hmember hmemo

/-- Where a strict path that polled resolves, its key has a value. -/
theorem key_of_resolve {key : Eval Value} {v : Value} {labels : Unit → List String}
    (hmode : run.mode = .strict)
    (hpath : ((PathSite.resolve ⟨n, text, labels⟩ [⟨member, listed, [key]⟩]).exec run
      (run.poll start).2).1 = .ok v) :
    ∃ handle k t, key.exec run (memberState run start n root.contents.typeName handle) =
      (.ok k, t) ∧ ((PathSite.item ⟨n, text, labels⟩ 0 member (.object D) [k]).exec run t).1 =
        .ok v := by
  obtain ⟨handle, hresolve⟩ := @exec_resolve_first run (run.poll start).2 member ⟨n, text, labels⟩
    root (.object D) hmember listed key hcontext (by rw [hmode]; exact nofun)
    (by rw [run.memo_poll]; exact hmemo)
  have huntolerated : ∀ kind, PathSite.isTolerated run.mode kind = false := by
    rw [hmode]
    exact fun _ => rfl
  rw [hresolve, Eval.exec_tolerating_none _ huntolerated] at hpath
  have hitem : ((key >>= fun k =>
      PathSite.item ⟨n, text, labels⟩ 0 member (.object D) [k]).exec run
        (memberState run start n root.contents.typeName handle)).1 = .ok v := hpath
  rw [Eval.exec_bind] at hitem
  rcases hkey : key.exec run (memberState run start n root.contents.typeName handle) with
    ⟨e | k, t⟩
  · rw [hkey] at hitem
    cases hitem
  · rw [hkey] at hitem
    exact ⟨handle, k, t, hkey, hitem⟩

/-- A path of one member as a node, which polls and records what it finds. -/
theorem exec_path_member (hmode : run.mode ≠ .validation) :
    ∃ t : EvalState, t.host = (run.poll start).2.host ∧
      (∀ id i typeName, id ≠ n →
        t.memo.get? (id, i) typeName = start.memo.get? (id, i) typeName) ∧
      (Expr.path n [⟨member, listed, []⟩] text).evaluate.exec run start =
        if (run.poll start).1 then (.error .cancelled, (run.poll start).2)
        else (.ok (.object D), t) := by
  let p : PathSite := ⟨n, text, fun _ => [Step.text ⟨member, listed, []⟩]⟩
  obtain ⟨handle, hstep⟩ := @exec_step_first run (run.poll start).2 member p root (.object D)
    hmember listed [] hmode (by rw [run.memo_poll]; exact hmemo)
  let read := memberState run start n root.contents.typeName handle
  have hresolve : (p.resolve [⟨member, listed, []⟩]).exec run (run.poll start).2 =
      (.ok (.object D), read) := exec_resolve_step hcontext hstep
  refine ⟨if run.traced then { read with recorded := (n, .object D) :: read.recorded } else read,
    ?_, fun id i typeName hid => ?_, ?_⟩
  · split <;> rfl
  · have hread := @get?_memberState run start n root.contents.typeName handle id hid i typeName
    split <;> exact hread
  · refine (Eval.exec_recorded run start n (p.resolve [⟨member, listed, []⟩])).trans ?_
    rw [Eval.exec_bind, Eval.exec_poll]
    cases (run.poll start).1 with
    | true => rfl
    | false =>
      simp only [Bool.false_eq_true, if_false]
      rw [hresolve]

include ho

/-- `Contains` reads the dictionary, then the value, and looks up what is left of this. -/
theorem outcome_contains (hmode : run.mode ≠ .validation) :
    ∃ t : EvalState, t.host = (run.poll start).2.host ∧
      (∀ id i typeName, id ≠ n →
        t.memo.get? (id, i) typeName = start.memo.get? (id, i) typeName) ∧
      ((Plan.contains.run [⟨(Expr.path n [⟨member, listed, []⟩] text).evaluate, source⟩,
        ⟨needle, source'⟩]).exec run start).1 =
          if (run.poll start).1 then .error .cancelled
          else (needle.exec run t).1.map fun k =>
            .boolean (d.get? (Plan.trimmed run.scope.trimStart k)).isSome := by
  obtain ⟨t, hhost, hmemos, hread⟩ := exec_path_member text listed hcontext hmember hmemo hmode
  refine ⟨t, hhost, hmemos, ?_⟩
  rw [exec_contains, Eval.exec_bind]
  dsimp only
  rw [hread]
  cases (run.poll start).1 with
  | true => rfl
  | false =>
    simp only [Bool.false_eq_true, if_false]
    rw [Eval.exec_bind]
    rcases needle.exec run t with ⟨e | k, u⟩
    · rfl
    · simp only [Eval.exec_pure, isIn_dictionary ho]
      rfl

end

/-! ## The key in both -/

section
variable {run : Run} {start t : EvalState} {n : Nat} {typeName : String} {handle : Handle}
  {key : Expr} {k : Value} (hgo : (run.poll start).1 = false)
  (hkey : key.evaluate.exec run (memberState run start n typeName handle) = (.ok k, t))
include hgo hkey

/-- A key has its value by itself too, where fewer polls were made. -/
theorem exec_key_alone (hnumbers : ∀ id steps text, .path id steps text ∈ key.nodes → id ≠ n) :
    ∃ t', key.evaluate.exec run start = (.ok k, t') := by
  have hrepeats := Expr.repeats_renumber Function.injective_id Function.injective_id run
    (start.host.due ≠ none) key hnumbers
  rw [Expr.renumber_id] at hrepeats
  have hstates : (Coupling.renumbering id id (· ≠ n) run (start.host.due ≠ none)).states
      (memberState run start n typeName handle) start := by
    have hsooner := run.isSooner_poll hgo
    refine ⟨hsooner, hsooner.due_ne_none, fun id hid i typeName' => ?_⟩
    exact get?_memberState hid i typeName'
  exact hrepeats.ok_of_first hstates hkey

/-- A key has its value in the test, unless this is stopped, since one more poll is made there. -/
theorem outcome_contains_key {f : Nat → Nat} {n' : Nat} {listed : Bool} {text member : String}
    {root D : Object Value} {d : Dictionary Value} {source source' : Unit → String}
    (hmemo : start.memo = []) (hmode : run.mode ≠ .validation)
    (hcontext : run.scope.context = some (.object root))
    (hmember : root.contents.get? member = some (.object D)) (ho : D.contents = .dictionary d)
    (hf : f.Injective)
    (hnumbers : ∀ id steps text, .path id steps text ∈ key.nodes → id ≠ n ∧ f id ≠ n') :
    let outcome := ((Plan.contains.run
      [⟨(Expr.path n' [⟨member, listed, []⟩] text).evaluate, source⟩,
        ⟨(key.renumber f).evaluate, source'⟩]).exec run (run.poll start).2).1
    outcome = .error .cancelled ∧ run.token ≠ none ∧ start.host.due ≠ none ∨
      outcome = .ok (.boolean (d.get? (Plan.trimmed run.scope.trimStart k)).isSome) := by
  intro outcome
  have hnone : ∀ step typeName', (run.poll start).2.memo.get? step typeName' = none := by
    intro step typeName'
    rw [run.memo_poll, hmemo]
    rfl
  obtain ⟨u, hhost, hmemos, houtcome⟩ := outcome_contains text listed
    (key.renumber f).evaluate source source' hcontext hmember ho
    (hnone (n', 0) root.contents.typeName) hmode
  cases hstop : (run.poll (run.poll start).2).1 with
  | true =>
    rw [hstop] at houtcome
    exact .inl ⟨houtcome, run.isDue_of_poll_poll hgo hstop⟩
  | false =>
    rw [hstop, if_neg Bool.false_ne_true] at houtcome
    have hsooner : u.host.IsSooner (run.poll start).2.host := by
      rw [hhost]
      exact run.isSooner_poll hstop
    have hdue : u.host.due ≠ none → start.host.due ≠ none := fun h =>
      (run.isSooner_poll hgo).due_ne_none (hsooner.due_ne_none h)
    have hrepeats := Expr.repeats_renumber hf Function.injective_id run (start.host.due ≠ none) key
      hnumbers
    rw [Expr.renumber_id] at hrepeats
    have hstates : (Coupling.renumbering f id (fun id => id ≠ n ∧ f id ≠ n') run
        (start.host.due ≠ none)).states u (memberState run start n typeName handle) := by
      refine ⟨hsooner, hdue, fun id hid i typeName' => ?_⟩
      rw [hmemos _ _ _ hid.2, run.memo_poll, id_eq, get?_memberState hid.1, hmemo]
      rfl
    rcases hrepeats.ok_of_second hstates hkey with ⟨s', hx⟩ | ⟨_, s', hx, rfl, hstopped⟩
    · rw [show (key.renumber f).evaluate.exec run u = (.ok k, s') from hx] at houtcome
      exact .inr houtcome
    · rw [show (key.renumber f).evaluate.exec run u = (.error .cancelled, s') from hx] at houtcome
      exact .inl ⟨houtcome, hstopped⟩

end

/-! ## Both -/

namespace Engine

/-- Where a strict path `member(key)` takes an item of a dictionary, its key has a value, and the
item is that under this value converted to the kind of the keys.  `Contains(member, key)`, unless it
is stopped from outside in between, says whether the dictionary has the value itself as a key, less
the characters that are taken off a text.  So it is true if that is the same key as the converted
one, as it is where the value has the kind of the keys and nothing is taken off.  The key may have
other numbers in the test; its paths do not share one with the path that leads to the dictionary, as
in a tree that was read no two nodes do. -/
theorem contains_of_resolved (e : Engine) (o : EvaluateOptions) (key : Expr) {f : Nat → Nat}
    (m n n' : Nat) (listed listed' : Bool) (text text' : String) {member : String}
    {root D : Object Value} {d : Dictionary Value} (hstrict : o.strict = true)
    (hcontext : e.context = some (.object root))
    (hmember : root.contents.get? member = some (.object D)) (ho : D.contents = .dictionary d)
    (hf : f.Injective)
    (hnumbers : ∀ id steps text, .path id steps text ∈ key.nodes → id ≠ n ∧ f id ≠ n') :
    let ofKey := ((evaluateTree ⟨key, []⟩ o).run e).1.1
    let ofPath := ((evaluateTree ⟨.path n [⟨member, listed, [key]⟩] text, []⟩ o).run e).1.1
    let ofContains := ((evaluateTree ⟨.call m Builtin.contains.definition
      [.path n' [⟨member, listed', []⟩] text', key.renumber f], []⟩ o).run e).1.1
    ∀ v, ofPath = .ok v → ∃ k k', ofKey = .ok k ∧ d.Finds k k' v ∧
      let needle := Plan.trimmed e.options.trimStart k
      (ofContains = .error .cancelled ∧ o.token ≠ none ∧ e.host.due ≠ none ∨
        ofContains = .ok (.boolean (d.get? needle).isSome)) ∧
      (k'.sameKey needle = true ∨ d.keyKind? = some k.kind ∧ needle = k →
        (d.get? needle).isSome = true) := by
  intro ofKey ofPath ofContains v hv
  let run := e.runOf o
  let start : EvalState := ⟨[], [], e.host⟩
  let site : PathSite := ⟨n, text, fun _ => [Step.text ⟨member, listed, [key]⟩]⟩
  have hmode : run.mode = .strict := by
    show o.mode = .strict
    rw [EvaluateOptions.mode, hstrict]
    rfl
  have hpath : ofPath = ((Eval.poll >>= fun _ =>
      site.resolve [⟨member, listed, [key.evaluate]⟩]).exec run start).1 :=
    (run_result e _ o o.mode).trans (Eval.outcome_recorded _ _ n _)
  rw [hpath, Eval.outcome_polled] at hv
  have hgo : (run.poll start).1 = false := by
    cases hstop : (run.poll start).1 with
    | false => rfl
    | true => rw [hstop] at hv; cases hv
  rw [hgo, if_neg Bool.false_ne_true] at hv
  obtain ⟨handle, k, t, hkey, hitem⟩ := key_of_resolve text listed hcontext hmember rfl hmode hv
  obtain ⟨k', hfinds⟩ := finds_of_item ho hmode hitem
  obtain ⟨t', halone⟩ := exec_key_alone hgo hkey
    fun id steps text h => (hnumbers id steps text h).1
  have hcontains : ofContains =
      ((Plan.contains.run (Expr.arguments [.path n' [⟨member, listed', []⟩] text',
        key.renumber f])).exec run (run.poll start).2).1 := by
    refine (run_result e _ o o.mode).trans ((Eval.outcome_recorded _ _ m _).trans ?_)
    rw [Eval.outcome_polled]
    show (if (run.poll start).1 = true then _ else _) = _
    rw [hgo]
    rfl
  refine ⟨k, k', (run_result e _ o o.mode).trans (congrArg Prod.fst halone), hfinds, ?_,
    hfinds.isSome_get?⟩
  rw [hcontains]
  exact outcome_contains_key hgo hkey rfl (by rw [hmode]; decide) hcontext
    hmember ho hf hnumbers

/-- An engine with a dictionary of prices in its data, in which `Contains` takes zeros off the start
of a text. -/
def withPrices (prices : Dictionary Value) : Engine :=
  { context := some (.object ⟨0, .record ⟨"Plan",
      [⟨"Prices", .object ⟨1, .dictionary prices⟩, none⟩]⟩⟩)
    options := { trimStart := ['0'] } }

/-- What `Prices("key")` gives there. -/
def priceOf (prices : Dictionary Value) (key : String) : Outcome Value :=
  ((evaluateTree ⟨.path 0 [⟨"Prices", true, [.literal (.text key)]⟩] "Prices", []⟩).run
    (withPrices prices)).1.1

/-- What `Contains(Prices, "key")` gives there. -/
def hasPrice (prices : Dictionary Value) (key : String) : Outcome Value :=
  ((evaluateTree ⟨.call 0 Builtin.contains.definition
    [.path 1 [⟨"Prices", false, []⟩] "Prices", .literal (.text key)], []⟩).run
      (withPrices prices)).1.1

/-- Prices under the texts `04` and `1`. -/
def pricesByText : Dictionary Value :=
  { entries := [(.text "04", .number 5), (.text "1", .number 7)] }

/-- There is a price under `1`, and `Contains` finds it.  There is one under `04` too, but
`Contains` looks for `4`. -/
theorem contains_of_resolved_prices :
    priceOf pricesByText "1" = .ok (.number 7) ∧ hasPrice pricesByText "1" = .ok (.boolean true) ∧
      priceOf pricesByText "04" = .ok (.number 5) ∧
      hasPrice pricesByText "04" = .ok (.boolean false) := by
  have hmember : ∀ root, (withPrices pricesByText).context = some (.object root) →
      root.contents.get? "Prices" = some (.object ⟨1, .dictionary pricesByText⟩) := by
    rintro _ ⟨⟩
    rfl
  have htest : ∀ key v, priceOf pricesByText key = .ok v → hasPrice pricesByText key =
      .ok (.boolean (pricesByText.get? (Plan.trimmed ['0'] (.text key))).isSome) := by
    intro key v hv
    obtain ⟨k, k', hk, -, htest, -⟩ := contains_of_resolved (withPrices pricesByText) {}
      (.literal (.text key)) 0 0 1 true false "Prices" "Prices" rfl rfl (hmember _ rfl) rfl
      Function.injective_id (fun id steps text h => by simp [Expr.nodes] at h) v hv
    rw [Expr.renumber_id] at htest
    obtain rfl : .text key = k := Except.ok.inj hk
    rcases htest with ⟨-, htoken, -⟩ | hcontains
    · exact absurd rfl htoken
    · exact hcontains
  have hone : priceOf pricesByText "1" = .ok (.number 7) := rfl
  have hfour : priceOf pricesByText "04" = .ok (.number 5) := rfl
  exact ⟨hone, htest _ _ hone, hfour, htest _ _ hfour⟩

/-- A path converts the text `1` to a number where the keys are numbers, and finds the price under
it.  `Contains` looks for the text. -/
theorem contains_unlike_resolved :
    let prices : Dictionary Value := { entries := [(.number 1, .number 7)] }
    priceOf prices "1" = .ok (.number 7) ∧ hasPrice prices "1" = .ok (.boolean false) :=
  ⟨rfl, rfl⟩

end Engine

end Formula
