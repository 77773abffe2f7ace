import Formula.Trace
import Mathlib.Data.List.Induction
import Mathlib.Data.String.Basic

/-!
# Listed values

A trace lists the values that were recorded for the variables and paths of an expression, each text
once.  What is listed under a text is the last value that was recorded for it and is not absent
(`collect_keeps_last`).
-/

namespace Formula.Trace

variable {key k known : String} {v w old : Value} {bindings rest : List (String × Value)}
  {recorded : Recorded}

/-! ## Adding a value -/

/-- What is listed when a value comes to what was listed before: an absent value does not replace
another. -/
def renewed (old : Option Value) (v : Value) : Value :=
  match old with
  | some old => if v.isEmpty && !old.isEmpty then old else v
  | none => v

theorem put_cons_of_lt (h : key < known) :
    put key v ((known, old) :: rest) = (key, v) :: (known, old) :: rest := if_pos h

theorem put_cons_self :
    put key v ((key, old) :: rest) = (key, renewed (some old) v) :: rest := by
  rw [put, if_neg (lt_irrefl key), if_pos rfl, renewed]

theorem put_cons_of_gt (h : known < key) :
    put key v ((known, old) :: rest) = (known, old) :: put key v rest := by
  rw [put, if_neg h.not_gt, if_neg h.ne']

/-- What is listed after a value was added is that value or was listed before. -/
theorem mem_of_mem_put (h : (k, w) ∈ put key v bindings) : k = key ∧ w = v ∨ (k, w) ∈ bindings := by
  induction bindings with
  | nil =>
    cases List.mem_singleton.mp h
    exact .inl ⟨rfl, rfl⟩
  | cons entry rest ih =>
    obtain ⟨known, old⟩ := entry
    rw [put] at h
    split at h
    · rcases List.mem_cons.mp h with hself | h
      · cases hself
        exact .inl ⟨rfl, rfl⟩
      · exact .inr h
    split at h
    · next hkey =>
      rcases List.mem_cons.mp h with hself | h
      · cases hself
        split
        · exact .inr List.mem_cons_self
        · exact .inl ⟨hkey.symm, rfl⟩
      · exact .inr (List.mem_cons_of_mem _ h)
    · rcases List.mem_cons.mp h with hself | h
      · cases hself
        exact .inr List.mem_cons_self
      · exact (ih h).imp_right (List.mem_cons_of_mem _)

/-- Whether values are listed in the order of their texts, each text once. -/
abbrev Sorted (bindings : List (String × Value)) : Prop := bindings.Pairwise fun a b => a.1 < b.1

/-- Adding a value puts its text in its place, so the list stays in order. -/
theorem sorted_put (h : Sorted bindings) : Sorted (put key v bindings) := by
  induction bindings with
  | nil => exact List.pairwise_singleton ..
  | cons entry rest ih =>
    obtain ⟨known, old⟩ := entry
    obtain ⟨hknown, hrest⟩ := List.pairwise_cons.mp h
    rcases lt_trichotomy key known with hlt | rfl | hgt
    · rw [put_cons_of_lt hlt]
      refine List.pairwise_cons.mpr ⟨List.forall_mem_cons.mpr ⟨hlt, fun entry hentry => ?_⟩, h⟩
      exact hlt.trans (hknown entry hentry)
    · rw [put_cons_self]
      exact List.pairwise_cons.mpr ⟨hknown, hrest⟩
    · rw [put_cons_of_gt hgt]
      refine List.pairwise_cons.mpr ⟨fun entry hentry => ?_, ih hrest⟩
      rcases mem_of_mem_put hentry with ⟨hkey, -⟩ | hentry
      · exact hkey ▸ hgt
      · exact hknown entry hentry

/-- Looking up a text compares it with the first one that is listed and goes on behind that. -/
theorem lookup_cons_eq : ((known, old) :: rest).lookup k =
    if k = known then some old else rest.lookup k := by
  rw [List.lookup_cons]
  by_cases hk : k = known
  · rw [if_pos hk, hk, BEq.rfl]
  · rw [if_neg hk, beq_false_of_ne hk]

theorem lookup_eq_none_of_lt (h : ∀ entry ∈ bindings, key < entry.1) :
    bindings.lookup key = none := by
  rw [List.lookup_eq_none_iff]
  exact fun entry hentry => bne_iff_ne.mpr (h entry hentry).ne

/-- What is listed under the text of the value that was added is renewed, and nothing else
changes. -/
theorem lookup_put (h : Sorted bindings) : (put key v bindings).lookup k =
    if k = key then some (renewed (bindings.lookup key) v) else bindings.lookup k := by
  induction bindings with
  | nil => exact lookup_cons_eq
  | cons entry rest ih =>
    obtain ⟨known, old⟩ := entry
    obtain ⟨hknown, hrest⟩ := List.pairwise_cons.mp h
    rcases lt_trichotomy key known with hlt | rfl | hgt
    · -- All texts that are listed come behind the new one.
      have hnone : ((known, old) :: rest).lookup key = none := by
        refine lookup_eq_none_of_lt (List.forall_mem_cons.mpr ⟨hlt, fun entry hentry => ?_⟩)
        exact hlt.trans (hknown entry hentry)
      rw [put_cons_of_lt hlt, lookup_cons_eq, hnone, renewed]
    · rw [put_cons_self, lookup_cons_eq, lookup_cons_eq, lookup_cons_eq, if_pos rfl]
      by_cases hk : k = key
      · rw [if_pos hk, if_pos hk]
      · rw [if_neg hk, if_neg hk, if_neg hk]
    · rw [put_cons_of_gt hgt, lookup_cons_eq, lookup_cons_eq, lookup_cons_eq, if_neg hgt.ne',
        ih hrest]
      by_cases hk : k = known
      · rw [if_pos hk, if_pos hk, if_neg fun hkey => hgt.ne (hk.symm.trans hkey)]
      · rw [if_neg hk, if_neg hk]

/-! ## Adding the values of nodes -/

/-- The value that was recorded for a node, if it is a path with some text or a variable of that
name. -/
def recordedUnder (recorded : Recorded) (key : String) : Expr → Option Value
  | .path id _ text => if text = key then recorded.lookup id else none
  | .var id name _ => if name = key then recorded.lookup id else none
  | _ => none

theorem recordedUnder_eq {node : Expr} : recordedUnder recorded key node =
    (keyOf? node).bind fun (k, id) => if k = key then recorded.lookup id else none := by
  cases node <;> rfl

/-- A node whose value was recorded adds it; any other leaves the list as it is. -/
theorem sorted_putNode (h : Sorted bindings) (node : Expr) :
    Sorted (putNode recorded bindings node) := by
  rw [putNode]
  split
  · split
    · exact sorted_put h
    · exact h
  · exact h

/-- What is listed under a text changes with the value that was recorded for it, if any. -/
theorem lookup_putNode (h : Sorted bindings) (node : Expr) :
    (putNode recorded bindings node).lookup key =
      match recordedUnder recorded key node with
      | some v => some (renewed (bindings.lookup key) v)
      | none => bindings.lookup key := by
  rw [putNode, recordedUnder_eq]
  cases hkey : keyOf? node with
  | none => rfl
  | some found =>
    obtain ⟨k, id⟩ := found
    rw [Option.bind_some]
    dsimp only
    cases recorded.lookup id with
    | none => rw [ite_self]
    | some v =>
      dsimp only
      rw [lookup_put h]
      by_cases hk : key = k
      · rw [if_pos hk, if_pos hk.symm, hk]
      · rw [if_neg hk, if_neg (Ne.symm hk)]

/-- What is listed under a text when values come one after another. -/
def listed (old : Option Value) (values : List Value) : Option Value :=
  values.foldl (fun old v => some (renewed old v)) old

/-- When nodes come one after another, what is listed under a text is what the values that were
recorded for its nodes make of it, by induction on the nodes. -/
theorem lookup_foldl_putNode (nodes : List Expr) (h : Sorted bindings) :
    Sorted (nodes.foldl (putNode recorded) bindings) ∧
      (nodes.foldl (putNode recorded) bindings).lookup key =
        listed (bindings.lookup key) (nodes.filterMap (recordedUnder recorded key)) := by
  induction nodes generalizing bindings with
  | nil => exact ⟨h, rfl⟩
  | cons node nodes ih =>
    obtain ⟨hsorted, hlookup⟩ := ih (sorted_putNode h node)
    refine ⟨hsorted, ?_⟩
    rw [List.foldl_cons, hlookup, lookup_putNode h, List.filterMap_cons]
    cases recordedUnder recorded key node <;> rfl

/-! ## The value that is kept -/

/-- The last of some values that is not absent, or an absent value if all are. -/
def lastPresent (values : List Value) : Value :=
  ((values.filter fun v => !v.isEmpty).getLast?).getD .empty

/-- Only the absent value is empty. -/
theorem eq_empty_of_isEmpty (h : v.isEmpty = true) : v = .empty := by
  cases v with
  | empty => rfl
  | _ => cases h

/-- A value that comes last is the last one present, unless it is absent. -/
theorem lastPresent_concat (values : List Value) (v : Value) :
    lastPresent (values ++ [v]) = if v.isEmpty then lastPresent values else v := by
  rw [lastPresent, List.filter_append]
  cases hv : v.isEmpty with
  | true => simp [hv, lastPresent]
  | false => simp [hv]

/-- Renewing the last value present with another one gives the last value present of them all. -/
theorem renewed_lastPresent (values : List Value) (v : Value) :
    renewed (some (lastPresent values)) v = lastPresent (values ++ [v]) := by
  rw [renewed, lastPresent_concat]
  cases hv : v.isEmpty with
  | false => rfl
  | true =>
    cases hlast : (lastPresent values).isEmpty with
    | false => rfl
    | true => exact (eq_empty_of_isEmpty hv).trans (eq_empty_of_isEmpty hlast).symm

/-- Of values that come one after another the last one that is not absent stays. -/
theorem listed_none (values : List Value) :
    listed none values = if values.isEmpty then none else some (lastPresent values) := by
  induction values using List.reverseRecOn with
  | nil => rfl
  | append_singleton values v ih =>
    have hne : (values ++ [v]).isEmpty = false := by simp
    have hstep : listed none (values ++ [v]) = some (renewed (listed none values) v) :=
      List.foldl_concat ..
    rw [hstep, hne, ih]
    cases values with
    | nil =>
      show some v = some (lastPresent ([] ++ [v]))
      rw [lastPresent_concat]
      cases hv : v.isEmpty with
      | false => rfl
      | true => exact congrArg some (eq_empty_of_isEmpty hv)
    | cons => exact congrArg some (renewed_lastPresent _ v)

/-- In a list in order, each text has the one value that is found under it. -/
theorem mem_iff_lookup (h : Sorted bindings) :
    (key, v) ∈ bindings ↔ bindings.lookup key = some v := by
  induction bindings with
  | nil => simp
  | cons entry rest ih =>
    obtain ⟨known, old⟩ := entry
    obtain ⟨hknown, hrest⟩ := List.pairwise_cons.mp h
    rw [List.mem_cons, lookup_cons_eq, ih hrest]
    by_cases hk : key = known
    · subst hk
      rw [if_pos rfl, lookup_eq_none_of_lt hknown]
      simp [eq_comm]
    · rw [if_neg hk]
      simp [hk]

/-- The values of a trace are listed in the order of their texts, each text once.  A value is listed
under a text if and only if some path with that text or some variable of that name has a value
recorded for it, and then it is the last of all values recorded for such nodes, as they stand in the
expression, that is not absent; if all of them are absent, an absent value is listed. -/
theorem collect_keeps_last (e : Expr) (recorded : Recorded) :
    Sorted (collect e recorded) ∧ ∀ key v, (key, v) ∈ collect e recorded ↔
      (∃ node ∈ e.nodes, (recordedUnder recorded key node).isSome) ∧
        v = lastPresent (e.nodes.filterMap (recordedUnder recorded key)) := by
  have hcollect : ∀ key, Sorted (collect e recorded) ∧ (collect e recorded).lookup key =
      listed none (e.nodes.filterMap (recordedUnder recorded key)) :=
    fun key => lookup_foldl_putNode e.nodes .nil
  refine ⟨(hcollect "").1, fun key v => ?_⟩
  obtain ⟨hsorted, hlookup⟩ := hcollect key
  have hsome : (e.nodes.filterMap (recordedUnder recorded key)).isEmpty = false ↔
      ∃ node ∈ e.nodes, (recordedUnder recorded key node).isSome := by
    simp [Option.isSome_iff_ne_none]
  rw [mem_iff_lookup hsorted, hlookup, listed_none, ← hsome]
  cases (e.nodes.filterMap (recordedUnder recorded key)).isEmpty with
  | true => simp
  | false => simp [eq_comm]

example : collect (.binary .and (.var 0 "x" []) (.var 1 "x" [.path 2 [⟨"y", false, []⟩] "y"]))
    [(1, .empty), (2, .empty), (0, .boolean true)] = [("x", .boolean true), ("y", .empty)] := by
  cbv

end Formula.Trace
