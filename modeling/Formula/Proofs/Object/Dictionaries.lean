import Formula.Object.Access
import Formula.Proofs.Object.Keyed
import Formula.Proofs.Value.Keys

/-!
# Dictionaries after any insertions

An insertion sets the value under a key, and under the keys that are the same: a key that is there
already stays in its place and as it is (`get?_insert`).  So after any insertions a dictionary has
each key once, as and where it was first inserted, with the value that was inserted under it last
(`holds_inserts`).  Decimals are compared by their floats, so two that are not equal can be one key
(`get?_insert_decimals`).
-/

namespace Formula.Dictionary

variable (d : Dictionary Value) (key value : Value)

/-- A dictionary that entries were inserted into from the start on. -/
def ofInserts (typeName : String) (declaredKind : Option Kind) (placeholder : Option Value)
    (ws : List (Value × Value)) : Dictionary Value :=
  ws.foldl (fun d w => d.insert w.1 w.2) { typeName, declaredKind, placeholder }

/-- The value that is inserted last under a key or one that is the same. -/
def lastInserted? (key : Value) (ws : List (Value × Value)) : Option Value :=
  ((ws.filter fun w => w.1.sameKey key).map (·.2)).getLast?

theorem sameKey_sameKeys : SameKeys Value.sameKey where
  comm := Value.sameKey_comm
  trans := Value.sameKey_trans

/-! ## One insertion -/

/-- Replacing the value of a key changes the first entry with such a key. -/
theorem replace?_eq (entries : List (Value × Value)) : replace? key value entries =
    modifyFirst? (fun e => e.1.sameKey key) (fun e => (e.1, value)) entries := by
  induction entries with
  | nil => rfl
  | cons e entries ih => rw [replace?, modifyFirst?, ih]

theorem entries_insert : (d.insert key value).entries =
    upsert (·.1) Value.sameKey key (fun e => (e.1, value)) (key, value) d.entries := by
  rw [insert, replace?_eq, upsert]
  cases modifyFirst? (fun e => e.1.sameKey key) (fun e => (e.1, value)) d.entries <;> rfl

/-- An insertion is seen under the keys that are the same, and under no other. -/
theorem get?_insert (other : Value) : (d.insert key value).get? other =
    if key.sameKey other then some value else d.get? other := by
  have hfind := find?_upsert sameKey_sameKeys (fun e : Value × Value => (e.1, value))
    (rfl : (key, value).1 = key) (fun _ => rfl) d.entries other
  rw [get?, entries_insert, hfind]
  split
  · cases d.entries.find? fun e => e.1.sameKey other <;> rfl
  · rfl

/-- A key that is not there yet is added at the end. -/
theorem keys_insert : (d.insert key value).keys =
    if d.keys.any (·.sameKey key) then d.keys else d.keys ++ [key] := by
  rw [keys, entries_insert]
  exact map_upsert (fun e : Value × Value => (e.1, value)) rfl fun _ => rfl

/-! ## Any insertions -/

section
variable (typeName : String) (declaredKind : Option Kind) (placeholder : Option Value)
  (ws : List (Value × Value))

/-- The keys are those that were inserted, each where and as it was first. -/
theorem keys_ofInserts : (ofInserts typeName declaredKind placeholder ws).keys =
    firstOfEach Value.sameKey (ws.map (·.1)) :=
  keys_foldl sameKey_sameKeys (fun d w => keys_insert d w.1 w.2) rfl ws

/-- Under a key there is the value that was inserted last under one that is the same. -/
theorem get?_ofInserts : (ofInserts typeName declaredKind placeholder ws).get? key =
    lastInserted? key ws := by
  rw [lastInserted?, ← List.filterMap_eq_map']
  refine found_foldl (fun d : Dictionary Value => d.get? key) (fun w => w.1.sameKey key)
    (fun w => some w.2) (fun d w => ?_) ?_ ws
  · rw [get?_insert]
    split <;> rfl
  · rfl

end

/-- The values are those under the keys, if no two keys are the same and each is to itself. -/
theorem map_get?_keys (hpairwise : d.keys.Pairwise fun a b => a.sameKey b = false)
    (hself : ∀ k ∈ d.keys, k.sameKey k = true) : d.keys.map d.get? = d.values.map some := by
  rw [keys, values, List.map_map, List.map_map]
  refine List.map_congr_left fun e he => ?_
  have hfind := find?_key_eq he (hself e.1 (List.mem_map_of_mem he)) hpairwise
  show (d.entries.find? fun e' => e'.1.sameKey e.1).map (·.2) = some e.2
  rw [hfind]
  rfl

/-- The members that every dictionary has, under any spelling of their names. -/
theorem get?_member (name : String) :
    (Contents.dictionary d).get? name = d.member? (Text.lowercase name) := by
  show ((d.member? (Text.lowercase name)).map fun _ => Handle.named (Text.lowercase name)).bind
    (Contents.dictionary d).member? = _
  cases hmember : d.member? (Text.lowercase name) with
  | none => rfl
  | some v => exact hmember

/-- Being the same key is an equivalence of the keys in which everything that is a number by its
kind is one: those are the keys that are the same as themselves.  After insertions under such keys a
dictionary holds the inserted keys once each, in the order in which they were first inserted and as
they were then.  Under a key, or one that is the same, there is the value that was inserted last;
the size, the keys, the values and the three members tell the same, and a further insertion changes
nothing under keys that are not the same. -/
theorem holds_inserts (typeName : String) (declaredKind : Option Kind)
    (placeholder : Option Value) (ws : List (Value × Value))
    (hself : ∀ w ∈ ws, w.1.sameKey w.1 = true) :
    let d := ofInserts typeName declaredKind placeholder ws
    (∀ k : Value, k.sameKey k = !k.hasNaN) ∧
      Equivalence (fun a b : { k : Value // k.sameKey k = true } => a.1.sameKey b.1 = true) ∧
      d.keys = firstOfEach Value.sameKey (ws.map (·.1)) ∧
      d.keys.Pairwise (fun a b => a.sameKey b = false) ∧
      (∀ k, d.get? k = lastInserted? k ws) ∧
      d.size = d.keys.length ∧
      d.keys.map d.get? = d.values.map some ∧
      (∀ name, (Contents.dictionary d).get? name =
        if Text.lowercase name = "count" then some (.ofNat d.keys.length)
        else if Text.lowercase name = "keys" then some (.array d.keys)
        else if Text.lowercase name = "values" then some (.array d.values)
        else none) ∧
      ∀ k v k', k.sameKey k' = false → (d.insert k v).get? k' = d.get? k' := by
  intro d
  have hkeys := keys_ofInserts typeName declaredKind placeholder ws
  have hpairwise : d.keys.Pairwise fun a b => a.sameKey b = false :=
    hkeys ▸ pairwise_firstOfEach _
  have hselfKeys : ∀ k ∈ d.keys, k.sameKey k = true := by
    intro k hk
    rw [hkeys] at hk
    obtain ⟨w, hw, rfl⟩ := List.mem_map.mp (mem_of_mem_firstOfEach hk)
    exact hself w hw
  have hsize : d.size = d.keys.length := (List.length_map _).symm
  refine ⟨Value.sameKey_self, ?_, hkeys, hpairwise,
    fun k => get?_ofInserts k typeName declaredKind placeholder ws, hsize,
    map_get?_keys d hpairwise hselfKeys, fun name => ?_, fun k v k' hne => ?_⟩
  · exact
      { refl := fun k => k.2
        symm := fun {a b} h => Value.sameKey_comm b.1 a.1 ▸ h
        trans := Value.sameKey_trans }
  · rw [get?_member, member?, hsize]
  · rw [get?_insert, hne]
    rfl

/-- A decimal and a number are one key, which stays a number, and so are two arrays with zeros of
different signs. -/
theorem holds_inserts_mixed :
    let one : Decimal := ⟨false, 10, 1, by decide, by decide⟩
    let ws : List (Value × Value) :=
      [(.number 1, .text "a"), (.array [.number 0], .text "b"), (.decimal one, .text "c"),
        (.array [.number (-0)], .empty)]
    let d := ofInserts "Dictionary" none none ws
    (∀ w ∈ ws, w.1.sameKey w.1 = true) ∧
      d.keys = firstOfEach Value.sameKey (ws.map (·.1)) ∧
      d.keys.map Value.kind = [.number, .array] ∧
      d.get? (.decimal .one) = lastInserted? (.decimal .one) ws ∧
      (d.get? (.decimal .one)).map Value.toText = some "c" := by
  intro one ws d
  have hself : ∀ w ∈ ws, w.1.sameKey w.1 = true := by decide +kernel
  obtain ⟨-, -, hkeys, -, hget, -⟩ := holds_inserts "Dictionary" none none ws hself
  have hkinds : d.keys.map Value.kind = [.number, .array] := by decide +kernel
  have hlast : (d.get? (.decimal .one)).map Value.toText = some "c" := by decide +kernel
  exact ⟨hself, hkeys, hkinds, hget _, hlast⟩

/-! ## Decimal keys -/

/-- Of two decimals that are not equal in the language, the second has the value that was inserted
under it.  The first has its own if the floats of the two differ, as those of whole numbers of at
most 53 bits do; otherwise the two are one key, and it has the value of the second. -/
theorem get?_insert_decimals (a b : Decimal) (v w : Value) (hne : a.equal b = false) :
    let d' := (d.insert (.decimal a) v).insert (.decimal b) w
    Value.applyBinary .equal (.decimal a) (.decimal b) = .ok (.boolean false) ∧
      d'.get? (.decimal b) = some w ∧
      d'.get? (.decimal a) = some (if a.toFloat == b.toFloat then w else v) ∧
      (a.scale = 0 ∧ a.coefficient < 2 ^ 53 → b.scale = 0 ∧ b.coefficient < 2 ^ 53 →
        d'.get? (.decimal a) = some v) := by
  intro d'
  have hself : ∀ k : Decimal, (Value.decimal k).sameKey (.decimal k) = true := fun k =>
    (Value.sameKey_self _).trans rfl
  have hfirst : d'.get? (.decimal a) = some (if a.toFloat == b.toFloat then w else v) := by
    have hkeys : (Value.decimal b).sameKey (.decimal a) = (a.toFloat == b.toFloat) :=
      Number.beq_comm b.toFloat a.toFloat
    rw [get?_insert, get?_insert, hkeys, hself, if_pos rfl]
    split <;> rfl
  refine ⟨?_, ?_, hfirst, fun ha hb => ?_⟩
  · have hequal : Value.equal (.decimal a) (.decimal b) = false := hne
    exact congrArg (fun e => Except.ok (Value.boolean e)) hequal
  · rw [get?_insert, hself, if_pos rfl]
  · have hfloats : (a.toFloat == b.toFloat) = false := by
      rw [Bool.eq_false_iff]
      intro h
      rw [Decimal.equal_of_beq_toFloat ha hb h] at hne
      cases hne
    rw [hfirst, hfloats]
    rfl

/-- Two whole numbers that need 54 bits have one float: the value of the first is lost. -/
theorem get?_insert_decimals_merged :
    let a : Decimal := ⟨false, 9007199254740993, 0, by decide, by decide⟩
    let b : Decimal := ⟨false, 9007199254740992, 0, by decide, by decide⟩
    let d' := (insert {} (.decimal a) (.text "a")).insert (.decimal b) (.text "b")
    a.equal b = false ∧
      Value.applyBinary .equal (.decimal a) (.decimal b) = .ok (.boolean false) ∧
      (a.toFloat == b.toFloat) = true ∧ d'.get? (.decimal a) = some (.text "b") := by
  intro a b d'
  have hne : a.equal b = false := by decide +kernel
  have hfloats : (a.toFloat == b.toFloat) = true := by decide +kernel
  obtain ⟨hequal, -, hfirst, -⟩ := get?_insert_decimals {} a b (.text "a") (.text "b") hne
  refine ⟨hne, hequal, hfloats, ?_⟩
  rw [hfirst, hfloats]
  rfl

end Formula.Dictionary
