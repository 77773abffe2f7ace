import Formula.Proofs.Evaluation.Handles

/-!
# Records and dictionaries keep what objects promise

The handles of records and dictionaries are names in lower case, whatever the type, so values
without objects of the host fulfil the contract of handles.
-/

namespace Formula

/-- Whether a value holds no object of the host, however deep. -/
inductive Value.HostFree : Value → Prop where
  | atom {v : Value} : v.kind ≠ .array → v.kind ≠ .object → HostFree v
  | array {items : List Value} : (∀ v ∈ items, HostFree v) → HostFree (.array items)
  | record {id : Nat} {r : Record Value} : (∀ m ∈ r.members, HostFree m.value) →
      (∀ m ∈ r.members, ∀ v, m.placeholder = some v → HostFree v) →
      HostFree (.object ⟨id, .record r⟩)
  | dictionary {id : Nat} {d : Dictionary Value} : (∀ entry ∈ d.entries, HostFree entry.1) →
      (∀ entry ∈ d.entries, HostFree entry.2) → (∀ v, d.placeholder = some v → HostFree v) →
      HostFree (.object ⟨id, .dictionary d⟩)

namespace Value.HostFree

variable {o : Object Value} {name : String} {v : Value}

theorem text (s : String) : HostFree (.text s) := .atom (fun h => nomatch h) fun h => nomatch h

theorem number (x : Float) : HostFree (.number x) := .atom (fun h => nomatch h) fun h => nomatch h

/-- The items of an array are free of objects of the host if the array is. -/
theorem of_mem {items : List Value} (h : HostFree (.array items)) : ∀ v ∈ items, HostFree v := by
  cases h with
  | atom harray => exact absurd rfl harray
  | array hitems => exact hitems

/-- So is an item that a dictionary finds under a key. -/
theorem indexed {keys : List Value} (h : HostFree (.object o))
    (hv : o.contents.indexed? keys = some v) : HostFree v := by
  cases h with
  | atom _ hobject => exact absurd rfl hobject
  | record => cases hv
  | dictionary _ hvalues =>
    rcases keys with _ | ⟨key, _ | ⟨key', keys⟩⟩
    · cases hv
    · obtain ⟨entry, hentry, rfl⟩ := Option.map_eq_some_iff.mp hv
      exact hvalues entry (List.mem_of_find?_eq_some hentry)
    · cases hv

/-- So is what stands in for a member of a record. -/
theorem memberPlaceholder {handle : Handle} (h : HostFree (.object o))
    (hv : o.contents.memberPlaceholder? handle = some v) : HostFree v := by
  cases h with
  | atom _ hobject => exact absurd rfl hobject
  | record _ hplaceholders =>
    cases handle with
    | named lower =>
      obtain ⟨m, hm, hv⟩ := Option.bind_eq_some_iff.mp hv
      exact hplaceholders m (List.mem_of_find?_eq_some hm) v hv
    | position => cases hv
  | dictionary => cases hv

/-- So is what stands in for an item of a dictionary. -/
theorem elementPlaceholder (h : HostFree (.object o))
    (hv : o.contents.elementPlaceholder? = some v) : HostFree v := by
  cases h with
  | atom _ hobject => exact absurd rfl hobject
  | record => cases hv
  | dictionary _ _ hplaceholder => exact hplaceholder v hv

/-- The members of a dictionary are its count, its keys and its values. -/
theorem dictionaryMember {d : Dictionary Value} {lower : String}
    (hkeys : ∀ entry ∈ d.entries, HostFree entry.1)
    (hvalues : ∀ entry ∈ d.entries, HostFree entry.2) (hv : d.member? lower = some v) :
    HostFree v := by
  unfold Dictionary.member? at hv
  split at hv
  · cases hv
    exact number _
  split at hv
  · cases hv
    exact .array (List.forall_mem_map.mpr hkeys)
  split at hv
  · cases hv
    exact .array (List.forall_mem_map.mpr hvalues)
  · cases hv

/-- The handle of a member is its name in lower case. -/
theorem findMember?_eq (h : HostFree (.object o)) {handle : Handle}
    (hfound : o.contents.findMember? name = some handle) :
    handle = .named (Text.lowercase name) := by
  cases h with
  | atom _ hobject => exact absurd rfl hobject
  | record | dictionary =>
    obtain ⟨_, _, rfl⟩ := Option.map_eq_some_iff.mp hfound
    rfl

/-- The value under the lower-case name is that of the member, for records and dictionaries. -/
theorem member?_eq_get? (h : HostFree (.object o)) (name : String) :
    o.contents.member? (.named (Text.lowercase name)) = o.contents.get? name := by
  cases h with
  | atom _ hobject => exact absurd rfl hobject
  | @record id r =>
    show (r.find? name).map (·.value) = ((r.find? name).map _).bind _
    rw [Option.bind_map]
    cases hfound : r.find? name with
    | none => rfl
    | some m => exact (congrArg (Option.map (·.value)) hfound).symm
  | @dictionary id d =>
    show d.member? _ = ((d.member? (Text.lowercase name)).map _).bind _
    rw [Option.bind_map]
    cases hfound : d.member? (Text.lowercase name) with
    | none => rfl
    | some v => exact hfound.symm

/-- The members of a record or a dictionary are free of objects of the host if it is. -/
theorem member (h : HostFree (.object o)) (hv : o.contents.get? name = some v) : HostFree v := by
  rw [← member?_eq_get? h] at hv
  cases h with
  | atom _ hobject => exact absurd rfl hobject
  | record hmembers =>
    obtain ⟨m, hm, rfl⟩ := Option.map_eq_some_iff.mp hv
    exact hmembers m (List.mem_of_find?_eq_some hm)
  | dictionary hkeys hvalues => exact dictionaryMember hkeys hvalues hv

/-- Values without objects of the host keep what objects promise. -/
theorem handleContract : HandleContract HostFree where
  empty := .atom (fun h => nomatch h) fun h => nomatch h
  number := number
  array := ⟨of_mem, .array⟩
  indexed := indexed
  memberPlaceholder := memberPlaceholder
  elementPlaceholder := elementPlaceholder
  member := member
  valid := by
    intro o o' name handle ho ho' _ hfound
    rw [findMember?_eq ho hfound]
    exact member?_eq_get? ho' name

end Value.HostFree

end Formula
