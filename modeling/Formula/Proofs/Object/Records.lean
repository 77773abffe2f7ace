import Formula.Object.Access
import Formula.Proofs.Object.Keyed

/-!
# Records after any writes

A write sets the member with a name, in whatever case it is spelt: one that is there already keeps
its spelling, and its placeholder unless the write brings another (`find?_write`).  So after any
writes a record has each name once, as and where it was first written, with the value that was
written to it last and the placeholder that came with a write last (`holds_writes`).
-/

namespace Formula.Record

variable {α : Type}

/-- A write to a member: a value, and a placeholder if one is set together with it. -/
structure Write (α : Type) where
  name : String
  value : α
  placeholder : Option α := none

/-- Whether two names differ in their case at most. -/
def sameName (a b : String) : Bool := Text.lowercase a == Text.lowercase b

/-- The record after a write. -/
def write (r : Record α) (w : Write α) : Record α :=
  match w.placeholder with
  | none => r.set w.name w.value
  | some placeholder => r.setWithPlaceholder w.name w.value placeholder

/-- A record that was written to from the start on. -/
def ofWrites (typeName : String) (ws : List (Write α)) : Record α := ws.foldl write { typeName }

/-- The writes to a name, in any spelling. -/
def writesTo (name : String) (ws : List (Write α)) : List (Write α) :=
  ws.filter fun w => sameName w.name name

/-- The value that is written to a name last. -/
def lastValue? (name : String) (ws : List (Write α)) : Option α :=
  ((writesTo name ws).map (·.value)).getLast?

/-- The placeholder that is written to a name last. -/
def lastPlaceholder? (name : String) (ws : List (Write α)) : Option α :=
  ((writesTo name ws).filterMap (·.placeholder)).getLast?

theorem sameName_iff {a b : String} : sameName a b = true ↔ Text.lowercase a = Text.lowercase b :=
  beq_iff_eq

theorem sameName_sameKeys : SameKeys sameName where
  comm _ _ := Bool.beq_comm
  trans hab hbc := sameName_iff.mpr ((sameName_iff.mp hab).trans (sameName_iff.mp hbc))

/-! ## One write -/

section
variable (r : Record α) (name : String) (value placeholder : α)

theorem find?_eq : r.find? name = r.members.find? fun m => sameName m.name name := rfl

/-- Changing a member is changing the first element that passes the test. -/
theorem modify?_eq (test : Member α → Bool) (f : Member α → Member α) (ms : List (Member α)) :
    modify? test f ms = modifyFirst? test f ms := by
  induction ms with
  | nil => rfl
  | cons m ms ih => rw [modify?, modifyFirst?, ih]

/-- Setting a member changes it or adds it behind the others. -/
theorem members_set : (r.set name value).members =
    upsert (·.name) sameName name (fun m => { m with value }) { name, value } r.members := by
  rw [set, modify?_eq, upsert]
  show _ = (modifyFirst? (hasName (Text.lowercase name)) _ _).getD _
  cases modifyFirst? (hasName (Text.lowercase name)) (fun m => { m with value }) r.members <;> rfl

/-- The member that is set is found under any spelling of its name, and the others stay. -/
theorem find?_set (other : String) : (r.set name value).find? other =
    if sameName name other then
      some (((r.find? other).map fun m => { m with value }).getD { name, value })
    else r.find? other := by
  have hnew : (⟨name, value, none⟩ : Member α).name = name := rfl
  rw [find?_eq, members_set]
  exact find?_upsert sameName_sameKeys (fun m => { m with value }) hnew (fun _ => rfl) _ other

/-- A write with a placeholder sets the value and then, as the member is there, the placeholder. -/
theorem setWithPlaceholder_eq : ∃ ms, modifyFirst? (fun m => sameName m.name name)
      (fun m => { m with placeholder := some placeholder }) (r.set name value).members = some ms ∧
    r.setWithPlaceholder name value placeholder = { r.set name value with members := ms } := by
  have hfound : (r.set name value).find? name ≠ none := by
    rw [find?_set, if_pos (sameName_iff.mpr rfl)]
    exact nofun
  obtain ⟨ms, hms⟩ := Option.ne_none_iff_exists'.mp (mt modifyFirst?_eq_none_iff.mp hfound)
  refine ⟨ms, hms, ?_⟩
  rw [setWithPlaceholder, modify?_eq]
  exact hms ▸ rfl

/-- The placeholder goes to the member that is set, and to no other. -/
theorem find?_setWithPlaceholder (other : String) :
    (r.setWithPlaceholder name value placeholder).find? other =
      ((r.set name value).find? other).map fun m =>
        if sameName name other then { m with placeholder := some placeholder } else m := by
  obtain ⟨ms, hms, hset⟩ := setWithPlaceholder_eq r name value placeholder
  rw [hset]
  exact find?_modifyFirst? sameName_sameKeys hms (fun _ => rfl) other

/-- Setting a placeholder adds no other member. -/
theorem names_setWithPlaceholder :
    (r.setWithPlaceholder name value placeholder).names = (r.set name value).names := by
  obtain ⟨ms, hms, hset⟩ := setWithPlaceholder_eq r name value placeholder
  rw [hset]
  exact map_modifyFirst? hms fun _ => rfl

/-- A write is seen under its name, in any spelling, and under no other. -/
theorem find?_write (w : Write α) (other : String) : (r.write w).find? other =
    if sameName w.name other then
      some ⟨((r.find? other).map (·.name)).getD w.name, w.value,
        w.placeholder.or ((r.find? other).bind (·.placeholder))⟩
    else r.find? other := by
  rw [write]
  split
  · next hplain =>
    rw [find?_set, hplain]
    cases r.find? other <;> rfl
  · next placeholder hplaceholder =>
    rw [find?_setWithPlaceholder, find?_set, hplaceholder]
    split
    · cases r.find? other <;> rfl
    · simp

/-- A name that is not there yet is added at the end. -/
theorem names_write (w : Write α) : (r.write w).names =
    if r.names.any (sameName · w.name) then r.names else r.names ++ [w.name] := by
  have hnames : (r.write w).names = (r.set w.name w.value).names := by
    rw [write]
    split
    · rfl
    · exact names_setWithPlaceholder ..
  rw [hnames, names, members_set]
  exact map_upsert (fun m : Member α => { m with value := w.value }) rfl fun _ => rfl

end

/-! ## Any writes -/

/-- The names of a record are those that were written to, each where and as it was first. -/
theorem names_ofWrites (typeName : String) (ws : List (Write α)) :
    (ofWrites typeName ws).names = firstOfEach sameName (ws.map (·.name)) :=
  keys_foldl sameName_sameKeys names_write rfl ws

section
variable (typeName : String) (ws : List (Write α)) (name : String)

/-- A member has the value that was written to its name last. -/
theorem value_ofWrites :
    ((ofWrites typeName ws).find? name).map (·.value) = lastValue? name ws := by
  rw [lastValue?, ← List.filterMap_eq_map']
  refine found_foldl (fun r : Record α => (r.find? name).map (·.value))
    (fun w => sameName w.name name) (fun w => some w.value) (fun r w => ?_) ?_ ws
  · rw [find?_write]
    split <;> rfl
  · rfl

/-- A member has the placeholder that was written to its name last. -/
theorem placeholder_ofWrites :
    ((ofWrites typeName ws).find? name).bind (·.placeholder) = lastPlaceholder? name ws := by
  refine found_foldl (fun r : Record α => (r.find? name).bind (·.placeholder))
    (fun w => sameName w.name name) (·.placeholder) (fun r w => ?_) ?_ ws
  · rw [find?_write]
    split <;> rfl
  · rfl

end

/-- After any writes a record holds the written names once each, in the order and the spelling in
which they were first written.  Whatever the spelling in which a member is asked for, it has the
value that was written to its name last, and of the placeholders the one that was written last. -/
theorem holds_writes (typeName : String) (ws : List (Write Value)) :
    let r := ofWrites typeName ws
    r.names = firstOfEach sameName (ws.map (·.name)) ∧
      r.members.Pairwise (fun m m' => Text.lowercase m.name ≠ Text.lowercase m'.name) ∧
      ∀ name : String,
        r.get? name = lastValue? name ws ∧
        (Contents.record r).get? name = lastValue? name ws ∧
        (Contents.record r).findMember? name =
          (lastValue? name ws).map (fun _ => .named (Text.lowercase name)) ∧
        (Contents.record r).member? (.named (Text.lowercase name)) = lastValue? name ws ∧
        (Contents.record r).memberPlaceholder? (.named (Text.lowercase name)) =
          lastPlaceholder? name ws := by
  intro r
  have hnames := names_ofWrites typeName ws
  refine ⟨hnames, ?_, fun name => ?_⟩
  · have hpairwise : r.names.Pairwise fun a b => sameName a b = false :=
      hnames ▸ pairwise_firstOfEach _
    rw [names, List.pairwise_map] at hpairwise
    exact hpairwise.imp fun h hsame => by simp [sameName, hsame] at h
  · have hvalue := value_ofWrites typeName ws name
    have hplaceholder := placeholder_ofWrites typeName ws name
    have hfind : (Contents.record r).findMember? name =
        (lastValue? name ws).map fun _ => .named (Text.lowercase name) := by
      rw [← hvalue, Option.map_map]
      rfl
    have hmember : (Contents.record r).member? (.named (Text.lowercase name)) =
        lastValue? name ws := hvalue
    refine ⟨hvalue, ?_, hfind, hmember, hplaceholder⟩
    rw [Contents.get?, hfind, Option.bind_map]
    cases hlast : lastValue? name ws with
    | none => rfl
    | some v => exact hmember.trans hlast

end Formula.Record
