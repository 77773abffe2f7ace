import Formula.Function.Registry
import Mathlib.Data.List.Nodup

/-!
# Functions stand under their own names

A registry that was made by adding and removing functions finds each of its functions under the name
that the function has.  At the start these are the built-in functions (`get?_builtin`).
-/

namespace Formula

namespace NameMap

variable {α : Type}

/-- A name is looked up by comparing it, in lower case, with the first key and going on behind
it. -/
theorem get?_cons (key name : String) (value : α) (entries : List (String × α)) :
    get? ⟨(key, value) :: entries⟩ name =
      if Text.lowercase name = key then some value else get? ⟨entries⟩ name := by
  rw [get?, get?, List.lookup_cons]
  by_cases h : Text.lowercase name = key
  · rw [if_pos h, h, BEq.rfl]
  · rw [if_neg h, beq_false_of_ne h]

/-- What is inserted under a name is found under it in any case, and nothing else changes. -/
theorem get?_insert (m : NameMap α) (name name' : String) (value : α) :
    (m.insert name value).get? name' =
      if Text.lowercase name' = Text.lowercase name then some value else m.get? name' := by
  rw [insert, get?_cons]
  by_cases h : Text.lowercase name' = Text.lowercase name
  · rw [if_pos h, if_pos h]
  · rw [if_neg h, if_neg h]
    -- The name is not the one whose old value is left out.
    obtain ⟨entries⟩ := m
    show get? ⟨entries.filter _⟩ name' = _
    induction entries with
    | nil => rfl
    | cons entry entries ih =>
      obtain ⟨key, old⟩ := entry
      rw [List.filter_cons, get?_cons]
      by_cases hkey : key = Text.lowercase name
      · rw [if_neg (by simp [hkey]), ih, hkey, if_neg h]
      · rw [if_pos (by simp [hkey]), get?_cons, ih]

end NameMap

namespace Registry

/-- Whether a registry was made by adding and removing functions. -/
inductive Built : Registry → Prop where
  | empty : Built {}
  | register {r : Registry} (f : FunctionDef) : Built r → Built (r.register f)
  | erase {r : Registry} (name : String) : Built r → Built (r.erase name)

/-- A function that is found stands in the registry under its name in lower case. -/
theorem mem_entries_of_get? {r : Registry} {name : String} {f : FunctionDef}
    (hf : r.get? name = some f) : (Text.lowercase name, f) ∈ r.entries := by
  rw [NameMap.get?, List.lookup_eq_some_iff] at hf
  obtain ⟨before, after, hentries, -⟩ := hf
  rw [hentries]
  exact List.mem_append_right _ List.mem_cons_self

namespace Built

/-- The entries of a registry are kept under the names of their functions. -/
theorem key_eq {r : Registry} (h : r.Built) :
    ∀ entry ∈ r.entries, entry.1 = Text.lowercase entry.2.name := by
  induction h with
  | empty => exact List.forall_mem_nil _
  | register f _ ih =>
    rw [Registry.register, NameMap.insert, List.forall_mem_cons]
    exact ⟨rfl, fun entry hentry => ih entry (List.mem_filter.mp hentry).1⟩
  | erase name _ ih => exact fun entry hentry => ih entry (List.mem_filter.mp hentry).1

/-- A function is found under its own name if it is found under any. -/
theorem get?_name {r : Registry} (h : r.Built) {name : String} {f : FunctionDef}
    (hf : r.get? name = some f) : r.get? f.name = some f := by
  have hkey : Text.lowercase name = Text.lowercase f.name := h.key_eq _ (mem_entries_of_get? hf)
  rw [NameMap.get?, ← hkey]
  exact hf

/-- Built-in functions may be registered in any number. -/
theorem foldl_register {r : Registry} (h : r.Built) (fs : List Builtin) :
    Built (fs.foldl (fun r b => r.register b.definition) r) := by
  induction fs generalizing r with
  | nil => exact h
  | cons b fs ih => exact ih (.register _ h)

theorem builtin : Built Registry.builtin := foldl_register .empty _

end Built

/-- The functions of the registry at the start are the built-in ones. -/
theorem exists_of_mem_values_builtin {f : FunctionDef} (hf : f ∈ Registry.builtin.values) :
    ∃ b ∈ Builtin.all, f = b.definition := by
  have hmem : ∀ (bs : List Builtin) (r : Registry),
      f ∈ (bs.foldl (fun r b => r.register b.definition) r).values →
        f ∈ r.values ∨ ∃ b ∈ bs, f = b.definition := by
    intro bs
    induction bs with
    | nil => exact fun r hf => .inl hf
    | cons b bs ih =>
      intro r hf
      rcases ih _ hf with hf | ⟨b', hb', rfl⟩
      · rcases List.mem_cons.mp hf with rfl | hf
        · exact .inr ⟨b, List.mem_cons_self, rfl⟩
        · obtain ⟨entry, hentry, rfl⟩ := List.mem_map.mp hf
          exact .inl (List.mem_map_of_mem (List.mem_filter.mp hentry).1)
      · exact .inr ⟨b', List.mem_cons_of_mem _ hb', rfl⟩
  rcases hmem Builtin.all {} hf with hf | hf
  · cases hf
  · exact hf

/-- A function that is added is there, whatever is added besides, if it keeps its name. -/
theorem get?_foldl_register {bs : List Builtin} {b : Builtin} {r : Registry}
    (hnames : ∀ b' ∈ bs, Text.lowercase b.name = Text.lowercase b'.name → b = b')
    (h : b ∈ bs ∨ r.get? b.name = some b.definition) :
    (bs.foldl (fun r b => r.register b.definition) r).get? b.name = some b.definition := by
  induction bs generalizing r with
  | nil => exact h.resolve_left List.not_mem_nil
  | cons b' bs ih =>
    obtain ⟨hname, hnames⟩ := List.forall_mem_cons.mp hnames
    apply ih hnames
    show b ∈ bs ∨ (NameMap.insert r b'.name b'.definition).get? b.name = _
    rw [NameMap.get?_insert]
    by_cases hsame : Text.lowercase b.name = Text.lowercase b'.name
    · exact .inr (by rw [hname hsame, if_pos rfl])
    · refine h.imp (fun hmem => ?_) fun hr => ?_
      · rcases List.mem_cons.mp hmem with rfl | hmem
        · exact absurd rfl hsame
        · exact hmem
      · rw [← hr]
        exact if_neg hsame

theorem nodup_names : (Builtin.all.map (Text.lowercase ·.name)).Nodup := by decide +kernel

/-- Every built-in function is found under its name at the start. -/
theorem get?_builtin {b : Builtin} (h : b ∈ Builtin.all) :
    Registry.builtin.get? b.name = some b.definition :=
  get?_foldl_register (fun _ hb' hname => List.inj_on_of_nodup_map nodup_names h hb' hname) (.inl h)

end Registry

end Formula
