import Formula.Object.Dictionary
import Formula.Proofs.Decimal.Equality
import Formula.Proofs.Value.Order

/-!
# Equality of keys

Structural equality does not depend on the order of two values and is transitive, and all but what
is not a number is the same as itself.  Keys are the same if they are structurally, except that
numbers and decimals are compared by their floats; so `sameKey` is an equivalence of the keys in
which everything that is a number by its kind is one.
-/

namespace Formula.Value

/-! ## Structural equality -/

/-- Lists are the same in either order if their items are. -/
theorem sameItems_comm {as : List Value} (h : ∀ a ∈ as, ∀ b, same a b = same b a)
    (bs : List Value) : sameItems as bs = sameItems bs as := by
  induction as generalizing bs with
  | nil => cases bs <;> rfl
  | cons a as ih =>
    cases bs with
    | nil => rfl
    | cons b bs =>
      obtain ⟨ha, has⟩ := List.forall_mem_cons.mp h
      unfold sameItems
      rw [ha b, ih has bs]

/-- Structural equality does not depend on the order of the two values. -/
theorem same_comm (a b : Value) : same a b = same b a := by
  induction a using induct generalizing b with
  | array as ih =>
    cases b with
    | array bs => exact sameItems_comm ih bs
    | _ => rfl
  | atom a ha =>
    cases a with
    | array => exact absurd rfl ha
    | empty => cases b <;> rfl
    | number x =>
      cases b with
      | number y => exact Number.beq_comm x y
      | _ => rfl
    | decimal d =>
      cases b with
      | decimal d' => exact d.equal_comm d'
      | _ => rfl
    | text s =>
      cases b with
      | text t => exact Bool.beq_comm
      | _ => rfl
    | boolean p =>
      cases b with
      | boolean q => exact Bool.beq_comm
      | _ => rfl
    | dateTime d =>
      cases b with
      | dateTime d' => exact Bool.beq_comm
      | _ => rfl
    | object o =>
      cases b with
      | object o' => exact Bool.beq_comm
      | _ => rfl

/-- Lists that are the same as a third are the same if this holds of their items. -/
theorem sameItems_trans {as bs cs : List Value}
    (h : ∀ a ∈ as, ∀ {b c}, same a b = true → same b c = true → same a c = true)
    (hab : sameItems as bs = true) (hbc : sameItems bs cs = true) : sameItems as cs = true := by
  induction as generalizing bs cs with
  | nil =>
    cases bs with
    | nil => exact hbc
    | cons => cases hab
  | cons a as ih =>
    cases bs with
    | nil => cases hab
    | cons b bs =>
      cases cs with
      | nil => cases hbc
      | cons c cs =>
        obtain ⟨ha, has⟩ := List.forall_mem_cons.mp h
        rw [sameItems, Bool.and_eq_true] at hab hbc ⊢
        exact ⟨ha hab.1 hbc.1, ih has hab.2 hbc.2⟩

/-- Values that are the same as one value are the same. -/
theorem same_trans {a b c : Value} (hab : same a b = true) (hbc : same b c = true) :
    same a c = true := by
  induction a using induct generalizing b c with
  | array as ih =>
    cases b with
    | array bs =>
      cases c with
      | array cs => exact sameItems_trans ih hab hbc
      | _ => cases hbc
    | _ => cases hab
  | atom a ha =>
    cases a with
    | array => exact absurd rfl ha
    | empty =>
      cases b with
      | empty => exact hbc
      | _ => cases hab
    | number x =>
      cases b with
      | number y =>
        cases c with
        | number z => exact Number.beq_trans hab hbc
        | _ => cases hbc
      | _ => cases hab
    | decimal d =>
      cases b with
      | decimal d' =>
        cases c with
        | decimal d'' => exact Decimal.equal_trans hab hbc
        | _ => cases hbc
      | _ => cases hab
    | text s =>
      cases b with
      | text t =>
        obtain rfl : s = t := beq_iff_eq.mp hab
        exact hbc
      | _ => cases hab
    | boolean p =>
      cases b with
      | boolean q =>
        obtain rfl : p = q := beq_iff_eq.mp hab
        exact hbc
      | _ => cases hab
    | dateTime d =>
      cases b with
      | dateTime d' =>
        obtain rfl : d = d' := beq_iff_eq.mp hab
        exact hbc
      | _ => cases hab
    | object o =>
      cases b with
      | object o' =>
        cases c with
        | object o'' => exact beq_iff_eq.mpr ((beq_iff_eq.mp hab).trans (beq_iff_eq.mp hbc))
        | _ => cases hbc
      | _ => cases hab

/-- A list is the same as itself unless NaN is in it. -/
theorem sameItems_self {vs : List Value} (h : ∀ v ∈ vs, same v v = !hasNaN v) :
    sameItems vs vs = !anyHasNaN vs := by
  induction vs with
  | nil => rfl
  | cons v vs ih =>
    obtain ⟨hv, hvs⟩ := List.forall_mem_cons.mp h
    unfold sameItems anyHasNaN
    rw [hv, ih hvs, Bool.not_or]

/-- A value is the same as itself, unless something that is not a number stands in it. -/
theorem same_self (v : Value) : same v v = !hasNaN v := by
  induction v using induct with
  | array items ih => exact sameItems_self ih
  | atom v hv =>
    cases v with
    | array => exact absurd rfl hv
    | empty => rfl
    | number x => exact Number.beq_self x
    | decimal d => exact d.equal_self
    | text s => exact beq_self_eq_true s
    | boolean b => exact beq_self_eq_true b
    | dateTime d => exact beq_self_eq_true d
    | object o => exact beq_self_eq_true o.id

/-! ## Keys -/

theorem numeric?_isSome (v : Value) : v.numeric?.isSome = v.isNumeric := by
  cases v <;> rfl

theorem isNumeric_of_same {a b : Value} (h : same a b = true) : a.isNumeric = b.isNumeric := by
  cases a <;> cases b <;> first | rfl | cases h

/-- Keys are the same by their floats, if both have one, and by structure if none has. -/
theorem sameKey_iff {a b : Value} : a.sameKey b = true ↔
    (∃ x y, a.numeric? = some x ∧ b.numeric? = some y ∧ (x == y) = true) ∨
      a.numeric? = none ∧ b.numeric? = none ∧ same a b = true := by
  have hnumeric := isNumeric_of_same (a := a) (b := b)
  rw [← numeric?_isSome, ← numeric?_isSome] at hnumeric
  unfold sameKey
  cases ha : a.numeric? <;> cases hb : b.numeric? <;> simp_all

/-- Whether two keys are the same does not depend on their order, be they numbers or not. -/
theorem sameKey_comm (a b : Value) : a.sameKey b = b.sameKey a := by
  unfold sameKey
  cases a.numeric? with
  | none => cases b.numeric? <;> exact same_comm a b
  | some x =>
    cases b.numeric? with
    | none => exact same_comm a b
    | some y => exact Number.beq_comm x y

/-- Keys that are the same as one key are the same. -/
theorem sameKey_trans {a b c : Value} (hab : a.sameKey b = true) (hbc : b.sameKey c = true) :
    a.sameKey c = true := by
  rw [sameKey_iff] at *
  rcases hab with ⟨x, y, ha, hb, hxy⟩ | ⟨ha, hb, hab⟩
  · rcases hbc with ⟨y', z, hb', hc, hyz⟩ | ⟨hb', -⟩
    · obtain rfl := Option.some.inj (hb.symm.trans hb')
      exact .inl ⟨x, z, ha, hc, Number.beq_trans hxy hyz⟩
    · rw [hb] at hb'
      cases hb'
  · rcases hbc with ⟨y, z, hb', -⟩ | ⟨-, hc, hbc⟩
    · rw [hb] at hb'
      cases hb'
    · exact .inr ⟨ha, hc, same_trans hab hbc⟩

/-- A key is the same as itself, unless something that is not a number stands in it. -/
theorem sameKey_self (k : Value) : k.sameKey k = !hasNaN k := by
  unfold sameKey
  cases hk : k.numeric? with
  | none => exact same_self k
  | some x =>
    cases k with
    | number y =>
      obtain rfl := Option.some.inj hk
      exact Number.beq_self y
    | decimal d =>
      obtain rfl := Option.some.inj hk
      show (d.toFloat == d.toFloat) = true
      rw [Number.beq_self, d.isNaN_toFloat]
      rfl
    | _ => cases hk

end Formula.Value
