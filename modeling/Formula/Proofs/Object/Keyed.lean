import Mathlib.Data.List.Basic
import Mathlib.Data.List.Induction

/-!
# Lists of elements under keys

A container that keeps its elements in the order in which they were added looks an element up by its
key and takes the first whose key is the same.  What is added under a key that is there changes that
element in its place, and goes to the end otherwise (`upsert`).  If being the same key is symmetric
and transitive, a change is seen under its key and under no other (`find?_upsert`), and after any
number of them the keys are the first of each (`keys_foldl`) and what is found under a key is what
was last added under it (`found_foldl`).
-/

namespace Formula

/-- What being the same key has to satisfy.  A key need not be the same as itself. -/
structure SameKeys {κ : Type} (same : κ → κ → Bool) : Prop where
  comm : ∀ a b, same a b = same b a
  trans : ∀ {a b c}, same a b = true → same b c = true → same a c = true

/-- Changes the first element that passes a test; none if no element passes it. -/
def modifyFirst? {ε : Type} (test : ε → Bool) (f : ε → ε) : List ε → Option (List ε)
  | [] => none
  | e :: es => if test e then some (f e :: es) else (modifyFirst? test f es).map (e :: ·)

/-- Changes the first element with a key, or adds one if there is none. -/
def upsert {ε κ : Type} (key : ε → κ) (same : κ → κ → Bool) (k : κ) (f : ε → ε) (new : ε)
    (es : List ε) : List ε :=
  (modifyFirst? (fun e => same (key e) k) f es).getD (es ++ [new])

/-- The keys of a list that are not the same as one before them. -/
def firstOfEach {κ : Type} (same : κ → κ → Bool) : List κ → List κ
  | [] => []
  | k :: ks => k :: (firstOfEach same ks).filter fun k' => !same k k'

/-! ## One change -/

section
variable {ε κ : Type} {test : ε → Bool} {f : ε → ε} {es es' : List ε} {key : ε → κ}
  {same : κ → κ → Bool} {k : κ}

theorem SameKeys.congr (hsame : SameKeys same) {a b : κ} (h : same a b = true) (c : κ) :
    same a c = same b c := by
  rw [Bool.eq_iff_iff]
  exact ⟨hsame.trans (hsame.comm a b ▸ h), hsame.trans h⟩

/-- Nothing is changed if and only if no element passes the test. -/
theorem modifyFirst?_eq_none_iff : modifyFirst? test f es = none ↔ es.find? test = none := by
  induction es with
  | nil => simp [modifyFirst?]
  | cons e es ih =>
    rw [modifyFirst?, List.find?_cons]
    cases test e <;> simp [ih]

/-- A change that keeps the key of an element keeps all keys. -/
theorem map_modifyFirst? (h : modifyFirst? test f es = some es') (hf : ∀ e, key (f e) = key e) :
    es'.map key = es.map key := by
  induction es generalizing es' with
  | nil => cases h
  | cons e es ih =>
    rw [modifyFirst?] at h
    split at h
    · obtain rfl := Option.some.inj h
      simp [hf]
    · obtain ⟨tail, htail, rfl⟩ := Option.map_eq_some_iff.mp h
      simp [ih htail]

/-- A change of the element with a key is seen under that key only. -/
theorem find?_modifyFirst? (hsame : SameKeys same)
    (h : modifyFirst? (fun e => same (key e) k) f es = some es') (hf : ∀ e, key (f e) = key e)
    (other : κ) : es'.find? (fun e => same (key e) other) =
      (es.find? fun e => same (key e) other).map fun e => if same k other then f e else e := by
  induction es generalizing es' with
  | nil => cases h
  | cons e es ih =>
    rw [modifyFirst?] at h
    split at h
    · next he =>
      obtain rfl := Option.some.inj h
      rw [List.find?_cons, List.find?_cons, hf, hsame.congr he]
      cases same k other <;> simp
    · next he =>
      obtain ⟨tail, htail, rfl⟩ := Option.map_eq_some_iff.mp h
      rw [List.find?_cons, List.find?_cons, ih htail]
      cases hother : same (key e) other with
      | false => rfl
      | true =>
        -- The element that is changed stands behind this one, under another key.
        have hne : same k other = false := by
          rw [Bool.eq_false_iff, hsame.comm]
          exact fun h => he (hsame.trans hother h)
        simp [hne]

/-- After a change or an addition, the element is found under every key that is the same, changed or
new, and the other keys find what they found before. -/
theorem find?_upsert (hsame : SameKeys same) (f : ε → ε) {new : ε} (hnew : key new = k)
    (hf : ∀ e, key (f e) = key e) (es : List ε) (other : κ) :
    (upsert key same k f new es).find? (fun e => same (key e) other) =
      if same k other then some (((es.find? fun e => same (key e) other).map f).getD new)
      else es.find? fun e => same (key e) other := by
  have hlookup : ∀ {other}, same k other = true →
      (fun e => same (key e) other) = fun e => same (key e) k := by
    intro other h
    funext e
    rw [hsame.comm, hsame.comm _ k, hsame.congr h]
  rw [upsert]
  cases hmodify : modifyFirst? (fun e => same (key e) k) f es with
  | some es' =>
    rw [Option.getD_some, find?_modifyFirst? hsame hmodify hf]
    cases hother : same k other with
    | false => simp
    | true =>
      have hfound : es.find? (fun e => same (key e) k) ≠ none := by
        rw [Ne, ← modifyFirst?_eq_none_iff (f := f), hmodify]
        exact nofun
      obtain ⟨e, he⟩ := Option.ne_none_iff_exists'.mp hfound
      rw [hlookup hother, he]
      rfl
  | none =>
    have hnone := modifyFirst?_eq_none_iff.mp hmodify
    rw [Option.getD_none, List.find?_append, List.find?_singleton, hnew]
    cases hother : same k other with
    | false => exact Option.or_none
    | true =>
      rw [hlookup hother, hnone]
      rfl

/-- If no two keys are the same, an element is found under its key. -/
theorem find?_key_eq {e : ε} (he : e ∈ es) (hself : same (key e) (key e) = true)
    (hpairwise : (es.map key).Pairwise fun a b => same a b = false) :
    es.find? (fun e' => same (key e') (key e)) = some e := by
  induction es with
  | nil => cases he
  | cons e' es ih =>
    obtain ⟨hfirst, hrest⟩ := List.pairwise_cons.mp hpairwise
    rcases List.mem_cons.mp he with rfl | he
    · rw [List.find?_cons, hself]
    · rw [List.find?_cons, hfirst _ (List.mem_map_of_mem he)]
      exact ih he hrest

/-- A key that is not there yet is added at the end. -/
theorem map_upsert (f : ε → ε) {new : ε} (hnew : key new = k) (hf : ∀ e, key (f e) = key e) :
    (upsert key same k f new es).map key =
      if (es.map key).any (same · k) then es.map key else es.map key ++ [k] := by
  have hany : (es.map key).any (same · k) = (es.find? fun e => same (key e) k).isSome := by
    rw [List.any_map, Bool.eq_iff_iff, List.find?_isSome, List.any_eq_true]
    rfl
  rw [upsert, hany]
  cases hmodify : modifyFirst? (fun e => same (key e) k) f es with
  | some es' =>
    have hfound : (es.find? fun e => same (key e) k).isSome := by
      rw [Option.isSome_iff_ne_none, Ne, ← modifyFirst?_eq_none_iff (f := f), hmodify]
      exact nofun
    rw [if_pos hfound]
    exact map_modifyFirst? hmodify hf
  | none =>
    rw [modifyFirst?_eq_none_iff.mp hmodify]
    simp [hnew]

end

/-! ## Any number of changes -/

section
variable {κ : Type} {same : κ → κ → Bool}

/-- No two keys that are kept are the same. -/
theorem pairwise_firstOfEach (ks : List κ) :
    (firstOfEach same ks).Pairwise fun a b => same a b = false := by
  induction ks with
  | nil => exact .nil
  | cons k ks ih =>
    refine List.pairwise_cons.mpr ⟨fun k' hk' => ?_, ih.filter _⟩
    simpa using (List.mem_filter.mp hk').2

/-- The first of each key is one of the keys. -/
theorem mem_of_mem_firstOfEach {k : κ} {ks : List κ} (h : k ∈ firstOfEach same ks) : k ∈ ks := by
  induction ks with
  | nil => exact h
  | cons k' ks ih =>
    rcases List.mem_cons.mp h with rfl | h
    · exact List.mem_cons_self
    · exact List.mem_cons_of_mem k' (ih (List.mem_filter.mp h).1)

/-- A key at the end is kept if it is not the same as one that is. -/
theorem firstOfEach_concat (hsame : SameKeys same) (ks : List κ) (k : κ) :
    firstOfEach same (ks ++ [k]) =
      if (firstOfEach same ks).any (same · k) then firstOfEach same ks
      else firstOfEach same ks ++ [k] := by
  induction ks with
  | nil => rfl
  | cons k' ks ih =>
    rw [List.cons_append, firstOfEach, ih, firstOfEach, List.any_cons]
    by_cases hfirst : same k' k
    · -- The first key takes the place of the last.
      rw [hfirst, Bool.true_or, if_pos rfl]
      split
      · rfl
      · rw [List.filter_append, List.filter_singleton, hfirst]
        simp
    · have hany : ((firstOfEach same ks).filter fun x => !same k' x).any (same · k) =
          (firstOfEach same ks).any (same · k) := by
        -- What is the same as the last key is not the same as the first.
        rw [Bool.eq_iff_iff, List.any_eq_true, List.any_eq_true]
        constructor
        · rintro ⟨x, hx, hxk⟩
          exact ⟨x, (List.mem_filter.mp hx).1, hxk⟩
        · rintro ⟨x, hx, hxk⟩
          refine ⟨x, List.mem_filter.mpr ⟨hx, ?_⟩, hxk⟩
          rw [Bool.not_eq_true', Bool.eq_false_iff]
          exact fun h => hfirst (hsame.trans h hxk)
      rw [Bool.eq_false_iff.mpr hfirst, Bool.false_or, hany]
      split
      · rfl
      · rw [List.filter_append, List.filter_singleton, Bool.eq_false_iff.mpr hfirst]
        rfl

variable {σ ω : Type} {step : σ → ω → σ} {s : σ}

/-- After any writes the keys are those that were written to, each where and as it was first. -/
theorem keys_foldl (hsame : SameKeys same) {keys : σ → List κ} {keyOf : ω → κ}
    (hstep : ∀ s w, keys (step s w) =
      if (keys s).any (same · (keyOf w)) then keys s else keys s ++ [keyOf w])
    (hstart : keys s = []) (ws : List ω) :
    keys (ws.foldl step s) = firstOfEach same (ws.map keyOf) := by
  induction ws using List.reverseRecOn with
  | nil => exact hstart
  | append_singleton ws w ih =>
    rw [List.foldl_append, List.foldl_cons, List.foldl_nil, hstep, ih, List.map_append]
    exact (firstOfEach_concat hsame _ _).symm

/-- After any writes one finds what was written last, by a write that is seen and brings it. -/
theorem found_foldl {ν : Type} (found : σ → Option ν) (seen : ω → Bool) (brings : ω → Option ν)
    (hstep : ∀ s w, found (step s w) = if seen w then (brings w).or (found s) else found s)
    (hstart : found s = none) (ws : List ω) :
    found (ws.foldl step s) = ((ws.filter seen).filterMap brings).getLast? := by
  induction ws using List.reverseRecOn with
  | nil => exact hstart
  | append_singleton ws w ih =>
    rw [List.foldl_append, List.foldl_cons, List.foldl_nil, hstep, ih, List.filter_append,
      List.filter_singleton]
    cases seen w with
    | false => simp
    | true => cases hw : brings w <;> simp [hw]

end

end Formula
