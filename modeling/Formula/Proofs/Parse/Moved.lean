import Formula.Proofs.Parse.Complete
import Formula.Proofs.Token.Rescan

/-!
# Derivations at another place

A part of a source that is copied into another one derives the same there, for the texts of its
paths lie within it.  The tokens of a path are those of a part of the source, its text.
-/

namespace Formula.Parse

variable {x u y x' y' : List Char} {ts : List Token} {a b : Nat}

/-- Whether some tokens lie within a part of a source. -/
def Within (start length : Nat) (ts : List Token) : Prop :=
  ∀ t ∈ ts, start ≤ t.start ∧ t.start ≤ t.stop ∧ t.stop ≤ start + length

/-- Moving some tokens moves the place behind the last of them as far. -/
theorem stopAfter_moved (passed : Nat) :
    stopAfter (passed - a + b) (ts.map (Token.moved a b)) = stopAfter passed ts - a + b := by
  induction ts generalizing passed with
  | nil => rfl
  | cons t ts ih => exact ih t.stop

/-- Tokens within a part of a source end within it. -/
theorem le_stopAfter {start length passed : Nat} (h : Within start length ts)
    (hpassed : start ≤ passed ∧ passed ≤ start + length) :
    start ≤ stopAfter passed ts ∧ stopAfter passed ts ≤ start + length := by
  induction ts generalizing passed with
  | nil => exact hpassed
  | cons t ts ih =>
    obtain ⟨ht, hts⟩ := List.forall_mem_cons.mp h
    exact ih hts ⟨Nat.le_trans ht.1 ht.2.1, ht.2.2⟩

/-- What lies within a part of a source is found in the part alone. -/
theorem drop_take_part {start stop : Nat} (hstart : x.length ≤ start) (hstop : x.length ≤ stop)
    (hend : stop ≤ x.length + u.length) : ((x ++ u ++ y).take stop).drop start =
      (u.take (stop - x.length)).drop (start - x.length) := by
  rw [List.append_assoc, List.take_append, List.take_of_length_le hstop,
    List.take_append_of_le_length (by omega), List.drop_append, List.drop_of_length_le hstart,
    List.nil_append]

/-- The text of a path is that of its tokens wherever these stand. -/
theorem pathText_moved {t : Token} (ht : x.length ≤ t.start ∧ t.start ≤ t.stop ∧
      t.stop ≤ x.length + u.length) (hts : Within x.length u.length ts) :
    pathText (x' ++ u ++ y') (t.moved x.length x'.length)
        (ts.map (Token.moved x.length x'.length)) = pathText (x ++ u ++ y) t ts := by
  obtain ⟨hle, hend⟩ := le_stopAfter hts ⟨Nat.le_trans ht.1 ht.2.1, ht.2.2⟩
  have hstop : stopAfter (t.moved x.length x'.length).stop
      (ts.map (Token.moved x.length x'.length)) =
        stopAfter t.stop ts - x.length + x'.length := stopAfter_moved t.stop
  have hstart : (t.moved x.length x'.length).start = t.start - x.length + x'.length := rfl
  rw [pathText, pathText, hstop, hstart, drop_take_part ht.1 hle hend,
    drop_take_part (by omega) (by omega) (by omega), Nat.add_sub_cancel, Nat.add_sub_cancel]

/-- A derivation from the tokens of a part of a source can be moved with that part. -/
theorem Derives.moved {names : Names} {p : Phrase} {n n' : Nat}
    (h : Derives names (x ++ u ++ y) p n ts n') (hts : Within x.length u.length ts) :
    Derives names (x' ++ u ++ y') p n (ts.map (Token.moved x.length x'.length)) n' := by
  induction h with
  | operand _ ih => exact .operand (ih hts)
  | joined _ ht hk _ ihl ihr =>
    obtain ⟨hl, htr⟩ := List.forall_mem_append.mp hts
    rw [List.map_append]
    exact .joined (ihl hl) ht hk (ihr (List.forall_mem_cons.mp htr).2)
  | signed ht _ ih => exact .signed ht (ih (List.forall_mem_cons.mp hts).2)
  | unsigned _ ih => exact .unsigned (ih hts)
  | literal ht => exact .literal ht
  | group ht _ ht' ih =>
    obtain ⟨-, hinner⟩ := List.forall_mem_cons.mp hts
    rw [List.map_append]
    exact .group ht (ih (List.forall_mem_append.mp hinner).1) ht'
  | call ht hf _ harity ih => exact .call ht hf (ih (List.forall_mem_cons.mp hts).2) harity
  | var ht hf hv _ ih => exact .var ht hf hv (ih (List.forall_mem_cons.mp hts).2)
  | external ht hf hv hx => exact .external ht hf hv hx
  | path ht hf hv hx hstarts _ ih =>
    obtain ⟨ht', hsteps⟩ := List.forall_mem_cons.mp hts
    rw [← pathText_moved ht' hsteps]
    exact .path ht hf hv hx hstarts (ih hsteps)
  | noList => exact .noList
  | emptyList ht hwanted ht' => exact .emptyList ht hwanted ht'
  | list ht hwanted _ ht' ih =>
    obtain ⟨-, hinner⟩ := List.forall_mem_cons.mp hts
    rw [List.map_append]
    exact .list ht hwanted (ih (List.forall_mem_append.mp hinner).1) ht'
  | lastItem _ ih => exact .lastItem (ih hts)
  | item _ ht _ ihe ihes =>
    obtain ⟨he, hes⟩ := List.forall_mem_append.mp hts
    rw [List.map_append]
    exact .item (ihe he) ht (ihes (List.forall_mem_cons.mp hes).2)
  | lastStep _ ih => exact .lastStep (ih hts)
  | step _ ht ht' _ ihkeys ihsteps =>
    obtain ⟨hkeys, hrest⟩ := List.forall_mem_append.mp hts
    obtain ⟨-, hrest⟩ := List.forall_mem_cons.mp hrest
    rw [List.map_append]
    exact .step (ihkeys hkeys) ht ht' (ihsteps (List.forall_mem_cons.mp hrest).2)

/-! ## The texts of paths -/

/-- Whether the last of some tokens, if there are any, ends an operand. -/
def EndsOperand (ts : List Token) : Prop :=
  ∀ us t, ts = us ++ [t] → t.lexeme.endsOperand = true

namespace EndsOperand

variable {t : Token} {us : List Token}

theorem nil : EndsOperand [] := by
  intro us t h
  simp at h

/-- A token that ends an operand can be added at the end. -/
theorem concat (ht : t.lexeme.endsOperand = true) : EndsOperand (ts ++ [t]) := by
  intro us t' h
  obtain ⟨-, hlast⟩ := List.append_inj' h rfl
  cases hlast
  exact ht

/-- A token can be added in front, unless it stands alone and ends no operand. -/
theorem cons (h : EndsOperand ts) (ht : ts ≠ [] ∨ t.lexeme.endsOperand = true) :
    EndsOperand (t :: ts) := by
  rcases List.eq_nil_or_concat ts with rfl | ⟨us, t', rfl⟩
  · exact @concat [] t (ht.resolve_left fun hne => hne rfl)
  · have hlast := @concat (t :: us) t' (h us t' (by simp))
    simpa using hlast

/-- What ends an operand still does so behind other tokens. -/
theorem append (h : EndsOperand us) (hus : us ≠ []) : EndsOperand (ts ++ us) := by
  obtain ⟨us, t', rfl⟩ := (List.eq_nil_or_concat us).resolve_left hus
  have hlast := @concat (ts ++ us) t' (h us t' (by simp))
  simpa using hlast

end EndsOperand

/-- A phrase ends with the end of an operand. -/
theorem Derives.endsOperand {names : Names} {source : List Char} {p : Phrase} {n n' : Nat}
    (h : Derives names source p n ts n') : EndsOperand ts := by
  -- The tokens behind an operator or a separator are those of an operand, so there is one.
  have hne : ∀ {e k n n'} {ts : List Token},
      Derives names source (.upTo k e) n ts n' → ts ≠ [] := by
    intro e k n n' ts h
    obtain ⟨t, us, rfl, -⟩ := h.starts
    exact List.cons_ne_nil t us
  induction h with
  | operand _ ih | unsigned _ ih | lastItem _ ih | lastStep _ ih => exact ih
  | joined _ _ _ hr _ ihr => exact (ihr.cons (.inl (hne hr))).append (List.cons_ne_nil _ _)
  | signed _ h ih => exact ih.cons (.inl (hne h))
  | literal ht | external ht => exact .cons .nil (.inr (by rw [ht]; rfl))
  | group _ _ ht' | list _ _ _ ht' => exact .concat (by rw [ht']; rfl)
  | emptyList _ _ ht' => exact .cons (.cons .nil (.inr (by rw [ht']; rfl))) (.inl (by simp))
  | call ht _ _ _ ih | var ht _ _ _ ih | path ht _ _ _ _ _ ih =>
    exact ih.cons (.inr (by rw [ht]; rfl))
  | noList => exact .nil
  | item _ _ hes _ ih =>
    obtain ⟨t, us, rfl, -⟩ := hes.starts
    exact (ih.cons (.inl (List.cons_ne_nil t us))).append (List.cons_ne_nil _ _)
  | step _ _ ht' _ _ ih =>
    have hname := ih.cons (.inr (by rw [ht']; rfl))
    exact (hname.cons (.inl (List.cons_ne_nil _ _))).append (List.cons_ne_nil _ _)

theorem stopAfter_concat (passed : Nat) (t : Token) : stopAfter passed (ts ++ [t]) = t.stop := by
  rw [stopAfter_append]
  rfl

/-- A source starts with a sign of equality that is passed, or is scanned as a whole. -/
theorem exists_scanFrom (spelling : Spelling) (source : List Char) : ∃ before text,
    source = before ++ text ∧
      scan spelling source = scanFrom spelling false before.length text := by
  rw [scan.eq_def]
  split
  · exact ⟨['='], _, rfl, rfl⟩
  · exact ⟨[], _, rfl, rfl⟩

/-- Tokens of a source from a name to the end of an operand are those of a part of it, the text of
the path that they would make. -/
theorem exists_part {s : Spelling} {source : List Char} {t : Token}
    (hpart : t :: ts <:+: (scan s source).tokens) (ht : t.lexeme.isName = true)
    (hends : EndsOperand (t :: ts)) : ∃ x u y endsLiteral, source = x ++ u ++ y ∧
      pathText source t ts = String.ofList u ∧
      Scans s false x.length u y (t :: ts) endsLiteral := by
  obtain ⟨before, text, rfl, hscan⟩ := exists_scanFrom s source
  obtain ⟨l, r, htokens⟩ := hpart
  rw [hscan, List.append_assoc, List.cons_append] at htokens
  obtain ⟨x, w, rfl, hstart, hrest⟩ := exists_scanFrom_of_name htokens.symm ht
  obtain ⟨us, last, hlast⟩ := (List.eq_nil_or_concat (t :: ts)).resolve_left (List.cons_ne_nil _ _)
  rw [List.concat_eq_append] at hlast
  rw [← List.cons_append, hlast, List.append_assoc] at hrest
  obtain ⟨u, y, endsLiteral, rfl, hstop, hscans⟩ := exists_scans hrest (hends us last hlast)
  have hx : (before ++ x).length = t.start := by rw [List.length_append, hstart]
  -- The text ends where the last token does, which is the end of `u`.
  have hpassed : stopAfter t.stop ts = (before ++ x ++ u).length := by
    show stopAfter 0 (t :: ts) = _
    rw [hlast, stopAfter_concat, hstop, List.length_append, hx]
  have hsource : before ++ (x ++ (u ++ y)) = before ++ x ++ u ++ y := by simp
  refine ⟨before ++ x, u, y, endsLiteral, hsource, ?_, ?_⟩
  · rw [pathText, hpassed, hsource, List.take_left, ← hx, List.drop_left]
  · rw [hx, hlast]
    exact hscans

end Formula.Parse
