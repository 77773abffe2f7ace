import Formula.Proofs.Token.Stable

/-!
# Scanning parts of a text

`Scans` says that a text is cut into tokens of its own before a text that follows: a scan of both
passes those tokens and goes on with the second.  Any part of a source that reaches from a name to
the end of an operand is such a text, and it is cut into the same tokens wherever it is copied to.
-/

namespace Formula

/-! ## Texts with tokens of their own -/

/-- A token at another place: what was at `a` is at `b`. -/
def Token.moved (a b : Nat) (t : Token) : Token :=
  { t with start := t.start - a + b, stop := t.stop - a + b }

/-- A text at some position is cut into tokens before a text that follows; the flags say whether a
literal stands before it and whether one is its last token. -/
inductive Scans (s : Spelling) :
    Bool → Nat → List Char → List Char → List Token → Bool → Prop where
  | nil {afterLiteral : Bool} {position : Nat} {v : List Char} :
      Scans s afterLiteral position [] v [] afterLiteral
  | cons {afterLiteral endsLiteral : Bool} {position : Nat} {blanks r u v : List Char} {c : Char}
      {found : Found Lexeme} {ts : List Token} :
      (∀ b ∈ blanks, isSkipped b = true) → isSkipped c = false →
      lexemeFrom s c (r ++ (u ++ v)) = .ok found → found.length = r.length + 1 →
      Scans s found.item.isLiteral (position + blanks.length + found.length) u v ts endsLiteral →
      Scans s afterLiteral position (blanks ++ c :: (r ++ u)) v
        (tokensOf afterLiteral (position + blanks.length) found ++ ts) endsLiteral

namespace Scans

variable {s : Spelling} {afterLiteral endsLiteral : Bool} {position : Nat} {u v : List Char}
  {ts : List Token}

/-- A scan of a text and what follows passes the tokens of the text. -/
theorem scanFrom_eq (h : Scans s afterLiteral position u v ts endsLiteral) :
    scanFrom s afterLiteral position (u ++ v) =
      (scanFrom s endsLiteral (position + u.length) v).prepend ts := by
  induction h with
  | nil => rfl
  | @cons afterLiteral endsLiteral position blanks r u v c found ts hblanks hc hfound hlen _ ih =>
    have htext : blanks ++ c :: (r ++ u) ++ v = blanks ++ c :: (r ++ (u ++ v)) := by simp
    have hdrop : (r ++ (u ++ v)).drop (found.length - 1) = u ++ v := by
      rw [hlen, Nat.add_sub_cancel, List.drop_left]
    have hposition : position + blanks.length + found.length + u.length =
        position + (blanks ++ c :: (r ++ u)).length := by
      simp only [List.length_append, List.length_cons]
      omega
    rw [htext, scanFrom_ok hblanks hc hfound, hdrop, ih, hposition, Scan.prepend, Scan.prepend,
      Scan.prepend, List.append_assoc]

/-- A text on its own is cut into tokens in one way only. -/
theorem unique {ts' : List Token} {endsLiteral' : Bool}
    (h : Scans s afterLiteral position u [] ts endsLiteral)
    (h' : Scans s afterLiteral position u [] ts' endsLiteral') : ts = ts' := by
  have hall := h.scanFrom_eq.symm.trans h'.scanFrom_eq
  rw [scanFrom_nil, scanFrom_nil] at hall
  exact List.append_cancel_right (congrArg Scan.tokens hall)

/-- Two texts one behind another are scanned one after another. -/
theorem append {u' : List Char} {ts' : List Token} {middle : Bool}
    (h : Scans s afterLiteral position u (u' ++ v) ts middle)
    (h' : Scans s middle (position + u.length) u' v ts' endsLiteral) :
    Scans s afterLiteral position (u ++ u') v (ts ++ ts') endsLiteral := by
  generalize hw : u' ++ v = w at h
  induction h with
  | nil => exact h'
  | @cons afterLiteral middle position blanks r u w c found ts hblanks hc hfound hlen _ ih =>
    subst hw
    have hposition : position + (blanks ++ c :: (r ++ u)).length =
        position + blanks.length + found.length + u.length := by
      simp only [List.length_append, List.length_cons]
      omega
    rw [hposition] at h'
    have hall := @cons s afterLiteral endsLiteral position blanks r (u ++ u') v c found (ts ++ ts')
      hblanks hc (by rwa [List.append_assoc u]) hlen (ih h' rfl)
    simpa using hall

/-- A blank before a text is skipped, if there is a token behind it. -/
theorem blank {b : Char} (hb : isSkipped b = true) (hts : ts ≠ [])
    (h : Scans s afterLiteral (position + 1) u v ts endsLiteral) :
    Scans s afterLiteral position (b :: u) v ts endsLiteral := by
  cases h with
  | nil => exact absurd rfl hts
  | @cons _ _ _ blanks r u v c found ts hblanks hc hfound hlen h =>
    have hposition : position + 1 + blanks.length = position + (b :: blanks).length := by
      rw [List.length_cons]
      omega
    rw [hposition] at h ⊢
    refine @cons s afterLiteral endsLiteral position (b :: blanks) r u v c found ts ?_ hc hfound
      hlen h
    intro d hd
    rcases List.mem_cons.mp hd with rfl | hd
    · exact hb
    · exact hblanks d hd

/-- A text of one token. -/
theorem single {c : Char} {r : List Char} {found : Found Lexeme} (hc : isSkipped c = false)
    (h : lexemeFrom s c (r ++ v) = .ok found) (hlen : found.length = r.length + 1) :
    Scans s afterLiteral position (c :: r) v (tokensOf afterLiteral position found)
      found.item.isLiteral := by
  have hall := @cons s afterLiteral _ position [] r [] v c found [] (by simp) hc h hlen .nil
  simpa using hall

/-- The first token of a text that starts with no blank starts there. -/
theorem exists_lexemeFrom {c : Char} {t : Token} (hc : isSkipped c = false)
    (h : Scans s false position (c :: u) v (t :: ts) endsLiteral) :
    ∃ found rest, lexemeFrom s c rest = .ok found ∧ t.lexeme = found.item := by
  generalize hu : c :: u = text, hts : t :: ts = tokens at h
  cases h with
  | nil => cases hu
  | @cons _ _ _ blanks r u v c found ts hblanks _ hfound =>
    cases blanks with
    | nil =>
      cases hu
      cases hts
      exact ⟨found, _, hfound, rfl⟩
    | cons b blanks =>
      cases hu
      exact absurd (hblanks _ List.mem_cons_self) (by rw [hc]; exact Bool.false_ne_true)

/-- The tokens of a text lie within it. -/
theorem bounds (h : Scans s afterLiteral position u v ts endsLiteral) :
    ∀ t ∈ ts, position ≤ t.start ∧ t.start ≤ t.stop ∧ t.stop ≤ position + u.length := by
  induction h with
  | nil => exact List.forall_mem_nil _
  | @cons afterLiteral endsLiteral position blanks r u v c found ts _ _ _ hlen _ ih =>
    intro t ht
    simp only [List.length_append, List.length_cons]
    rcases List.mem_append.mp ht with ht | ht
    · have := bounds_tokensOf ht
      omega
    · have := ih t ht
      omega

/-- Tokens that are found at another place are moved there. -/
theorem tokensOf_moved {a b start : Nat} (ha : a ≤ start) (found : Found Lexeme) :
    (tokensOf afterLiteral start found).map (Token.moved a b) =
      tokensOf afterLiteral (start - a + b) found := by
  have hstop : start + found.length - a + b = start - a + b + found.length := by omega
  rw [tokensOf, tokensOf]
  split <;> simp only [List.map_cons, List.map_nil, Token.moved, hstop]

/-- A text is cut into the same tokens wherever it stands, before any end of a token. -/
theorem move {a : Nat} (b : Nat) {v' : List Char} (hv' : EndsToken s v')
    (h : Scans s afterLiteral position u v ts endsLiteral) (ha : a ≤ position) :
    Scans s afterLiteral (position - a + b) u v' (ts.map (Token.moved a b)) endsLiteral := by
  induction h with
  | nil => exact .nil
  | @cons afterLiteral endsLiteral position blanks r u v c found ts hblanks hc hfound hlen _ ih =>
    -- The token ends within the text, so it is found again whatever follows the text.
    have hfound' : lexemeFrom s c (r ++ (u ++ v')) = .ok found := by
      rw [← List.append_assoc] at hfound ⊢
      refine lexemeFrom_append hv' hfound ?_
      rw [List.length_append]
      omega
    have hposition : position + blanks.length + found.length - a + b =
        position - a + b + blanks.length + found.length := by omega
    have hstart : position + blanks.length - a + b = position - a + b + blanks.length := by omega
    have hrest := ih (by omega)
    rw [hposition] at hrest
    rw [List.map_append, tokensOf_moved (by omega), hstart]
    exact .cons hblanks hc hfound' hlen hrest

end Scans

/-! ## Parts of a source -/

/-- Whether an operand can end with a token. -/
def Lexeme.endsOperand : Lexeme → Bool
  | literal _ | name _ | closing _ => true
  | _ => false

/-- A member of a list in two parts stands in the second or in the first. -/
theorem append_eq_append_cons {α : Type} {a b xs ys : List α} {x : α}
    (h : a ++ b = xs ++ x :: ys) : (∃ xs', xs = a ++ xs' ∧ b = xs' ++ x :: ys) ∨
      ∃ ys', a = xs ++ x :: ys' ∧ ys = ys' ++ b := by
  rcases List.append_eq_append_iff.mp h with ⟨xs', hxs, hb⟩ | ⟨_ | ⟨y, ys'⟩, ha, hys⟩
  · exact .inl ⟨xs', hxs, hb⟩
  · rw [List.append_nil] at ha
    exact .inl ⟨[], by rw [ha, List.append_nil], hys.symm⟩
  · cases hys
    exact .inr ⟨ys', ha, rfl⟩

/-- The tokens of an item that was found, when one of them ends an operand. -/
theorem eq_of_mem_tokensOf {afterLiteral : Bool} {start : Nat} {found : Found Lexeme}
    {ts us : List Token} {t : Token} (h : tokensOf afterLiteral start found = ts ++ t :: us)
    (ht : t.lexeme.endsOperand = true) :
    t = ⟨found.item, start, start + found.length⟩ ∧ us = [] := by
  rw [tokensOf] at h
  split at h
  · rcases ts with _ | ⟨t', _ | ⟨t'', ts⟩⟩
    · cases h
      cases ht
    · cases h
      exact ⟨rfl, rfl⟩
    · simp at h
  · rcases ts with _ | ⟨t', ts⟩
    · cases h
      exact ⟨rfl, rfl⟩
    · simp at h

/-- The tokens of a scan up to one that ends an operand are those of a text of their own. -/
theorem exists_scans {s : Spelling} {afterLiteral : Bool} {position : Nat} {text : List Char}
    {ts us : List Token} {t : Token}
    (h : (scanFrom s afterLiteral position text).tokens = ts ++ t :: us)
    (ht : t.lexeme.endsOperand = true) : ∃ u v endsLiteral, text = u ++ v ∧
      t.stop = position + u.length ∧
      Scans s afterLiteral position u v (ts ++ [t]) endsLiteral := by
  refine @scanFrom_induct s (fun afterLiteral position text scan => ∀ ts,
    scan.tokens = ts ++ t :: us → ∃ u v endsLiteral, text = u ++ v ∧ t.stop = position + u.length ∧
      Scans s afterLiteral position u v (ts ++ [t]) endsLiteral)
    ?_ ?_ ?_ afterLiteral position text ts h
  · intro _ _ _ _ ts h
    rcases ts with _ | ⟨t', ts⟩
    · cases h
      cases ht
    · simp at h
  · intro _ _ _ _ _ _ _ _ _ ts h
    simp at h
  intro afterLiteral position blanks c rest found hblanks hc hfound ih ts h
  obtain ⟨hpos, hle⟩ := length_lexemeFrom hfound
  obtain ⟨r, w, rfl, hr⟩ : ∃ r w, rest = r ++ w ∧ found.length = r.length + 1 := by
    refine ⟨_, _, (List.take_append_drop (found.length - 1) rest).symm, ?_⟩
    rw [List.length_take]
    omega
  have hw : (r ++ w).drop (found.length - 1) = w := by
    rw [hr, Nat.add_sub_cancel, List.drop_left]
  rw [hw] at ih h
  -- The token stands behind what was found here, or it is what was found.
  rcases append_eq_append_cons h with ⟨ts', rfl, hbehind⟩ | ⟨us', htokens, -⟩
  · obtain ⟨u, v, endsLiteral, rfl, hstop, hscans⟩ := ih ts' hbehind
    refine ⟨blanks ++ c :: (r ++ u), v, endsLiteral, by simp, ?_, ?_⟩
    · simp only [List.length_append, List.length_cons]
      omega
    · rw [List.append_assoc]
      exact .cons hblanks hc hfound hr hscans
  · obtain ⟨rfl, rfl⟩ := eq_of_mem_tokensOf htokens ht
    refine ⟨blanks ++ c :: (r ++ []), w, found.item.isLiteral, by simp, ?_, ?_⟩
    · simp only [List.length_append, List.length_cons, List.length_nil]
      omega
    · rw [← htokens, ← List.append_nil (tokensOf ..)]
      exact .cons hblanks hc hfound hr .nil

/-- A scan can be started again at any name. -/
theorem exists_scanFrom_of_name {s : Spelling} {afterLiteral : Bool} {position : Nat}
    {text : List Char} {ts us : List Token} {t : Token}
    (h : (scanFrom s afterLiteral position text).tokens = ts ++ t :: us)
    (ht : t.lexeme.isName = true) : ∃ u w, text = u ++ w ∧ t.start = position + u.length ∧
      (scanFrom s false t.start w).tokens = t :: us := by
  refine @scanFrom_induct s (fun afterLiteral position text scan => ∀ ts,
    scan.tokens = ts ++ t :: us → ∃ u w, text = u ++ w ∧ t.start = position + u.length ∧
      (scanFrom s false t.start w).tokens = t :: us) ?_ ?_ ?_ afterLiteral position text ts h
  · intro _ _ _ _ ts h
    rcases ts with _ | ⟨t', ts⟩
    · cases h
      cases ht
    · simp at h
  · intro _ _ _ _ _ _ _ _ _ ts h
    simp at h
  intro afterLiteral position blanks c rest found hblanks hc hfound ih ts h
  obtain ⟨hpos, hle⟩ := length_lexemeFrom hfound
  -- The name stands behind what was found here, or it is what was found.
  rcases append_eq_append_cons h with ⟨ts', rfl, hbehind⟩ | ⟨us', htokens, hus⟩
  · obtain ⟨u, w, hrest, hstart, htail⟩ := ih ts' hbehind
    refine ⟨blanks ++ c :: (rest.take (found.length - 1) ++ u), w, ?_, ?_, htail⟩
    · have hsplit := List.take_append_drop (found.length - 1) rest
      rw [hrest, ← List.append_assoc] at hsplit
      simp [hsplit]
    · simp only [List.length_append, List.length_cons, List.length_take]
      omega
  · obtain ⟨rfl, rfl⟩ := eq_of_mem_tokensOf htokens (by
      cases hl : t.lexeme with
      | name => rfl
      | _ => rw [hl] at ht; cases ht)
    refine ⟨blanks, c :: rest, rfl, rfl, ?_⟩
    have hstep :=
      @scanFrom_ok s found false (position + blanks.length) [] rest c (by simp) hc hfound
    rw [List.nil_append] at hstep
    rw [hstep, hus]
    rfl

end Formula
