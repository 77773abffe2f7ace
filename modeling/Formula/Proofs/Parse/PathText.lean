import Formula.Proofs.Expr.Printed
import Formula.Proofs.Parse.Exact
import Formula.Proofs.Parse.Numbering

/-!
# Paths with the same text

A path is told by its text: the tokens of the text derive the same path wherever it stands, but for
the numbers in it.  So the paths of a formula that have the same text match
(`matches_of_parseSource`), and the text of a path is not the name of a variable
(`path_ne_var_of_parseSource`).
-/

namespace Formula.Parse

variable {names : Names} {source : List Char} {p : Phrase} {n n' : Nat} {ts us : List Token}

/-! ## Nodes and their tokens -/

/-- Whether every call, variable and path among some nodes is derived, with its number, from a part
of some tokens that starts with a name. -/
def NodesWithin (names : Names) (source : List Char) (nodes : List Expr) (ts : List Token) : Prop :=
  ∀ node ∈ nodes, ∀ id, node.id? = some id → ∃ t us m, t :: us <:+: ts ∧ t.lexeme.isName = true ∧
    Derives names source (.atom node) id (t :: us) m

namespace NodesWithin

variable {nodes others : List Expr} {node : Expr}

theorem none : NodesWithin names source [] ts := fun _ hmem => nomatch hmem

/-- Nodes within some tokens are nodes within more of them. -/
theorem mono (h : NodesWithin names source nodes ts) (hts : ts <:+: us) :
    NodesWithin names source nodes us := by
  intro node hmem id hid
  obtain ⟨t, vs, m, hpart, ht, hderives⟩ := h node hmem id hid
  exact ⟨t, vs, m, hpart.trans hts, ht, hderives⟩

theorem append (h : NodesWithin names source nodes ts) (h' : NodesWithin names source others ts) :
    NodesWithin names source (nodes ++ others) ts :=
  List.forall_mem_append.mpr ⟨h, h'⟩

/-- A node without a number may stand before the others. -/
theorem cons (h : NodesWithin names source nodes ts) (hnode : node.id? = .none) :
    NodesWithin names source (node :: nodes) ts := by
  refine List.forall_mem_cons.mpr ⟨fun id hid => ?_, h⟩
  rw [hnode] at hid
  cases hid

/-- A node that starts with a name, before those behind the name. -/
theorem named {t : Token} (h : NodesWithin names source nodes ts) (hid : node.id? = some n)
    (ht : t.lexeme.isName = true) (hderives : Derives names source (.atom node) n (t :: ts) n') :
    NodesWithin names source (node :: nodes) (t :: ts) := by
  refine List.forall_mem_cons.mpr ⟨fun id hid' => ?_, h.mono (List.suffix_cons t ts).isInfix⟩
  cases hid.symm.trans hid'
  exact ⟨t, ts, n', List.infix_refl _, ht, hderives⟩

end NodesWithin

/-- The calls, variables and paths of a phrase are derived from parts of its tokens. -/
theorem Derives.nodesWithin (h : Derives names source p n ts n') :
    NodesWithin names source p.nodes ts := by
  have hname : ∀ {t : Token} {s}, t.lexeme = .name s → t.lexeme.isName = true := by
    intro t s ht
    rw [ht]
    rfl
  induction h with
  | operand _ ih | unsigned _ ih => exact ih
  | @joined _ _ _ _ _ _ _ _ ts us t _ _ _ _ ihl ihr =>
    have hr : us <:+: ts ++ t :: us :=
      (List.suffix_cons t us).isInfix.trans (List.suffix_append ts _).isInfix
    exact ((ihl.mono (List.prefix_append ts _).isInfix).append (ihr.mono hr)).cons rfl
  | signed _ _ ih => exact (ih.mono (List.suffix_cons _ _).isInfix).cons rfl
  | literal | external => exact NodesWithin.none.cons rfl
  | @group _ _ _ _ ts t t' _ _ _ ih | @list _ _ _ _ _ ts t t' _ _ _ _ ih =>
    exact ih.mono ⟨[t], [t'], rfl⟩
  | call ht hf hargs harity ih => exact ih.named rfl (hname ht) (.call ht hf hargs harity)
  | var ht hf hvar hindex ih => exact ih.named rfl (hname ht) (.var ht hf hvar hindex)
  | path ht hf hvar hx hstarts hsteps ih =>
    exact ih.named rfl (hname ht) (.path ht hf hvar hx hstarts hsteps)
  | noList | emptyList => exact .none
  | lastItem _ ih | lastStep _ ih => exact ih.append .none
  | @item _ _ _ _ _ _ ts us t _ _ _ ihe ihes =>
    have hes : us <:+: ts ++ t :: us :=
      (List.suffix_cons t us).isInfix.trans (List.suffix_append ts _).isInfix
    exact (ihe.mono (List.prefix_append ts _).isInfix).append (ihes.mono hes)
  | @step _ _ _ _ _ _ _ _ ts us t t' _ _ _ _ ihkeys ihsteps =>
    have hsteps : us <:+: ts ++ t :: t' :: us :=
      (List.suffix_append [t, t'] us).isInfix.trans (List.suffix_append ts _).isInfix
    exact (ihkeys.mono (List.prefix_append ts _).isInfix).append (ihsteps.mono hsteps)

/-! ## Texts of their own -/

section
variable {s : Spelling} {e : Expr} (h : parseSource names s source = .ok e)
include h

/-- Each call, variable or path of an expression is derived from tokens of its source, the first of
which is a name. -/
theorem exists_derives_node {node : Expr} {id : Nat} (hmem : node ∈ e.nodes)
    (hid : node.id? = some id) : ∃ t us m, t :: us <:+: (scan s source).tokens ∧
      t.lexeme.isName = true ∧ Derives names source (.atom node) id (t :: us) m := by
  obtain ⟨ts, n, ⟨stop, hscan⟩, hderives⟩ := derives_of_parseSource h
  obtain ⟨t, us, m, hpart, ht, hnode⟩ := hderives.nodesWithin node hmem id hid
  refine ⟨t, us, m, hpart.trans ?_, ht, hnode⟩
  rw [hscan]
  exact (List.prefix_append ts _).isInfix

/-- The text of a path is the same path wherever it stands. -/
theorem prints_path {id : Nat} {steps : List (Step Expr)} {text : String}
    (hmem : .path id steps text ∈ e.nodes) :
    ∃ n', Prints s names text.toList (.upTo 0 (.path id steps text)) id n' := by
  obtain ⟨t, us, n', hpart, ht, hderives⟩ := exists_derives_node h hmem rfl
  have htext : text = pathText source t us := by
    cases hderives with
    | path => rfl
    | group hopening =>
      rw [hopening] at ht
      cases ht
  exact ⟨n', .path hderives htext ht hpart⟩

/-- The name of a variable is read as a name, which stands for a variable. -/
theorem reads_var {id : Nat} {name : String} {index : List Expr}
    (hmem : .var id name index ∈ e.nodes) :
    s.Reads name ∧ names.function? name = none ∧ names.isVariable name = true := by
  obtain ⟨t, us, n', hpart, ht, hderives⟩ := exists_derives_node h hmem rfl
  cases hderives with
  | var hname hf hvar =>
    exact ⟨Spelling.reads_of_mem_scan (hpart.subset List.mem_cons_self) hname, hf, hvar⟩
  | group hopening =>
    rw [hopening] at ht
    cases ht

/-- The name of a variable is the variable wherever it stands. -/
theorem prints_var {id : Nat} {name : String} {index : List Expr}
    (hmem : .var id name index ∈ e.nodes) :
    Prints s names name.toList (.upTo 0 (.var id name [])) id (id + 1) := by
  obtain ⟨hname, hf, hvar⟩ := reads_var h hmem
  exact .var hname hf hvar

end

/-- A text is a phrase with any numbers that count on from the first. -/
theorem Prints.renumber {s : Spelling} {u : List Char} {f : Nat → Nat}
    (h : Prints s names u p n n') (hf : ∀ k, n ≤ k → f (k + 1) = f k + 1) :
    Prints s names u (p.renumber f) (f n) (f n') := by
  intro source x v hsource hv
  obtain ⟨ts, endsLiteral, hscans, hderives⟩ := h source x v hsource hv
  exact ⟨ts, endsLiteral, hscans, hderives.renumber hf⟩

/-- What a text is, it is uniquely, but for numbers. -/
theorem Prints.matches {s : Spelling} {u : List Char} {e e' : Expr} {m m' : Nat}
    (h : Prints s names u (.upTo 0 e) n n') (h' : Prints s names u (.upTo 0 e') m m') :
    e.Matches e' := by
  obtain ⟨ts, endsLiteral, hscans, hderives⟩ := h u [] [] (by simp) .nil
  obtain ⟨us, endsLiteral', hscans', hderives'⟩ := h' u [] [] (by simp) .nil
  obtain rfl := hscans.unique hscans'
  -- With numbers that count from the same, they are derived from the same tokens.
  have hshifted := hderives.renumber (f := (· + m)) fun k _ => Nat.add_right_comm k 1 m
  have hshifted' := hderives'.renumber (f := (· + n)) fun k _ => Nat.add_right_comm k 1 n
  rw [Nat.add_comm m n] at hshifted'
  have heq : e.renumber (· + m) = e'.renumber (· + n) :=
    Derives.unique (Derives.loosen hshifted (Nat.zero_le 5))
      (Derives.loosen hshifted' (Nat.zero_le 5))
  exact (Expr.Matches.renumber _ e).trans (heq ▸ (Expr.Matches.renumber _ e').symm)

/-- Paths of a formula with the same text match. -/
theorem matches_of_parseSource {s : Spelling} {e : Expr} (h : parseSource names s source = .ok e)
    {id id' : Nat} {steps steps' : List (Step Expr)} {text : String}
    (hpath : .path id steps text ∈ e.nodes) (hpath' : .path id' steps' text ∈ e.nodes) :
    (Expr.path id steps text).Matches (.path id' steps' text) := by
  obtain ⟨n, hprints⟩ := prints_path h hpath
  obtain ⟨n', hprints'⟩ := prints_path h hpath'
  exact hprints.matches hprints'

/-- The text of a path is not the name of a variable of the formula. -/
theorem path_ne_var_of_parseSource {s : Spelling} {e : Expr}
    (h : parseSource names s source = .ok e) {id id' : Nat} {steps : List (Step Expr)}
    {text : String} {index : List Expr} (hpath : .path id steps text ∈ e.nodes) :
    .var id' text index ∉ e.nodes := by
  intro hvar
  obtain ⟨n, hprints⟩ := prints_path h hpath
  have hmatches := hprints.matches (prints_var h hvar)
  cases hmatches

end Formula.Parse
