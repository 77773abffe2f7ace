import Formula.Proofs.Expr.Renumbered
import Formula.Proofs.Parse.Grammar

/-!
# Numbers and names of what is derived

The calls, variables and paths of a derived expression are numbered one after another in the order
in which its nodes stand, so that a number tells a path from all others.  Names stand for all of
them: its functions get as many arguments as they take, its variables are declared, and its paths
start where a name may start one.
-/

namespace Formula

namespace Parse

variable {names : Names} {source : List Char} {p : Phrase} {n n' : Nat} {ts : List Token}

/-- The numbers of what is derived count on from the first that may be used. -/
theorem Derives.ids (h : Derives names source p n ts n') :
    ∃ count, n' = n + count ∧ p.nodes.filterMap Expr.id? = List.range' n count := by
  -- Phrases that follow one another have ranges of numbers that do.
  have hsplit : ∀ {l r : List Expr} {n₁ n₂ n₃},
      (∃ count, n₂ = n₁ + count ∧ l.filterMap Expr.id? = List.range' n₁ count) →
      (∃ count, n₃ = n₂ + count ∧ r.filterMap Expr.id? = List.range' n₂ count) →
      ∃ count, n₃ = n₁ + count ∧ (l ++ r).filterMap Expr.id? = List.range' n₁ count := by
    rintro l r n₁ _ _ ⟨a, rfl, hl⟩ ⟨b, rfl, hr⟩
    refine ⟨a + b, Nat.add_assoc n₁ a b, ?_⟩
    rw [List.filterMap_append, hl, hr, List.range'_append_1]
  -- A node with a number takes it before its parts take theirs.
  have hnumbered : ∀ {e : Expr} {l : List Expr} {n n'}, e.id? = some n →
      (∃ count, n' = n + 1 + count ∧ l.filterMap Expr.id? = List.range' (n + 1) count) →
      ∃ count, n' = n + count ∧ (e :: l).filterMap Expr.id? = List.range' n count := by
    rintro e l n _ he ⟨a, rfl, hl⟩
    refine ⟨a + 1, by omega, ?_⟩
    rw [List.filterMap_cons_some he, hl, List.range'_succ]
  induction h with
  | operand _ ih | unsigned _ ih | group _ _ _ ih | list _ _ _ _ ih => exact ih
  | joined _ _ _ _ ihl ihr => exact hsplit ihl ihr
  | signed _ _ ih => exact ih
  | literal | external | noList | emptyList => exact ⟨0, rfl, rfl⟩
  | call _ _ _ _ ih | var _ _ _ _ ih | path _ _ _ _ _ _ ih => exact hnumbered rfl ih
  | lastItem _ ih =>
    show ∃ count, _ ∧ (_ ++ []).filterMap Expr.id? = _
    rw [List.append_nil]
    exact ih
  | item _ _ _ ihe ihes => exact hsplit ihe ihes
  | lastStep _ ih =>
    show ∃ count, _ ∧ (_ ++ []).filterMap Expr.id? = _
    rw [List.append_nil]
    exact ih
  | step _ _ _ _ ihkeys ihsteps => exact hsplit ihkeys ihsteps

/-- The phrase with other numbers for its calls, variables and paths. -/
def Phrase.renumber (f : Nat → Nat) : Phrase → Phrase
  | upTo k e => upTo k (e.renumber f)
  | atom e => atom (e.renumber f)
  | listIf wanted listed es => listIf wanted listed (Expr.renumberAll f es)
  | items es => items (Expr.renumberAll f es)
  | steps name path => steps name (Expr.renumberSteps f path)

/-- A phrase can be derived from the same tokens with numbers that count from another one. -/
theorem Derives.renumber {f : Nat → Nat} (h : Derives names source p n ts n')
    (hf : ∀ k, n ≤ k → f (k + 1) = f k + 1) :
    Derives names source (p.renumber f) (f n) ts (f n') := by
  -- The numbers of later parts are no smaller.
  have hlater : ∀ {p : Phrase} {n n' : Nat} {ts : List Token}, Derives names source p n ts n' →
      (∀ k, n ≤ k → f (k + 1) = f k + 1) → ∀ k, n' ≤ k → f (k + 1) = f k + 1 := by
    intro p n n' ts h hf k hk
    obtain ⟨count, rfl, -⟩ := h.ids
    exact hf k (by omega)
  have hnext : ∀ {n : Nat}, (∀ k, n ≤ k → f (k + 1) = f k + 1) →
      ∀ k, n + 1 ≤ k → f (k + 1) = f k + 1 := fun hf k hk => hf k (by omega)
  induction h with
  | operand _ ih => exact .operand (ih hf)
  | joined hl ht hk _ ihl ihr => exact .joined (ihl hf) ht hk (ihr (hlater hl hf))
  | signed ht _ ih => exact .signed ht (ih hf)
  | unsigned _ ih => exact .unsigned (ih hf)
  | literal ht => exact .literal ht
  | group ht _ ht' ih => exact .group ht (ih hf) ht'
  | @call _ g _ args n _ _ _ ht hg _ harity ih =>
    have hargs := ih (hnext hf)
    rw [hf n (Nat.le_refl n)] at hargs
    refine .call ht hg hargs ?_
    rw [Expr.renumberAll_eq_map, List.length_map]
    exact harity
  | @var _ _ _ n _ _ _ ht hg hvar _ ih =>
    have hindex := ih (hnext hf)
    rw [hf n (Nat.le_refl n)] at hindex
    exact .var ht hg hvar hindex
  | external ht hg hvar hx => exact .external ht hg hvar hx
  | @path _ _ n _ _ _ ht hg hvar hx hstarts _ ih =>
    have hsteps := ih (hnext hf)
    rw [hf n (Nat.le_refl n)] at hsteps
    exact .path ht hg hvar hx hstarts hsteps
  | noList => exact .noList
  | emptyList ht hwanted ht' => exact .emptyList ht hwanted ht'
  | list ht hwanted _ ht' ih => exact .list ht hwanted (ih hf) ht'
  | lastItem _ ih => exact .lastItem (ih hf)
  | item he ht _ ihe ihes => exact .item (ihe hf) ht (ihes (hlater he hf))
  | lastStep _ ih => exact .lastStep (ih hf)
  | step hkeys ht ht' _ ihkeys ihsteps =>
    exact .step (ihkeys hf) ht ht' (ihsteps (hlater hkeys hf))

/-- Whether a call, variable or path is one that names stand for. -/
def Resolves (names : Names) : Expr.Head → Prop
  | .call _ f count => (∃ s, names.function? s = some f) ∧ f.arity.accepts count = true
  | .refers (.var _ name) => names.isVariable name = true
  | .refers (.path _ _) => ∃ s, names.startsPath s = true

/-- Names stand for all calls, variables and paths of what is derived. -/
theorem Derives.resolves (h : Derives names source p n ts n') :
    ∀ head ∈ Expr.headsOf p.nodes, Resolves names head := by
  -- The nodes of phrases that follow one another follow one another.
  have happend : ∀ {l r : List Expr}, (∀ head ∈ Expr.headsOf l, Resolves names head) →
      (∀ head ∈ Expr.headsOf r, Resolves names head) →
      ∀ head ∈ Expr.headsOf (l ++ r), Resolves names head := by
    intro l r hl hr
    rw [Expr.headsOf_append]
    exact List.forall_mem_append.mpr ⟨hl, hr⟩
  have hnone : ∀ head ∈ ([] : List Expr.Head), Resolves names head := nofun
  induction h with
  | operand _ ih | unsigned _ ih | group _ _ _ ih | list _ _ _ _ ih | signed _ _ ih => exact ih
  | joined _ _ _ _ ihl ihr => exact happend ihl ihr
  | literal | external | noList | emptyList => exact hnone
  | call _ hf _ haccepts ih => exact List.forall_mem_cons.mpr ⟨⟨⟨_, hf⟩, haccepts⟩, ih⟩
  | var _ _ hvar _ ih => exact List.forall_mem_cons.mpr ⟨hvar, ih⟩
  | path _ _ _ _ hstarts _ ih => exact List.forall_mem_cons.mpr ⟨⟨_, hstarts⟩, ih⟩
  | lastItem _ ih | lastStep _ ih => exact happend ih hnone
  | item _ _ _ ihl ihr | step _ _ _ _ ihl ihr => exact happend ihl ihr

end Parse

end Formula
