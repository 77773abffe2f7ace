import Formula.Proofs.Engine.Retraced

/-!
# What an engine finds in a tree again

A trace is kept by the numbers of nodes, so it matters that folding takes no variable and no path
out of a tree, nor a call whose value depends on more than its arguments (`live_of_fold`), and that
the numbers of a tree stand for one node each: they count from zero in the order of the nodes, and
folding takes some of them out (`numbered_of_parse`).
-/

namespace Formula.Engine

/-- Folding keeps all that is read of the data, whatever the functions of the host do meanwhile: the
variables and paths and the calls that are volatile or see the data are those of the expression,
with their numbers, names, texts, steps, functions and numbers of operands, in the same order. -/
theorem live_of_fold (engine : Engine) (e : Expr) :
    ∃ e' host, (Engine.fold e).run.run engine = (.ok e', { engine with host }) ∧
      (Expr.outlinesOf e'.nodes).filter Expr.Outline.isLive =
        (Expr.outlinesOf e.nodes).filter Expr.Outline.isLive :=
  ⟨_, _, run_fold engine e, (Expr.leaves_fold engine.scope e engine.host).live_eq⟩

/-- Some of the numbers of an expression are left when it is folded, in the same order. -/
theorem sublist_ids_fold (scope : Scope) (e : Expr) (host : Host) :
    (((e.fold scope).run host).1.nodes.filterMap Expr.id?).Sublist
      (e.nodes.filterMap Expr.id?) := by
  rw [Expr.filterMap_id?, Expr.filterMap_id?]
  exact (e.sublist_fold scope host).map Expr.Head.id

/-- The calls, variables and paths in what is parsed have the numbers 0, 1, 2, … in the order of the
nodes.  Those that are left when it is folded, on any engine, grow in this order.  So no two nodes
of what an engine reads share a number. -/
theorem numbered_of_parse (e : Engine) :
    (∀ source u, parseSource e.names e.spelling source = .ok u →
      ∃ count, u.nodes.filterMap Expr.id? = List.range count ∧
        ∀ engine : Engine, ∃ t host,
          (Engine.fold u).run.run engine = (.ok t, { engine with host }) ∧
          (t.nodes.filterMap Expr.id?).Sublist (List.range count) ∧
          (t.nodes.filterMap Expr.id?).Pairwise (· < ·)) ∧
    ∀ text t, ((parse text).run.run e).1 = .ok t → (t.nodes.filterMap Expr.id?).Nodup := by
  refine ⟨fun source u hu => ?_, fun text t => nodup_ids_of_reads⟩
  obtain ⟨ts, n, -, hderives⟩ := Parse.derives_of_parseSource hu
  obtain ⟨count, -, hids⟩ := hderives.ids
  rw [← List.range_eq_range'] at hids
  have hids : u.nodes.filterMap Expr.id? = List.range count := hids
  refine ⟨count, hids, fun engine => ⟨_, _, run_fold engine u, ?_⟩⟩
  have hsublist := sublist_ids_fold engine.scope u engine.host
  rw [hids] at hsublist
  exact ⟨hsublist, List.pairwise_lt_range.sublist hsublist⟩

/-! ## Two truth values and a rate -/

/-- The formula `Array(TRUE, rate, FALSE)`. -/
def ratedTruths : Expr :=
  .call 0 Builtin.array.definition [.call 1 (Builtin.constant true).definition [],
    .var 2 "rate" [], .call 3 (Builtin.constant false).definition []]

/-- With a variable `rate` the name is printed by the variable with the next number. -/
theorem prints_rate : Parse.Prints .plain withNumber.names "rate".toList
    (.upTo 0 (.var 2 "rate" [])) 2 3 := by
  have hreads : Spelling.plain.Reads "rate" := reads_of_isAsciiIdentifier rfl (by decide)
  have hvar : withNumber.names.isVariable "rate" = true := by decide +kernel
  have hfunction : Registry.builtin.get? "rate" = none := by
    rw [← Option.isNone_iff_eq_none]
    decide +kernel
  have hsame : withNumber.names.function? = Registry.builtin.get? := rfl
  have hnone : withNumber.names.function? "rate" = none := by rw [hsame, hfunction]
  exact .var hreads hnone hvar

/-- The list of arguments prints the call: truth values are calls without arguments, each numbered
when its name is read, before the variable or behind it. -/
theorem prints_ratedTruths {names : Names} (hbuiltins : Parse.NamesBuiltins .plain names)
    (hrate : Parse.Prints .plain names "rate".toList (.upTo 0 (.var 2 "rate" [])) 2 3) :
    Parse.Prints .plain names "Array(TRUE, rate, FALSE)".toList (.upTo 0 ratedTruths) 0 4 := by
  have hclear := Spelling.clear_plain
  obtain ⟨hreads, hf⟩ := hbuiltins .array (by simp [Builtin.all])
  have hitems : Parse.PrintsList .plain names ((boolText true).toList ++ ',' :: ' ' ::
      ("rate".toList ++ ',' :: ' ' :: (boolText false).toList))
      [.call 1 (Builtin.constant true).definition [], .var 2 "rate" [],
        .call 3 (Builtin.constant false).definition []] 1 4 :=
    .item hclear (Parse.prints_boolean hbuiltins true 1) (.item hclear hrate
      (.lastItem (Parse.prints_boolean hbuiltins false 3)))
  have hcall : Parse.Prints .plain names (Builtin.array.name.toList ++
      '(' :: ((boolText true).toList ++ ',' :: ' ' ::
        ("rate".toList ++ ',' :: ' ' :: (boolText false).toList) ++ [')']))
      (.upTo 0 ratedTruths) 0 4 :=
    .call (f := Builtin.array.definition) hclear hreads hf rfl hitems
  have htext : Builtin.array.name.toList ++ '(' :: ((boolText true).toList ++ ',' :: ' ' ::
      ("rate".toList ++ ',' :: ' ' :: (boolText false).toList) ++ [')']) =
        "Array(TRUE, rate, FALSE)".toList := by decide +kernel
  rwa [htext] at hcall

/-- The numbers are given in the order of the text, to the call before its arguments. -/
theorem parseSource_ratedTruths :
    parseSource withNumber.names .plain "Array(TRUE, rate, FALSE)".toList = .ok ratedTruths := by
  have hbuiltins : Parse.NamesBuiltins .plain withNumber.names :=
    @namesBuiltins withNumber Spelling.clear_plain rfl
  exact Parse.parseSource_of_prints rfl (prints_ratedTruths hbuiltins prints_rate) (Nat.zero_le 5)

/-- The engine with that variable parses the text so. -/
theorem parsed_ratedTruths : withNumber.parsed "Array(TRUE, rate, FALSE)" = .ok ratedTruths := by
  have hstrip : stripComments "Array(TRUE, rate, FALSE)".toList =
      "Array(TRUE, rate, FALSE)".toList :=
    stripComments_of_commented (.refl _) (by decide +kernel)
  have hspelling : withNumber.spelling = .plain := rfl
  rw [parsed, hstrip, hspelling, parseSource_ratedTruths]

/-- Folding leaves some of the numbers `0` to `3`, in their order. -/
theorem numbered_of_parse_ratedTruths :
    parseSource withNumber.names .plain "Array(TRUE, rate, FALSE)".toList = .ok ratedTruths ∧
      (∃ t host, (Engine.fold ratedTruths).run.run withNumber = (.ok t, { withNumber with host }) ∧
        (t.nodes.filterMap Expr.id?).Sublist [0, 1, 2, 3] ∧
        (t.nodes.filterMap Expr.id?).Pairwise (· < ·)) ∧
      ∃ t, ((parse "Array(TRUE, rate, FALSE)").run.run withNumber).1 = .ok t ∧
        (t.nodes.filterMap Expr.id?).Nodup := by
  obtain ⟨hnumbered, hnodup⟩ := numbered_of_parse withNumber
  have hread := reads_of_parsed parsed_ratedTruths
  obtain ⟨count, hids, hfold⟩ := hnumbered _ _ parseSource_ratedTruths
  obtain ⟨t, host, hrun, hsublist, hgrow⟩ := hfold withNumber
  rw [← hids] at hsublist
  exact ⟨parseSource_ratedTruths, ⟨t, host, hrun, hsublist, hgrow⟩, _, hread, hnodup _ _ hread⟩

end Formula.Engine
