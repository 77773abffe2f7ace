import Formula.Proofs.Expr.Nodes
import Formula.Proofs.Token.Comment
import Formula.Trace

/-!
# Annotated formulas without their comments

An annotated formula is the formula as a trace prints it, with comments put in.  Leaving these out
gives the formula back, as long as nothing in it starts a comment and no value ends one
(`stripComments_render`).
-/

namespace Formula

/-! ## Shown nodes -/

namespace Expr

mutual

/-- The nodes that are written one by one where an expression is printed.  A path is written as its
text, whatever is in it. -/
def shown : Expr → List Expr
  | literal v => [literal v]
  | unary op e => unary op e :: shown e
  | binary op l r => binary op l r :: (shown l ++ shown r)
  | call id f args => call id f args :: shownOfAll args
  | var id name index => var id name index :: shownOfAll index
  | path id steps text => [path id steps text]

/-- The nodes that are written where some expressions are printed. -/
def shownOfAll : List Expr → List Expr
  | [] => []
  | e :: es => shown e ++ shownOfAll es

end

/-- What is shown of one of some expressions is shown of all of them. -/
theorem mem_shownOfAll {es : List Expr} {e node : Expr} (he : e ∈ es) (h : node ∈ e.shown) :
    node ∈ shownOfAll es := by
  induction es with
  | nil => cases he
  | cons e' es ih =>
    rw [shownOfAll, List.mem_append]
    rcases List.mem_cons.mp he with rfl | he
    · exact .inl h
    · exact .inr (ih he)

/-- What is shown of some expressions is shown of one of them. -/
theorem exists_of_mem_shownOfAll {es : List Expr} {node : Expr} (h : node ∈ shownOfAll es) :
    ∃ e ∈ es, node ∈ e.shown := by
  induction es with
  | nil => cases h
  | cons e es ih =>
    rw [shownOfAll, List.mem_append] at h
    rcases h with h | h
    · exact ⟨e, List.mem_cons_self, h⟩
    · obtain ⟨e', he', h⟩ := ih h
      exact ⟨e', List.mem_cons_of_mem _ he', h⟩

section
variable {op : UnaryOp} {bop : BinaryOp} {e l r node : Expr} {id : Nat} {f : FunctionDef}
  {args indices : List Expr} {name : String}

theorem mem_shown_operand (h : node ∈ e.shown) : node ∈ (unary op e).shown :=
  List.mem_cons_of_mem _ h

theorem mem_shown_left (h : node ∈ l.shown) : node ∈ (binary bop l r).shown :=
  List.mem_cons_of_mem _ (List.mem_append_left _ h)

theorem mem_shown_right (h : node ∈ r.shown) : node ∈ (binary bop l r).shown :=
  List.mem_cons_of_mem _ (List.mem_append_right _ h)

theorem mem_shown_argument (he : e ∈ args) (h : node ∈ e.shown) : node ∈ (call id f args).shown :=
  List.mem_cons_of_mem _ (mem_shownOfAll he h)

theorem mem_shown_index (he : e ∈ indices) (h : node ∈ e.shown) :
    node ∈ (var id name indices).shown :=
  List.mem_cons_of_mem _ (mem_shownOfAll he h)

/-- Shown nodes are nodes of the expression. -/
theorem mem_nodes_of_mem_shown (h : node ∈ e.shown) : node ∈ e.nodes := by
  induction e with
  | literal v => exact h
  | unary op e ih =>
    rcases List.mem_cons.mp h with rfl | h
    · exact List.mem_cons_self
    · exact mem_nodes_operand (ih h)
  | binary op l r ihl ihr =>
    rcases List.mem_cons.mp h with rfl | h
    · exact List.mem_cons_self
    · rcases List.mem_append.mp h with h | h
      · exact mem_nodes_left (ihl h)
      · exact mem_nodes_right (ihr h)
  | call id f args ih =>
    rcases List.mem_cons.mp h with rfl | h
    · exact List.mem_cons_self
    · obtain ⟨e, he, h⟩ := exists_of_mem_shownOfAll h
      exact mem_nodes_argument he (ih e he h)
  | var id name index ih =>
    rcases List.mem_cons.mp h with rfl | h
    · exact List.mem_cons_self
    · obtain ⟨e, he, h⟩ := exists_of_mem_shownOfAll h
      exact mem_nodes_index he (ih e he h)
  | path id steps text =>
    rw [List.mem_singleton.mp h]
    exact List.mem_cons_self

end

end Expr

/-! ## Putting in comments -/

/-- A pair of characters that is not in a text is not in it between two others either, if these do
not belong to the pair. -/
theorem not_infix_enclosed {a b c d : Char} {text : List Char} (hc : a ≠ c) (hd : b ≠ d)
    (h : ¬ [a, b] <:+: text) : ¬ [a, b] <:+: c :: (text ++ [d]) := by
  rw [List.infix_cons_iff, List.infix_concat_iff]
  rintro (hfront | hback | hinside)
  · exact hc (List.cons_prefix_cons.mp hfront).1
  · have hlast : [a, b].reverse <+: (text ++ [d]).reverse := List.reverse_prefix.mpr hback
    rw [List.reverse_append] at hlast
    exact hd (List.cons_prefix_cons.mp hlast).1
  · exact h hinside

namespace Trace

variable {recorded : Recorded} {result : Value} {e : Expr}

/-- The values in the comments on the shown nodes. -/
def shownValues (recorded : Recorded) (e : Expr) : List Value :=
  e.shown.filterMap fun node => node.id?.bind (recorded.lookup ·)

/-- The value that was recorded for a shown node stands in the comment on it. -/
theorem mem_shownValues {node : Expr} {id : Nat} {v : Value} (hmem : node ∈ e.shown)
    (hid : node.id? = some id) (hv : recorded.lookup id = some v) : v ∈ shownValues recorded e := by
  refine List.mem_filterMap.mpr ⟨node, hmem, ?_⟩
  rw [hid]
  exact hv

/-- Whether a value can stand in a comment. -/
def FitsComment (v : Value) : Prop := ¬ ['*', '/'] <:+: v.toText.toList

theorem annotation_toList (v : Value) : ( annotation v).toList =
    '/' :: '*' :: (('\x7b' :: (v.toText.toList ++ ['\x7d'])) ++ ['*', '/']) := by
  simp [ annotation]

theorem commented_annotation {v : Value} (h : FitsComment v) {u w : List Char}
    (hu : Commented u w) : Commented (u ++ ( annotation v).toList) w := by
  rw [annotation_toList]
  exact hu.behind (not_infix_enclosed (by decide) (by decide) h)

/-- The comment on a node can be left out if its value fits, and there is none without a value. -/
theorem commented_annotationOf {id : Nat} (h : ∀ v, recorded.lookup id = some v → FitsComment v)
    {u w : List Char} (hu : Commented u w) :
    Commented (u ++ (annotationOf recorded id).toList) (w ++ (annotationOf [] id).toList) := by
  rw [show (annotationOf [] id).toList = [] from rfl, List.append_nil, annotationOf]
  split
  · next v hv => exact commented_annotation (h v hv) hu
  · rwa [show "".toList = [] from rfl, List.append_nil]

/-- Of an operand, brackets or not. -/
theorem commented_bracketed {operand : Expr} {text text' : String}
    (h : Commented text.toList text'.toList) :
    Commented (operand.bracketed text).toList (operand.bracketed text').toList := by
  unfold Expr.bracketed
  split
  · simp only [String.toList_append]
    exact ((Commented.refl _).append h).append (.refl _)
  · exact h

/-- The comments in a list can be left out if those in its elements can. -/
theorem commented_annotatedList {es : List Expr}
    (h : ∀ e ∈ es, Commented (annotated recorded e).toList (annotated [] e).toList) :
    Commented (annotatedList recorded es).toList (annotatedList [] es).toList := by
  induction es with
  | nil => exact .refl _
  | cons e es ih =>
    obtain ⟨he, hes⟩ := List.forall_mem_cons.mp h
    cases es with
    | nil => exact he
    | cons e' es =>
      simp only [annotatedList, String.toList_append]
      exact (he.append (.refl _)).append (ih hes)

/-- An annotated formula is the formula with comments put in. -/
theorem commented_annotated (h : ∀ v ∈ shownValues recorded e, FitsComment v) :
    Commented (annotated recorded e).toList (annotated [] e).toList := by
  -- What is said of the values of shown nodes is said of their parts.
  have hnodes : ∀ node ∈ e.shown, ∀ id, node.id? = some id → ∀ v, recorded.lookup id = some v →
      FitsComment v := fun node hmem id hid v hv => h v (mem_shownValues hmem hid hv)
  clear h
  induction e with
  | literal v => exact .refl _
  | unary op e ih =>
    simp only [annotated, String.toList_append]
    refine (Commented.refl _).append (commented_bracketed (ih ?_))
    exact fun node hmem => hnodes node (Expr.mem_shown_operand hmem)
  | binary op l r ihl ihr =>
    have hl := ihl fun node hmem => hnodes node (Expr.mem_shown_left hmem)
    have hr := ihr fun node hmem => hnodes node (Expr.mem_shown_right hmem)
    simp only [annotated, String.toList_append]
    exact ((((commented_bracketed hl).append (.refl _)).append (.refl _)).append (.refl _)).append
      (commented_bracketed hr)
  | call id f args ih =>
    have hargs := commented_annotatedList fun a ha =>
      ih a ha fun node hmem => hnodes node (Expr.mem_shown_argument ha hmem)
    simp only [annotated, String.toList_append]
    refine commented_annotationOf (hnodes _ List.mem_cons_self id rfl) ?_
    exact (((Commented.refl _).append (.refl _)).append hargs).append (.refl _)
  | var id name index ih =>
    have hindex := commented_annotatedList fun a ha =>
      ih a ha fun node hmem => hnodes node (Expr.mem_shown_index ha hmem)
    have hself := hnodes _ List.mem_cons_self id rfl
    cases index with
    | nil =>
      simp only [annotated, String.toList_append]
      exact commented_annotationOf hself (.refl _)
    | cons =>
      simp only [annotated, String.toList_append]
      refine commented_annotationOf hself ?_
      exact (((Commented.refl _).append (.refl _)).append hindex).append (.refl _)
  | path id steps text =>
    simp only [annotated, String.toList_append]
    exact commented_annotationOf (hnodes _ List.mem_cons_self id rfl) (.refl _)

/-- A trace without its comments is the formula, perhaps in brackets. -/
theorem stripComments_render (hformula : ¬ ['/', '*'] <:+: (annotated [] e).toList)
    (hvalues : ∀ v ∈ result :: shownValues recorded e, FitsComment v) :
    stripComments (render e recorded result).toList = (annotated [] e).toList ∨
      stripComments (render e recorded result).toList =
        '(' :: ((annotated [] e).toList ++ [')']) := by
  obtain ⟨hresult, hvalues⟩ := List.forall_mem_cons.mp hvalues
  have hwritten := commented_annotated hvalues
  unfold render
  dsimp only
  split
  · exact .inl (stripComments_of_commented hwritten hformula)
  · have hall : Commented ("(" ++ annotated recorded e ++ ")" ++ annotation result).toList
        ('(' :: ((annotated [] e).toList ++ [')'])) := by
      rw [String.toList_append]
      refine commented_annotation hresult ?_
      simp only [String.toList_append]
      exact ((Commented.refl ['(']).append hwritten).append (.refl [')'])
    refine .inr (stripComments_of_commented hall ?_)
    exact not_infix_enclosed (by decide) (by decide) hformula

end Trace

end Formula
