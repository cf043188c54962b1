import ObjectSql.Proofs.Expr.Equality
import ObjectSql.Proofs.Statement.Building

/-!
# Positions of projected expressions

The projection of a statement grows at its end only, so a position that is told once stands for the same
expression ever after. An expression is projected unless one that is the same stands there. An expression with
a NaN is the same as none, itself included, so every selection projects it anew.
-/
namespace ObjectSql.Select

variable {s next : Select} {e x : Expr} {position : Nat} {op : Operation} {ops : List Operation}

/-! ## One selection -/

theorem perform_select_map (h : e.category = .map) : s.perform (.select e) = s := by
  rw [perform, select_map h]

/-- Where the expression at the told position stands: it is the selected one, or the first that is the same
as it. -/
theorem Selected.exists_split (h : s.Selected e position next) :
    ∃ before x after, next.projection = before ++ x :: after ∧ position = before.length + 1 ∧
      (x = e ∨ x.same e) ∧ ∀ y ∈ before, ¬y.same e := by
  cases h with
  | found hsplit hsame hfirst => exact ⟨_, _, _, hsplit, rfl, .inr hsame, hfirst⟩
  | added hnone => exact ⟨_, e, [], rfl, rfl, .inl rfl, hnone⟩

theorem Selected.projection_prefix (h : s.Selected e position next) :
    s.projection <+: next.projection := by
  cases h with
  | found => exact List.prefix_rfl
  | added => exact List.prefix_append _ _

/-! ## Runs of operations -/

/-- What an operation does to the projection: nothing, but for a selection that is not refused. -/
theorem perform_cases (s : Select) (op : Operation) :
    (s.perform op).projection = s.projection ∨
      ∃ e position, s.Selected e position (s.perform op) := by
  cases op with
  | select e =>
    rw [perform]
    split
    · next position next h => exact .inr ⟨e, position, (select_eq_ok_iff.mp h).2⟩
    · exact .inl rfl
  | _ => exact .inl rfl

theorem projection_prefix_perform (s : Select) (op : Operation) :
    s.projection <+: (s.perform op).projection := by
  rcases s.perform_cases op with hsame | ⟨e, position, h⟩
  · exact hsame ▸ List.prefix_rfl
  · exact h.projection_prefix

theorem projection_prefix_performAll (s : Select) (ops : List Operation) :
    s.projection <+: (s.performAll ops).projection := by
  induction ops generalizing s with
  | nil => exact List.prefix_rfl
  | cons op ops ih => exact (s.projection_prefix_perform op).trans (ih _)

/-- No expression is the same as one that stands before it. -/
def Distinct (s : Select) : Prop := s.projection.Pairwise fun x y => ¬x.same y

theorem Selected.distinct (h : s.Selected e position next) (hs : s.Distinct) : next.Distinct := by
  cases h with
  | found => exact hs
  | added hnone => exact List.pairwise_append.mpr ⟨hs, List.pairwise_singleton _ _, by simpa using hnone⟩

theorem Distinct.perform (hs : s.Distinct) (op : Operation) : (s.perform op).Distinct := by
  rcases s.perform_cases op with hsame | ⟨e, position, h⟩
  · rwa [Distinct, hsame]
  · exact h.distinct hs

theorem Distinct.performAll (hs : s.Distinct) (ops : List Operation) : (s.performAll ops).Distinct := by
  induction ops generalizing s with
  | nil => exact hs
  | cons op ops ih => exact ih (hs.perform op)

/-- An expression without a NaN does not stand at two positions. -/
theorem Distinct.position_unique (hs : s.Distinct) (he : e.NanFree) {i j : Nat}
    (hi : s.projection[i]? = some e) (hj : s.projection[j]? = some e) : i = j := by
  have hbefore {i j : Nat} (hi : s.projection[i]? = some e) (hj : s.projection[j]? = some e) : ¬i < j := by
    intro hij
    obtain ⟨hilt, hi⟩ := List.getElem?_eq_some_iff.mp hi
    obtain ⟨hjlt, hj⟩ := List.getElem?_eq_some_iff.mp hj
    have hdiffer := List.pairwise_iff_getElem.mp hs i j hilt hjlt hij
    rw [hi, hj] at hdiffer
    exact hdiffer he.same_self
  have hij := hbefore hi hj
  have hji := hbefore hj hi
  omega

/-! ## Positions -/

/-- The position of a selected expression stands for one expression, whatever is done later. -/
theorem Selected.denotes (h : s.Selected e position next) :
    ∃ x, (x = e ∨ x.same e) ∧ ∀ ops, (next.performAll ops).projection[position - 1]? = some x := by
  obtain ⟨before, x, after, hsplit, rfl, hx, -⟩ := h.exists_split
  refine ⟨x, hx, fun ops => ?_⟩
  obtain ⟨more, hmore⟩ := next.projection_prefix_performAll ops
  rw [← hmore, hsplit]
  simp

/-- Without a NaN, an expression that is selected again is found where it is. -/
theorem Selected.again (h : s.Selected e position next) (he : e.NanFree) (ops : List Operation) :
    (next.performAll ops).Selected e position (next.performAll ops) := by
  obtain ⟨before, x, after, hsplit, rfl, hx, hfirst⟩ := h.exists_split
  obtain ⟨more, hmore⟩ := next.projection_prefix_performAll ops
  rw [hsplit, List.append_assoc, List.cons_append] at hmore
  have hsame : x.same e := hx.elim (fun heq => heq ▸ he.same_self) id
  exact .found hmore.symm hsame hfirst

/-- With a NaN, an expression is projected by every selection. -/
theorem Selected.anew (h : s.Selected e position next) (he : ¬e.NanFree) :
    next.projection = s.projection ++ [e] := by
  cases h with
  | found _ hsame => exact absurd (Expr.NanFree.of_same hsame) he
  | added => rfl

/-- A map is refused and changes nothing. For any other expression the position of the first one that is the
same is told, or it is appended. The position stands for one expression ever after, and the selected one is
found there again exactly if it has no NaN. In a statement that is built from its table no two expressions are
the same, so none without a NaN is projected twice. -/
theorem select_positions (s : Select) (e : Expr) :
    (∀ ops, s.projection <+: (s.performAll ops).projection) ∧
    (e.category = .map →
      s.select e = .error (.invalidCall "select" .mapProjected) ∧ s.perform (.select e) = s) ∧
    (e.category ≠ .map → ∃ position next, s.select e = .ok (position, next) ∧
      s.Selected e position next ∧
      (∃ x, (x = e ∨ x.same e) ∧ ∀ ops, (next.performAll ops).projection[position - 1]? = some x) ∧
      (e.NanFree ↔ ∀ ops, (next.performAll ops).select e = .ok (position, next.performAll ops))) ∧
    ∀ table ops, ((fromTable table).performAll ops).Distinct ∧
      ∀ i j : Nat, e.NanFree → ((fromTable table).performAll ops).projection[i]? = some e →
        ((fromTable table).performAll ops).projection[j]? = some e → i = j := by
  refine ⟨s.projection_prefix_performAll, fun h => ⟨select_map h, perform_select_map h⟩,
    fun hcategory => ?_, fun table ops => ?_⟩
  · obtain ⟨position, next, h⟩ := s.exists_selected e
    refine ⟨position, next, h.select_eq hcategory, h, h.denotes, fun he ops => ?_, fun hagain => ?_⟩
    · exact (h.again he ops).select_eq hcategory
    · by_contra he
      have hlonger := (select_eq_ok_iff.mp (hagain [])).2.anew he
      simp [performAll] at hlonger
  · have hempty : (fromTable table).Distinct := List.Pairwise.nil
    have hdistinct := hempty.performAll ops
    exact ⟨hdistinct, fun i j he => hdistinct.position_unique he⟩

def orderId : Expr := .column ⟨"ORDERS", "A0"⟩ "ID" "i64"

def ordersById : Select := { ofName "ORDERS" with projection := [orderId] }

theorem orderId_nanFree : orderId.NanFree := by
  rw [Expr.NanFree, Expr.values, orderId, Expr.column, Expr.ofType, Expr.typed, Expr.valuesBy,
    Node.valuesBy]
  exact List.not_mem_nil

theorem select_positions_orders :
    orderId.category ≠ .map ∧ orderId.NanFree ∧ (ofName "ORDERS").select orderId = .ok (1, ordersById) ∧
      (ordersById.performAll [.newTableAlias "CUSTOMER", .select .null]).select orderId =
        .ok (1, ordersById.performAll [.newTableAlias "CUSTOMER", .select .null]) := by
  have hcategory : orderId.category ≠ .map := by decide
  have hfirst : (ofName "ORDERS").select orderId = .ok (1, ordersById) := rfl
  obtain ⟨-, -, haccepted, -⟩ := select_positions (ofName "ORDERS") orderId
  obtain ⟨position, next, hselected, -, -, hagain⟩ := haccepted hcategory
  cases hselected.symm.trans hfirst
  exact ⟨hcategory, orderId_nanFree, hfirst, hagain.mp orderId_nanFree _⟩

/-- A placeholder for which a NaN is fixed. -/
def fixedNan : Expr := .fixedParameter (.member 0) (.float .nan)

/-- No literal is a NaN in a parameter, and one for which a NaN is fixed is projected twice. -/
theorem select_fixedNan_twice : .float .nan ∉ fixedNan.literals ∧
    ∃ once twice, (ofName "T").select fixedNan = .ok (1, once) ∧ once.select fixedNan = .ok (2, twice) ∧
      twice.projection = [fixedNan, fixedNan] := by
  have hliterals : .float .nan ∉ fixedNan.literals := by
    simp [fixedNan, Expr.fixedParameter, Expr.ofType, Expr.typed, Expr.literals, Expr.valuesBy,
      Node.valuesBy]
  have hnan : ¬fixedNan.NanFree := by
    simp [fixedNan, Expr.fixedParameter, Expr.ofType, Expr.typed, Expr.NanFree, Expr.values,
      Expr.valuesBy, Node.valuesBy, BoundParameter.fixedValues, BoundParameter.fixed]
  have hcategory : fixedNan.category ≠ .map := by decide
  have hnone (xs : List Expr) : ∀ y ∈ xs, ¬y.same fixedNan := fun y _ hsame => hnan (.of_same hsame)
  exact ⟨hliterals, _, _, (Selected.added (hnone _)).select_eq hcategory,
    (Selected.added (hnone _)).select_eq hcategory, rfl⟩

end ObjectSql.Select
