import ObjectSql.Proofs.Expr.Construction

/-!
# Negation

Conditions are read in three-valued logic: a comparison with `NULL` is unknown, a list has a value if it is equal
to one of the items, and tests for `NULL` and for rows are never unknown. A negation negates what an expression
says, no negation stands over a test, and the negation of a negation is the expression itself.
-/
namespace ObjectSql

/-! ## Truth values -/

namespace Truth

/-- Negation, where unknown stays unknown. -/
def negation : Option Bool → Option Bool := Option.map (!·)

/-- Whether both hold: not if one of them does not, whatever the other one is. -/
def both : Option Bool → Option Bool → Option Bool
  | some false, _ | _, some false => some false
  | some true, some true => some true
  | _, _ => none

def either : Option Bool → Option Bool → Option Bool
  | some true, _ | _, some true => some true
  | some false, some false => some false
  | _, _ => none

def any : List (Option Bool) → Option Bool := List.foldr either (some false)

def negatedIf (negated : Bool) (t : Option Bool) : Option Bool :=
  if negated then negation t else t

def toValue : Option Bool → Value
  | some b => .bool b
  | none => .null

@[simp] theorem negation_negation (t : Option Bool) : negation (negation t) = t := by
  cases t <;> simp [negation]

theorem negatedIf_not (negated : Bool) (t : Option Bool) :
    negatedIf (!negated) t = negation (negatedIf negated t) := by
  cases negated <;> simp [negatedIf]

end Truth

open Truth

/-! ## Reading expressions -/

/-- The values of columns and placeholders, and what the operators and functions of a product make of values. -/
structure Interpretation where
  column : (table : Option TableRef) → (name : String) → Value
  parameter : BoundParameter → Value
  /-- Whether a value that is neither null nor a truth value counts as true. -/
  isTrue : Value → Bool
  /-- Whether a comparison or `LIKE` holds of values that are not null. -/
  holds : BinaryOp → Value → Value → Bool
  calculate : BinaryOp → Value → Value → Value
  function : (name : String) → List Value → Value
  template : (text : String) → List Value → Value
  aggregate : (function : String) → Expr → Value
  /-- The value of a query in place of an expression. -/
  scalar : Select → Value
  hasRow : Select → Bool
  raw : (sql : String) → Value
  map : MapBinding → Value

namespace Interpretation

variable (i : Interpretation)

def truthOf : Value → Option Bool
  | .null => none
  | .bool b => some b
  | v => some (i.isTrue v)

def compare (op : BinaryOp) (v w : Value) : Option Bool :=
  if v.isNull || w.isNull then none else some (i.holds op v w)

def operate (op : BinaryOp) (v w : Value) : Value :=
  match op with
  | .and => toValue (both (i.truthOf v) (i.truthOf w))
  | .or => toValue (either (i.truthOf v) (i.truthOf w))
  | .eq | .ne | .lt | .le | .gt | .ge | .like => toValue (i.compare op v w)
  | .add | .sub | .mul | .div => i.calculate op v w

def isAmong (v : Value) (items : List Value) : Option Bool := any (items.map (i.compare .eq v))

mutual

def value : Expr → Value
  | ⟨_, _, table, node⟩ => valueOf table node

def valueOf (table : Option TableRef) : Node → Value
  | .column name => i.column table name
  | .literal v => v
  | .null => .null
  | .parameter p => i.parameter p
  | .function name args => i.function name (values args)
  | .template text args => i.template text (values args)
  | .binary left op right => i.operate op (value left) (value right)
  | .not operand => toValue (negation (i.truthOf (value operand)))
  | .isNull operand negated => toValue (negatedIf negated (some (value operand).isNull))
  | .inList operand list negated =>
    toValue (negatedIf negated (i.isAmong (value operand) (values list)))
  | .aggregate function arg => i.aggregate function arg
  | .subquery query => i.scalar query
  | .exists query negated => toValue (negatedIf negated (some (i.hasRow query)))
  | .raw sql => i.raw sql
  | .map binding => i.map binding

def values : List Expr → List Value
  | [] => []
  | e :: es => value e :: values es

end

def truth (e : Expr) : Option Bool := i.truthOf (i.value e)

@[simp] theorem truthOf_toValue (t : Option Bool) : i.truthOf (toValue t) = t := by
  rcases t with - | b
  · rfl
  · rfl

end Interpretation

/-! ## Negations -/

namespace Expr

variable {e : Expr}

theorem negate_of_not_inPlace (h : e.negatesInPlace = false) : e.negate = predicate e.table (.not e) := by
  obtain ⟨category, logicalType, table, node⟩ := e
  cases node with
  | not | isNull | inList | «exists» => simp [negatesInPlace] at h
  | _ => rfl

/-- The negation of a new negation is its operand, and tests are flipped twice. -/
theorem Formed.negate_negate (h : e.Formed) : e.negate.negate = e := by
  -- A flipped test is a predicate over the table that it had, so it has to have been one before.
  by_cases hplace : e.negatesInPlace = true
  · obtain ⟨category, logicalType, table, node⟩ := e
    cases node with
    | not operand =>
      rw [h.1]
      exact negate_of_not_inPlace h.2
    | isNull operand negated | inList operand list negated | «exists» query negated =>
      rw [h]
      simp [negate, predicate]
    | _ => simp [negatesInPlace] at hplace
  · have hnot : e.negate = predicate e.table (.not e) := negate_of_not_inPlace (by simpa using hplace)
    rw [hnot]
    rfl

theorem Formed.not_over_test (h : e.Formed) {operand : Expr} (he : e.node = .not operand) :
    operand.negatesInPlace = false := by
  unfold Formed at h
  rw [he] at h
  exact h.2

variable (i : Interpretation)

theorem truth_not (table : Option TableRef) (e : Expr) :
    i.truth (predicate table (.not e)) = negation (i.truth e) := i.truthOf_toValue _

theorem truth_inList_nil (e : Expr) : i.truth (e.inList []) = some false := rfl

/-- Each test says the opposite when it is flipped, and what is not a test is put under `NOT`. -/
theorem truth_negate (e : Expr) : i.truth e.negate = negation (i.truth e) := by
  obtain ⟨category, logicalType, table, node⟩ := e
  cases node with
  | not operand =>
    change i.truth operand = negation (i.truthOf (toValue (negation (i.truth operand))))
    rw [i.truthOf_toValue, negation_negation]
  | isNull operand negated | inList operand list negated | «exists» query negated =>
    simp only [negate, predicate, Interpretation.truth, Interpretation.value, Interpretation.valueOf,
      Interpretation.truthOf_toValue, negatedIf_not]
  | _ =>
    rw [negate_of_not_inPlace rfl, truth_not]

/-- A negation can be undone, none stands over a negation or a test, and each says the opposite of its operand:
true where it is false, false where it is true, and unknown where it is unknown. -/
theorem Built.negate_says_opposite (h : e.Built) :
    e.negate.negate = e ∧
      (∀ f ∈ e.parts, ∀ operand, f.node = .not operand → operand.negatesInPlace = false) ∧
      ∀ i : Interpretation, i.truth e.negate = negation (i.truth e) :=
  have hall := h.wellFormed
  ⟨hall.formed.negate_negate, fun f hf _ hnode => (hall f hf).not_over_test hnode,
    fun i => truth_negate i e⟩

def amountAmong (list : List Expr) : Expr := (column ⟨"ORDERS", "A0"⟩ "AMOUNT" "decimal").inList list

/-- Each amount is outside of the empty list, also an amount that is not given, and it is unknown whether one is
outside of a list with `NULL`. -/
theorem negate_says_opposite_amount :
    ((amountAmong []).Built ∧ (amountAmong [null]).Built) ∧
      (amountAmong []).negate.negate = amountAmong [] ∧
      ∀ i : Interpretation, i.truth (amountAmong []).negate = some true ∧
        i.truth (amountAmong [null]).negate = negation none := by
  have hnone : (amountAmong []).Built := .inList (.column _ _ _) (by simp)
  have hnull : (amountAmong [null]).Built := .inList (.column _ _ _) (by simp [Built.null])
  obtain ⟨hinvolution, -, hempty⟩ := hnone.negate_says_opposite
  obtain ⟨-, -, hunknown⟩ := hnull.negate_says_opposite
  refine ⟨⟨hnone, hnull⟩, hinvolution, fun i => ⟨?_, ?_⟩⟩
  · rw [hempty i, amountAmong, truth_inList_nil]
    rfl
  · rw [hunknown i]
    simp [amountAmong, inList, predicate, null, typed, Interpretation.truth, Interpretation.value,
      Interpretation.valueOf, Interpretation.values, Interpretation.isAmong, Interpretation.compare,
      Value.isNull, any, either, negatedIf]

end Expr

end ObjectSql
