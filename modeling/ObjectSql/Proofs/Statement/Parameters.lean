import ObjectSql.Expr.Render
import ObjectSql.Proofs.Statement.Text

/-!
# Parameters of rendered statements

The parameters of a text follow from the statement alone: they stand in the order of its clauses,
for every product and whether rows are locked or not. A template repeats the parameters of an
argument in every slot of it, and a test of an empty list keeps none.
-/
namespace ObjectSql

open Text SqlText

/-! ## Texts -/

namespace SqlText

theorem concat_params (ts : List SqlText) : (concat ts).params = (ts.map params).flatten := by
  induction ts with
  | nil => rfl
  | cons t ts ih => rw [concat, append_params, ih, List.map_cons, List.flatten_cons]

theorem joined_params (sep : String) (ts : List SqlText) :
    (joined sep ts).params = (ts.map params).flatten := by
  induction ts with
  | nil => rfl
  | cons t ts ih =>
    cases ts with
    | nil => exact (List.append_nil _).symm
    | cons u ts =>
      have hjoined : joined sep (t :: u :: ts) = t ++ raw sep ++ joined sep (u :: ts) := rfl
      simp [hjoined, ih, raw]

theorem clause_params (keyword sep : String) (ts : List SqlText) :
    (clause keyword sep ts).params = (ts.map params).flatten := by
  unfold clause
  split
  · next hempty => rw [List.isEmpty_iff.mp hempty]; rfl
  · exact joined_params sep ts

@[simp] theorem raw_params (s : String) : (raw s).params = [] := rfl

@[simp] theorem parens_params (t : SqlText) : t.parens.params = t.params := by simp [parens]

@[simp] theorem parensIf_params (b : Bool) (t : SqlText) : (t.parensIf b).params = t.params := by
  cases b <;> simp [parensIf]

end SqlText

namespace Template

/-- The parameters of what stands for a pair of braces around `inner`. -/
def slotParams (args : List (List BoundParameter)) (inner : List Char) : List BoundParameter :=
  ((readIndex inner).bind (args[·]?)).getD []

/-- The parameters of a filled text that begins outside braces, or after an opening brace. -/
def fillParams (args : List (List BoundParameter)) :
    (inner : Option (List Char)) → List Char → List BoundParameter
  | _, [] => []
  | none, c :: cs => fillParams args (if c = '\x7b' then some [] else none) cs
  | some inner, c :: cs =>
    if c = '\x7d' then slotParams args inner ++ fillParams args none cs
    else fillParams args (some (inner ++ [c])) cs

theorem slot_params (args : List SqlText) (inner : List Char) :
    (slot args inner).params = slotParams (args.map params) inner := by
  cases hindex : readIndex inner with
  | none => simp [slot, slotParams, hindex]
  | some i => cases harg : args[i]? <;> simp [slot, slotParams, hindex, harg]

theorem fillFrom_params (args : List SqlText) (inner : Option (List Char)) (cs : List Char) :
    (fillFrom args inner cs).params = fillParams (args.map params) inner cs := by
  induction cs generalizing inner with
  | nil => cases inner <;> rfl
  | cons c cs ih =>
    cases inner with
    | none => by_cases hc : c = '\x7b' <;> simp [fillFrom, fillParams, hc, ih]
    | some inner => by_cases hc : c = '\x7d' <;> simp [fillFrom, fillParams, hc, ih, slot_params]

end Template

/-! ## Statements -/

mutual

/-- The parameters of an expression in the order of their placeholders. -/
def Expr.params : Expr → List BoundParameter
  | ⟨_, _, _, node⟩ => node.params

def Node.params : Node → List BoundParameter
  | .column _ | .literal _ | .null | .raw _ | .map _ => []
  | .parameter param => [param]
  | .function _ args => (exprsParams args).flatten
  | .template text args => Template.fillParams (exprsParams args) none text.toList
  | .binary left _ right => left.params ++ right.params
  | .not operand | .isNull operand _ => operand.params
  | .inList operand list _ =>
    if list.isEmpty then [] else operand.params ++ (exprsParams list).flatten
  | .aggregate _ arg => arg.params
  | .subquery query | .exists query _ => query.params

def Join.params : Join → List BoundParameter
  | ⟨_, _, on⟩ => (exprsParams on).flatten

def OrderItem.params : OrderItem → List BoundParameter
  | ⟨expr, _, _⟩ => expr.params

def Select.params : Select → List BoundParameter
  | ⟨_, joins, _, projection, conditions, groupBy, having, ordering, _, _, _⟩ =>
    (exprsParams projection).flatten ++ (joinsParams joins).flatten ++
      (exprsParams conditions).flatten ++ (exprsParams groupBy).flatten ++
      (exprsParams having).flatten ++ (itemsParams ordering).flatten

def exprsParams : List Expr → List (List BoundParameter)
  | [] => []
  | e :: es => e.params :: exprsParams es

def joinsParams : List Join → List (List BoundParameter)
  | [] => []
  | j :: js => j.params :: joinsParams js

def itemsParams : List OrderItem → List (List BoundParameter)
  | [] => []
  | i :: is => i.params :: itemsParams is

end

theorem exprsParams_eq_map (es : List Expr) : exprsParams es = es.map Expr.params := by
  induction es with
  | nil => rfl
  | cons e es ih => rw [exprsParams, ih, List.map_cons]

theorem exprsParams_append (es es' : List Expr) :
    exprsParams (es ++ es') = exprsParams es ++ exprsParams es' := by
  simp only [exprsParams_eq_map, List.map_append]

theorem joinsParams_eq_map (js : List Join) : joinsParams js = js.map Join.params := by
  induction js with
  | nil => rfl
  | cons j js ih => rw [joinsParams, ih, List.map_cons]

section

variable (p : Profile)

mutual

theorem Expr.toSql_params : ∀ e : Expr, (e.toSql p).params = e.params
  | ⟨_, _, table, node⟩ => node.toSql_params table

theorem Node.toSql_params (table : Option TableRef) :
    ∀ n : Node, (n.toSql p table).params = n.params
  | .column _ | .literal _ | .null | .raw _ | .map _ => by simp [Node.toSql, Node.params]
  | .parameter param => by rw [Node.toSql, Node.params]; rfl
  | .function name args => by
    simp [Node.toSql, Node.params, joined_params, exprsToSql_params args]
  | .template text args => by
    rw [Node.toSql, Node.params, Template.fill, Template.fillFrom_params, exprsToSql_params args]
  | .binary left op right => by
    simp [Node.toSql, Node.params, left.toSql_params, right.toSql_params]
  | .not operand | .isNull operand _ => by simp [Node.toSql, Node.params, operand.toSql_params]
  | .inList operand list negated => by
    rw [Node.toSql, Node.params]
    split
    · rfl
    · simp [joined_params, operand.toSql_params, exprsToSql_params list]
  | .aggregate _ arg => by simp [Node.toSql, Node.params, arg.toSql_params]
  | .subquery query | .exists query _ => by
    simp [Node.toSql, Node.params, query.toSqlWith_params .none]

theorem Join.toSql_params : ∀ j : Join, (j.toSql p).params = j.params
  | ⟨kind, table, on⟩ => by
    simp [Join.toSql, Join.params, clause_params, conditionsToSql_params on]

theorem OrderItem.toSql_params : ∀ i : OrderItem, (i.toSql p).params = i.params
  | ⟨expr, descending, nulls⟩ => by simp [OrderItem.toSql, OrderItem.params, expr.toSql_params]

theorem Select.toSqlWith_params (lock : LockStyle) :
    ∀ s : Select, (s.toSqlWith p lock).params = s.params
  | ⟨table, joins, distinct, projection, conditions, groupBy, having, ordering, offset, count,
      _⟩ => by
    have hcolumns : (if projection.isEmpty then raw "1"
        else joined ", " (exprsToSql p projection)).params = (exprsParams projection).flatten := by
      split
      · next hempty => rw [List.isEmpty_iff.mp hempty]; rfl
      · rw [joined_params, exprsToSql_params projection]
    simp only [Select.toSqlWith, Select.params, append_params, raw_params, List.nil_append,
      List.append_nil, hcolumns, concat_params, clause_params, joinsToSql_params joins,
      conditionsToSql_params conditions, exprsToSql_params groupBy, conditionsToSql_params having,
      itemsToSql_params ordering]

theorem exprsToSql_params : ∀ es : List Expr, (exprsToSql p es).map params = exprsParams es
  | [] => rfl
  | e :: es => by
    rw [exprsToSql, exprsParams, List.map_cons, e.toSql_params, exprsToSql_params es]

theorem conditionsToSql_params :
    ∀ es : List Expr, (conditionsToSql p es).map params = exprsParams es
  | [] => rfl
  | e :: es => by
    rw [conditionsToSql, exprsParams, List.map_cons, parensIf_params, e.toSql_params,
      conditionsToSql_params es]

theorem joinsToSql_params : ∀ js : List Join, (joinsToSql p js).map params = joinsParams js
  | [] => rfl
  | j :: js => by
    rw [joinsToSql, joinsParams, List.map_cons, j.toSql_params, joinsToSql_params js]

theorem itemsToSql_params : ∀ is : List OrderItem, (itemsToSql p is).map params = itemsParams is
  | [] => rfl
  | i :: is => by
    rw [itemsToSql, itemsParams, List.map_cons, i.toSql_params, itemsToSql_params is]

end

/-- Products and locks change the text of a statement and not its parameters. -/
theorem Select.toSql_params (locked : Bool) (s : Select) : (s.toSql p locked).params = s.params :=
  s.toSqlWith_params p _

end

end ObjectSql
