import ObjectSql.Expr.Basic

/-!
# Equality of expressions

Two expressions are the same if they have the same shape and the same parts. Floats are compared as
numbers, so that an expression with a NaN differs from itself and zeros of both signs are the same.
-/
namespace ObjectSql

mutual

def Expr.same : Expr → Expr → Bool
  | ⟨category, logicalType, table, node⟩, ⟨category', logicalType', table', node'⟩ =>
    category == category' && logicalType == logicalType' && table == table' && node.same node'

def Node.same : Node → Node → Bool
  | .column name, .column name' => name == name'
  | .literal value, .literal value' => value.same value'
  | .null, .null => true
  | .parameter p, .parameter p' => p.same p'
  | .function name args, .function name' args' => name == name' && sameExprs args args'
  | .template text args, .template text' args' => text == text' && sameExprs args args'
  | .binary left op right, .binary left' op' right' =>
    left.same left' && op == op' && right.same right'
  | .not operand, .not operand' => operand.same operand'
  | .isNull operand negated, .isNull operand' negated' =>
    operand.same operand' && negated == negated'
  | .inList operand list negated, .inList operand' list' negated' =>
    operand.same operand' && sameExprs list list' && negated == negated'
  | .aggregate function arg, .aggregate function' arg' => function == function' && arg.same arg'
  | .subquery query, .subquery query' => query.same query'
  | .exists query negated, .exists query' negated' => query.same query' && negated == negated'
  | .raw sql, .raw sql' => sql == sql'
  | .map binding, .map binding' => binding == binding'
  | _, _ => false

def Join.same : Join → Join → Bool
  | ⟨kind, table, on⟩, ⟨kind', table', on'⟩ =>
    kind == kind' && table == table' && sameExprs on on'

def OrderItem.same : OrderItem → OrderItem → Bool
  | ⟨expr, descending, nulls⟩, ⟨expr', descending', nulls'⟩ =>
    expr.same expr' && descending == descending' && nulls == nulls'

def Select.same : Select → Select → Bool
  | ⟨table, joins, distinct, projection, conditions, groupBy, having, ordering, offset, count,
      nextAlias⟩,
    ⟨table', joins', distinct', projection', conditions', groupBy', having', ordering', offset',
      count', nextAlias'⟩ =>
    table == table' && sameJoins joins joins' && distinct == distinct' &&
      sameExprs projection projection' && sameExprs conditions conditions' &&
      sameExprs groupBy groupBy' && sameExprs having having' && sameItems ordering ordering' &&
      offset == offset' && count == count' && nextAlias == nextAlias'

def sameExprs : List Expr → List Expr → Bool
  | [], [] => true
  | e :: es, f :: fs => e.same f && sameExprs es fs
  | _, _ => false

def sameJoins : List Join → List Join → Bool
  | [], [] => true
  | j :: js, k :: ks => j.same k && sameJoins js ks
  | _, _ => false

def sameItems : List OrderItem → List OrderItem → Bool
  | [], [] => true
  | i :: is, j :: js => i.same j && sameItems is js
  | _, _ => false

end

end ObjectSql
