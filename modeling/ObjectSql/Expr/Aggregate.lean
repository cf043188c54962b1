import ObjectSql.Statement.Select

/-!
# Aggregates

An aggregate stands as a call where the clause allows it. Elsewhere it is a query of its own over
the table of its argument.
-/
namespace ObjectSql

inductive AggregateFunction where
  | count
  | sum
  | avg
  | min
  | max
deriving Repr, DecidableEq, Inhabited

namespace AggregateFunction

def sql : AggregateFunction → String
  | count => "COUNT"
  | sum => "SUM"
  | avg => "AVG"
  | min => "MIN"
  | max => "MAX"

/-- Category and logical type of the result; sums and averages need a number. -/
def resultType (f : AggregateFunction) (arg : Expr) : Except SqlError (Category × String) :=
  match f with
  | count => .ok (.numeric, "i64")
  | min | max => .ok (arg.category, arg.logicalType)
  | sum | avg =>
    if arg.category = .numeric then
      .ok (.numeric, if f = avg then "f64" else arg.logicalType)
    else .error (.invalidCall f.sql (.notNumeric arg.category))

def applyIn (f : AggregateFunction) (clause : Clause) (arg : Expr) : Except SqlError Expr := do
  let (category, logicalType) ← f.resultType arg
  let call : Expr := ⟨category, logicalType, arg.table, .aggregate f.sql arg⟩
  if clause.allowsAggregates then pure call
  else
    match arg.table with
    | none => .error (.invalidCall f.sql .noSourceTable)
    | some table => do
      let (_, query) ← (Select.fromTable table).select call
      pure (.subquery query category logicalType)

end AggregateFunction

end ObjectSql
