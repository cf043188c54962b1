import ObjectSql.Expr.Basic
import ObjectSql.Expr.Template

/-!
# SQL text of expressions and statements

An operand of an operator is put in parentheses if its own operator binds more weakly, or equally on
the right of an operator that does not associate. Conditions that are joined by `AND` are operands
of it.
-/
namespace ObjectSql

def TableRef.toSql (p : Profile) (t : TableRef) : String :=
  p.identifier .table t.name ++ " " ++ t.aliasName

/-- What a statement that locks its rows says after its table. -/
def LockStyle.hint : LockStyle → String
  | tableHint => " WITH (UPDLOCK, ROWLOCK)"
  | _ => ""

/-- What a statement that locks its rows says at its end. -/
def LockStyle.clause : LockStyle → String
  | forUpdate => " FOR UPDATE"
  | forUpdateWithRs => " FOR UPDATE WITH RS"
  | _ => ""

def NullsPlacement.clause : NullsPlacement → String
  | first => " NULLS FIRST"
  | last => " NULLS LAST"

namespace Expr

def isBinary (e : Expr) : Bool :=
  match e.node with
  | .binary _ _ _ => true
  | _ => false

/-- Whether an expression needs parentheses as an operand. -/
def needsParens (parent : BinaryOp) (onRight : Bool) (e : Expr) : Bool :=
  match e.node with
  | .binary _ op _ =>
    op.precedence < parent.precedence ||
      (onRight && op.precedence == parent.precedence && !parent.isAssociative)
  | _ => false

end Expr

/-- A keyword and its parts, or nothing if there are no parts. -/
def SqlText.clause (keyword sep : String) (parts : List SqlText) : SqlText :=
  if parts.isEmpty then empty else raw keyword ++ joined sep parts

open SqlText

mutual

def Expr.toSql (p : Profile) : Expr → SqlText
  | ⟨_, _, table, node⟩ => node.toSql p table

/-- The text of a node that reads from a table. -/
def Node.toSql (p : Profile) (table : Option TableRef) : Node → SqlText
  | .column name => raw ((table.elim "" fun t => t.aliasName ++ ".") ++ p.identifier .column name)
  | .literal value => raw (value.literal (p.supports .booleanLiterals))
  | .null => raw "NULL"
  | .parameter param => placeholder param
  | .function name args => raw name ++ parens (joined ", " (exprsToSql p args))
  | .template text args => Template.fill text (exprsToSql p args)
  | .binary left op right =>
    parensIf (left.needsParens op false) (left.toSql p) ++ raw (" " ++ op.sql ++ " ") ++
      parensIf (right.needsParens op true) (right.toSql p)
  | .not operand => raw "NOT " ++ parens (operand.toSql p)
  | .isNull operand negated =>
    parensIf operand.isBinary (operand.toSql p) ++
      raw (if negated then " IS NOT NULL" else " IS NULL")
  | .inList operand list negated =>
    if list.isEmpty then raw (if negated then "1 = 1" else "1 = 0")
    else
      parensIf operand.isBinary (operand.toSql p) ++ raw (if negated then " NOT IN " else " IN ") ++
        parens (joined ", " (exprsToSql p list))
  | .aggregate function arg => raw function ++ parens (arg.toSql p)
  | .subquery query => parens (query.toSqlWith p .none)
  | .exists query negated =>
    raw (if negated then "NOT EXISTS " else "EXISTS ") ++ parens (query.toSqlWith p .none)
  | .raw sql => raw sql
  | .map binding =>
    raw (binding.owner.aliasName ++ "." ++ p.identifier .column binding.ownerIdColumn)

def Join.toSql (p : Profile) : Join → SqlText
  | ⟨kind, table, on⟩ =>
    raw (" " ++ kind.sql ++ " " ++ table.toSql p) ++ clause " ON " " AND " (conditionsToSql p on)

def OrderItem.toSql (p : Profile) : OrderItem → SqlText
  | ⟨expr, descending, nulls⟩ =>
    expr.toSql p ++ raw (if descending then " DESC" else "") ++
      raw (if p.supports .nullsOrdering then nulls.elim "" NullsPlacement.clause else "")

/-- The text of a statement that locks its rows in the given way. -/
def Select.toSqlWith (p : Profile) (lock : LockStyle) : Select → SqlText
  | ⟨table, joins, distinct, projection, conditions, groupBy, having, ordering, offset, count, _⟩ =>
    let range := p.rangeClause offset count !ordering.isEmpty
    raw (if distinct then "SELECT DISTINCT " else "SELECT ") ++
      (if projection.isEmpty then raw "1" else joined ", " (exprsToSql p projection)) ++
      raw (" FROM " ++ table.toSql p ++ lock.hint) ++
      concat (joinsToSql p joins) ++
      clause " WHERE " " AND " (conditionsToSql p conditions) ++
      clause " GROUP BY " ", " (exprsToSql p groupBy) ++
      clause " HAVING " " AND " (conditionsToSql p having) ++
      clause " ORDER BY " ", " (itemsToSql p ordering) ++
      raw (if range.isEmpty then "" else " " ++ range) ++
      raw lock.clause

def exprsToSql (p : Profile) : List Expr → List SqlText
  | [] => []
  | e :: es => e.toSql p :: exprsToSql p es

def conditionsToSql (p : Profile) : List Expr → List SqlText
  | [] => []
  | e :: es => parensIf (e.needsParens .and false) (e.toSql p) :: conditionsToSql p es

def joinsToSql (p : Profile) : List Join → List SqlText
  | [] => []
  | j :: js => j.toSql p :: joinsToSql p js

def itemsToSql (p : Profile) : List OrderItem → List SqlText
  | [] => []
  | i :: is => i.toSql p :: itemsToSql p is

end

/-- The text of a statement, which locks its rows in the way of the profile if it is to. -/
def Select.toSql (p : Profile) (locked : Bool) (s : Select) : SqlText :=
  s.toSqlWith p (if locked then p.lockStyle else .none)

end ObjectSql
