import ObjectSql.Proofs.Statement.Parameters

/-!
# Locked statements

A lock is written after the table of a statement or at its end. Everything else in the text, the
statements inside of expressions included, comes from those parts of a profile that are not about
locks.
-/
namespace ObjectSql

open SqlText

/-! ## Profiles -/

/-- Whether two profiles write the same text, apart from locks. -/
structure Profile.WritesAlike (p p' : Profile) : Prop where
  identifier : p.identifier = p'.identifier
  booleans : p.supports .booleanLiterals = p'.supports .booleanLiterals
  nulls : p.supports .nullsOrdering = p'.supports .nullsOrdering
  range : p.rangeClause = p'.rangeClause

namespace Profile

def withoutLocks (p : Profile) : Profile :=
  { p with
    capabilities := p.capabilities.filter fun c => c ≠ .tableLockHint ∧ c ≠ .selectForUpdate }

variable (p : Profile)

theorem withoutLocks_supports {c : Capability} (hhint : c ≠ .tableLockHint)
    (hupdate : c ≠ .selectForUpdate) : p.withoutLocks.supports c = p.supports c := by
  rw [Bool.eq_iff_iff]
  simp [supports, withoutLocks, hhint, hupdate]

theorem withoutLocks_lockStyle : p.withoutLocks.lockStyle = .none := by
  simp [lockStyle, supports, withoutLocks]

theorem withoutLocks_writesAlike : p.withoutLocks.WritesAlike p where
  identifier := rfl
  booleans := p.withoutLocks_supports (by decide) (by decide)
  nulls := p.withoutLocks_supports (by decide) (by decide)
  range := by
    have hpagination : p.withoutLocks.pagination = p.pagination := by
      rw [pagination, pagination, p.withoutLocks_supports (by decide) (by decide)]
      rfl
    unfold rangeClause
    rw [hpagination]

end Profile

/-! ## Texts of profiles -/

section

variable {p p' : Profile}

theorem TableRef.toSql_congr (h : p.WritesAlike p') (t : TableRef) : t.toSql p = t.toSql p' := by
  rw [toSql, toSql, h.identifier]

mutual

theorem Expr.toSql_congr (h : p.WritesAlike p') : ∀ e : Expr, e.toSql p = e.toSql p'
  | ⟨_, _, table, node⟩ => node.toSql_congr h table

theorem Node.toSql_congr (h : p.WritesAlike p') (table : Option TableRef) :
    ∀ n : Node, n.toSql p table = n.toSql p' table
  | .column _ | .map _ => by simp only [Node.toSql, h.identifier]
  | .literal _ => by simp only [Node.toSql, h.booleans]
  | .null | .parameter _ | .raw _ => rfl
  | .function _ args | .template _ args => by simp only [Node.toSql, exprsToSql_congr h args]
  | .binary left _ right => by simp only [Node.toSql, left.toSql_congr h, right.toSql_congr h]
  | .not operand | .isNull operand _ => by simp only [Node.toSql, operand.toSql_congr h]
  | .inList operand list _ => by
    simp only [Node.toSql, operand.toSql_congr h, exprsToSql_congr h list]
  | .aggregate _ arg => by simp only [Node.toSql, arg.toSql_congr h]
  | .subquery query | .exists query _ => by simp only [Node.toSql, query.toSqlWith_congr h .none]

theorem Join.toSql_congr (h : p.WritesAlike p') : ∀ j : Join, j.toSql p = j.toSql p'
  | ⟨_, table, on⟩ => by
    simp only [Join.toSql, table.toSql_congr h, conditionsToSql_congr h on]

theorem OrderItem.toSql_congr (h : p.WritesAlike p') : ∀ i : OrderItem, i.toSql p = i.toSql p'
  | ⟨expr, _, _⟩ => by simp only [OrderItem.toSql, expr.toSql_congr h, h.nulls]

/-- Two profiles that write alike write the same statement, locked in the same way or not. -/
theorem Select.toSqlWith_congr (h : p.WritesAlike p') (lock : LockStyle) :
    ∀ s : Select, s.toSqlWith p lock = s.toSqlWith p' lock
  | ⟨table, joins, _, projection, conditions, groupBy, having, ordering, _, _, _⟩ => by
    simp only [Select.toSqlWith, table.toSql_congr h, h.range, exprsToSql_congr h projection,
      joinsToSql_congr h joins, conditionsToSql_congr h conditions, exprsToSql_congr h groupBy,
      conditionsToSql_congr h having, itemsToSql_congr h ordering]

theorem exprsToSql_congr (h : p.WritesAlike p') :
    ∀ es : List Expr, exprsToSql p es = exprsToSql p' es
  | [] => rfl
  | e :: es => by rw [exprsToSql, exprsToSql, e.toSql_congr h, exprsToSql_congr h es]

theorem conditionsToSql_congr (h : p.WritesAlike p') :
    ∀ es : List Expr, conditionsToSql p es = conditionsToSql p' es
  | [] => rfl
  | e :: es => by
    rw [conditionsToSql, conditionsToSql, e.toSql_congr h, conditionsToSql_congr h es]

theorem joinsToSql_congr (h : p.WritesAlike p') :
    ∀ js : List Join, joinsToSql p js = joinsToSql p' js
  | [] => rfl
  | j :: js => by rw [joinsToSql, joinsToSql, j.toSql_congr h, joinsToSql_congr h js]

theorem itemsToSql_congr (h : p.WritesAlike p') :
    ∀ is : List OrderItem, itemsToSql p is = itemsToSql p' is
  | [] => rfl
  | i :: is => by rw [itemsToSql, itemsToSql, i.toSql_congr h, itemsToSql_congr h is]

end

end

/-! ## Locks -/

theorem SqlText.raw_empty : raw "" = empty := rfl

namespace Select

variable (p : Profile) (s : Select)

def front : SqlText :=
  raw (if s.distinct then "SELECT DISTINCT " else "SELECT ") ++
    (if s.projection.isEmpty then raw "1" else joined ", " (exprsToSql p s.projection)) ++
    raw (" FROM " ++ s.table.toSql p)

def clauses : SqlText :=
  let range := p.rangeClause s.offset s.count !s.ordering.isEmpty
  concat (joinsToSql p s.joins) ++
    clause " WHERE " " AND " (conditionsToSql p s.conditions) ++
    clause " GROUP BY " ", " (exprsToSql p s.groupBy) ++
    clause " HAVING " " AND " (conditionsToSql p s.having) ++
    clause " ORDER BY " ", " (itemsToSql p s.ordering) ++
    raw (if range.isEmpty then "" else " " ++ range)

/-- A lock stands between the primary table and the other clauses, or after them. -/
theorem toSqlWith_eq (lock : LockStyle) :
    s.toSqlWith p lock = s.front p ++ raw lock.hint ++ s.clauses p ++ raw lock.clause := by
  cases s
  simp only [toSqlWith, front, clauses, raw_append_raw, append_assoc]

/-- How the texts of a statement with and without locks differ. -/
structure LocksOnce : Prop where
  params : ∀ p' locked locked', (s.toSql p locked).params = (s.toSql p' locked').params
  unlocked : s.toSql p false = s.front p ++ s.clauses p
  locked : s.toSql p true =
    match p.lockStyle with
    | .none => s.toSql p false
    | .forUpdate => s.toSql p false ++ raw " FOR UPDATE"
    | .forUpdateWithRs => s.toSql p false ++ raw " FOR UPDATE WITH RS"
    | .tableHint => s.front p ++ raw " WITH (UPDLOCK, ROWLOCK)" ++ s.clauses p
  /-- As a part of an expression it is not locked. -/
  operand : ∀ category logicalType negated,
    (Expr.subquery s category logicalType).toSql p = (s.toSql p false).parens ∧
      (Expr.existsIn s negated).toSql p =
        raw (if negated then "NOT EXISTS " else "EXISTS ") ++ (s.toSql p false).parens
  /-- Nothing in the unlocked text, statements inside of expressions included, is about locks. -/
  withoutLocks : ∀ locked, s.toSql p.withoutLocks locked = s.toSql p false

theorem locksOnce : s.LocksOnce p where
  params p' locked locked' := (s.toSql_params p locked).trans (s.toSql_params p' locked').symm
  unlocked := by
    rw [toSql, toSqlWith_eq]
    simp [LockStyle.hint, LockStyle.clause, raw_empty]
  locked := by
    rw [toSql, toSql, toSqlWith_eq, toSqlWith_eq]
    cases p.lockStyle <;> simp [LockStyle.hint, LockStyle.clause, raw_empty]
  operand _ _ _ := ⟨rfl, rfl⟩
  withoutLocks locked := by
    rw [toSql, toSql, p.withoutLocks_lockStyle, toSqlWith_congr p.withoutLocks_writesAlike]
    cases locked <;> rfl

end Select

end ObjectSql
