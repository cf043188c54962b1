import ObjectSql.Error
import ObjectSql.Expr.Equality
import ObjectSql.Text.Casing

/-!
# Building statements

A statement begins as a query of all rows of its primary table and grows clause by clause. The
projection holds no two expressions that are the same.
-/
namespace ObjectSql.Select

open Text

def fromTable (table : TableRef) : Select where
  table := table
  joins := []
  distinct := false
  projection := []
  conditions := []
  groupBy := []
  having := []
  ordering := []
  offset := 0
  count := 0
  nextAlias := 1

/-- A statement over a table by its name. -/
def ofName (name : String) : Select := fromTable ⟨name, "A0"⟩

/-- A reference to a table under an alias that is used up by it. -/
def newTableAlias (s : Select) (name : String) : TableRef × Select :=
  (⟨name, "A" ++ toString s.nextAlias⟩, { s with nextAlias := s.nextAlias + 1 })

def join (s : Select) (kind : JoinKind) (table : TableRef) (on : List Expr) : Select :=
  { s with joins := s.joins ++ [⟨kind, table, on⟩] }

/-- The first joined table of a name, in any case. -/
def joined? (s : Select) (name : String) : Option TableRef :=
  (s.joins.map Join.table).find? fun t => sameIgnoringCase t.name name

def setDistinct (s : Select) (distinct : Bool) : Select := { s with distinct := distinct }

/-- Projects an expression and tells its position in result rows. -/
def select (s : Select) (e : Expr) : Except SqlError (Nat × Select) :=
  if e.category = .map then .error (.invalidCall "select" .mapProjected)
  else
    match s.projection.findIdx? (·.same e) with
    | some i => .ok (i + 1, s)
    | none => .ok (s.projection.length + 1, { s with projection := s.projection ++ [e] })

def addCondition (s : Select) (e : Expr) : Select := { s with conditions := s.conditions ++ [e] }

def addGroup (s : Select) (e : Expr) : Select := { s with groupBy := s.groupBy ++ [e] }

def addHaving (s : Select) (e : Expr) : Select := { s with having := s.having ++ [e] }

def addOrdering (s : Select) (item : OrderItem) : Select :=
  { s with ordering := s.ordering ++ [item] }

def setRange (s : Select) (offset count : Int) : Select :=
  { s with offset := offset, count := count }

def hasOrdering (s : Select) : Bool := !s.ordering.isEmpty

end ObjectSql.Select
