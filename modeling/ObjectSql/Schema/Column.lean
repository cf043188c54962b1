import ObjectSql.SqlType.Basic

/-!
# Columns

A column of a table with the SQL type that was chosen for its logical type.
-/
namespace ObjectSql

structure Column where
  name : String
  /-- The table that owns the column. -/
  table : String
  type : SqlType
  logicalType : String
  length : Option Nat
  scale : Option Nat
  nullable : Bool
  /-- The datastore generates the value. -/
  identity : Bool
  /-- SQL text of the default value. -/
  default : Option String
deriving Repr, DecidableEq, Inhabited

namespace Column

/-- A nullable column without length, identity or default. -/
def plain (table name logicalType : String) (type : SqlType) : Column :=
  ⟨name, table, type, logicalType, none, none, true, false, none⟩

/-- The SQL type with the declared length and scale. -/
def typeText (c : Column) : String := c.type.render c.length c.scale

end Column

end ObjectSql
