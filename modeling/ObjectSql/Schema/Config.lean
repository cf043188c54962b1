import ObjectSql.Dialect.Profile
import ObjectSql.Schema.Table

/-!
# Schema descriptions

Tables and sequences as a user describes them. Building a table resolves the SQL type of every
column through the profile and the columns of every key through the table.
-/
namespace ObjectSql

structure ColumnConfig where
  name : String
  logicalType : String
  /-- An explicit SQL type, which must be a candidate of the logical type. -/
  sqlType : Option String
  length : Option Nat
  scale : Option Nat
  nullable : Bool
  identity : Bool
  default : Option String
deriving Repr, DecidableEq, Inhabited

/-- A primary or unique key. -/
structure KeyConfig where
  name : Option String
  columns : List String
deriving Repr, DecidableEq, Inhabited

structure IndexConfig where
  name : Option String
  columns : List String
  unique : Bool
deriving Repr, DecidableEq, Inhabited

structure ForeignKeyConfig where
  name : Option String
  columns : List String
  /-- The table referred to. -/
  references : String
  referencedColumns : List String
  onDelete : Option ForeignKeyAction
  onUpdate : Option ForeignKeyAction
deriving Repr, DecidableEq, Inhabited

structure TableConfig where
  name : String
  schema : Option String
  columns : List ColumnConfig
  primaryKey : Option KeyConfig
  unique : List KeyConfig
  indices : List IndexConfig
  foreignKeys : List ForeignKeyConfig
deriving Repr, DecidableEq, Inhabited

structure SchemaConfig where
  tables : List TableConfig
  sequences : List SequenceOptions
deriving Repr, DecidableEq, Inhabited

/-- The column of a table; an identity column is never nullable. -/
def ColumnConfig.build (c : ColumnConfig) (p : Profile) (table : String) : Except SqlError Column :=
  (p.types.forColumn c.logicalType c.sqlType).map fun type =>
    { name := c.name
      table := table
      type := type
      logicalType := c.logicalType
      length := c.length
      scale := c.scale
      nullable := c.nullable && !c.identity
      identity := c.identity
      default := c.default }

namespace TableConfig

def addColumns (p : Profile) (t : Table) : List ColumnConfig → Except SqlError Table
  | [] => .ok t
  | c :: cs => do
    let column ← c.build p t.name
    let t ← t.addColumn column
    addColumns p t cs

def primary (t : Table) (c : KeyConfig) : Except SqlError Key :=
  t.fillKey (Key.empty t.name .primary c.name) c.columns

def candidate (t : Table) (c : KeyConfig) : Except SqlError Key :=
  t.fillKey (Key.empty t.name .candidate c.name) c.columns

def index (t : Table) (c : IndexConfig) : Except SqlError Key :=
  t.fillKey (Key.empty t.name (.index c.unique) c.name) c.columns

def foreign (t : Table) (c : ForeignKeyConfig) : Except SqlError Key :=
  let reference := ⟨c.references, c.referencedColumns, c.onDelete, c.onUpdate⟩
  t.fillKey (Key.empty t.name (.foreign reference) c.name) c.columns

def build (c : TableConfig) (p : Profile) : Except SqlError Table := do
  let t ← addColumns p (Table.empty c.name c.schema) c.columns
  let primaryKey ← c.primaryKey.mapM (primary t)
  let t := { t with primaryKey := primaryKey }
  let candidateKeys ← c.unique.mapM (candidate t)
  let indices ← c.indices.mapM (index t)
  let foreignKeys ← c.foreignKeys.mapM (foreign t)
  pure { t with candidateKeys := candidateKeys, indices := indices, foreignKeys := foreignKeys }

end TableConfig

def SchemaConfig.build (c : SchemaConfig) (p : Profile) : Except SqlError (List Table) :=
  c.tables.mapM fun t => t.build p

end ObjectSql
