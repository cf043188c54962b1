import ObjectSql.Dialect.Profile
import ObjectSql.Schema.Table

/-!
# Schema statements

The statements that create and drop tables, keys and indices. A key without a name of its own is
named after its table, its family and its position among the keys of the table.
-/
namespace ObjectSql.Profile

open Text

def columnName (p : Profile) (name : String) : String := p.identifier .column name

/-- The name of a table, qualified by its schema where the product allows it. -/
def tableName (p : Profile) (t : Table) : String :=
  let name := p.identifier .table t.name
  match t.schema with
  | some schema =>
    if p.supports .schemasInTableDefinitions then p.identifier .table schema ++ "." ++ name
    else name
  | none => name

/-- The columns of a complete key in parentheses. -/
def keyColumns (p : Profile) (k : Key) : Except SqlError String :=
  k.completeColumns.map fun cs => "(" ++ joined ", " (cs.map fun c => p.columnName c.name) ++ ")"

/-- The position of the first key that counts as the same, from one; one if there is none. -/
def keyPosition (keys : List Key) (k : Key) : Nat :=
  match keys.findIdx? fun l => l.same k with
  | some i => i + 1
  | none => 1

/-- The name of a key before it is shortened and quoted. -/
def plainKeyName (t : Table) (k : Key) : String :=
  match k.name, k.kind with
  | some name, _ => name
  | none, .primary => t.name ++ "_PK"
  | none, .candidate => t.name ++ "_U" ++ toString (keyPosition t.candidateKeys k)
  | none, .foreign _ => t.name ++ "_FK" ++ toString (keyPosition t.foreignKeys k)
  | none, .index _ => t.name ++ "_N" ++ toString (keyPosition t.indices k)

def keyIdentifierKind : KeyKind → IdentifierKind
  | .index _ => .index
  | _ => .constraint

def keyName (p : Profile) (t : Table) (k : Key) : String :=
  p.identifier (keyIdentifierKind k.kind) (plainKeyName t k)

/-! ## Columns -/

/-- Whether a column is the whole primary key. -/
def isOnlyKeyColumn (t : Table) (c : Column) : Bool :=
  t.primaryKey.any (fun k => k.size == 1) && t.isPrimaryKeyColumn c.name

/-- Words behind the type of a column. -/
def columnSuffix (c : Column) : String :=
  (if c.nullable then "" else " NOT NULL") ++
    match c.default with
    | some text => " DEFAULT " ++ text
    | none => ""

def columnDefinition (p : Profile) (t : Table) (c : Column) : Except SqlError String :=
  let name := p.columnName c.name
  if c.identity then
    match p.identity? with
    | none => .error (.unsupported p.vendor .identityColumns)
    | some s =>
      match s.placement with
      | .replaceType keyword =>
        .ok (name ++ " " ++ keyword (IntegerWidth.ofLogicalType c.logicalType) ++ columnSuffix c)
      | .afterType keyword => .ok (name ++ " " ++ c.typeText ++ " " ++ keyword ++ columnSuffix c)
      | .inlinePrimaryKey =>
        if isOnlyKeyColumn t c then .ok (name ++ " INTEGER PRIMARY KEY AUTOINCREMENT")
        else .error (.unsupported p.vendor (.identityOutsideKey c.name))
  else .ok (name ++ " " ++ c.typeText ++ columnSuffix c)

/-- Whether the primary key is declared with its identity column. -/
def hasInlineKey (p : Profile) (t : Table) : Bool :=
  (match p.identity?.map IdentitySyntax.placement with
    | some .inlinePrimaryKey => true
    | _ => false) &&
  t.columns.any fun c => c.identity && t.isPrimaryKeyColumn c.name

/-! ## Constraints -/

def actionClause (event : String) : Option ForeignKeyAction → String
  | some action => " ON " ++ event ++ " " ++ action.sql
  | none => ""

def foreignKeyClause (p : Profile) (t : Table) (k : Key) : Except SqlError String :=
  match k.kind with
  | .foreign r =>
    (p.keyColumns k).map fun columns =>
      "CONSTRAINT " ++ p.keyName t k ++ " FOREIGN KEY " ++ columns ++ " REFERENCES " ++
        p.identifier .table r.table ++ " (" ++ joined ", " (r.columns.map p.columnName) ++ ")" ++
        actionClause "DELETE" r.onDelete ++ actionClause "UPDATE" r.onUpdate
  | _ => .error (.invalidCall "add_foreign_key" (.notForeignKey k.columnList))

/-- A primary or unique key inside a table definition. -/
def constraintClause (p : Profile) (t : Table) (k : Key) (words : String) :
    Except SqlError String :=
  (p.keyColumns k).map fun columns => "CONSTRAINT " ++ p.keyName t k ++ words ++ columns

def require (p : Profile) (c : Capability) (f : Feature) : Except SqlError Unit :=
  if p.supports c then .ok () else .error (.unsupported p.vendor f)

def addForeignKey (p : Profile) (t : Table) (k : Key) : Except SqlError String := do
  p.require .alterTableAddConstraint .addForeignKey
  let clause ← p.foreignKeyClause t k
  pure ("ALTER TABLE " ++ p.tableName t ++ " ADD " ++ clause)

def addCandidateKey (p : Profile) (t : Table) (k : Key) : Except SqlError String := do
  p.require .alterTableAddConstraint .addUnique
  let clause ← p.constraintClause t k " UNIQUE "
  pure ("ALTER TABLE " ++ p.tableName t ++ " ADD " ++ clause)

def dropForeignKey (p : Profile) (t : Table) (k : Key) : Except SqlError String := do
  p.require .alterTableDropConstraint .dropForeignKey
  let verb := if p.vendor = .mysql then "DROP FOREIGN KEY" else "DROP CONSTRAINT"
  pure ("ALTER TABLE " ++ p.tableName t ++ " " ++ verb ++ " " ++ p.keyName t k)

/-! ## Indices -/

def isUniqueIndex : KeyKind → Bool
  | .index unique => unique
  | .candidate | .primary => true
  | .foreign _ => false

def createIndex (p : Profile) (t : Table) (k : Key) : Except SqlError String :=
  (p.keyColumns k).map fun columns =>
    "CREATE " ++ (if isUniqueIndex k.kind then "UNIQUE " else "") ++ "INDEX " ++
      (if p.supports .createIndexIfNotExists then "IF NOT EXISTS " else "") ++
      p.keyName t k ++ " ON " ++ p.tableName t ++ " " ++ columns

def dropIndex (p : Profile) (t : Table) (k : Key) : String :=
  "DROP INDEX " ++ p.keyName t k ++
    if p.vendor = .mysql || p.vendor = .sqlserver then " ON " ++ p.tableName t else ""

/-! ## Tables -/

/-- The lines between the parentheses of a table definition. -/
def tableLines (p : Profile) (t : Table) : Except SqlError (List String) := do
  let columns ← t.columns.mapM (p.columnDefinition t)
  let primary ←
    match t.primaryKey with
    | some k =>
      if p.hasInlineKey t then pure []
      else (p.constraintClause t k " PRIMARY KEY ").map fun line => [line]
    | none => pure []
  let unique ← t.candidateKeys.mapM fun k => p.constraintClause t k " UNIQUE "
  let foreign ←
    if p.supports .alterTableAddConstraint then pure []
    else t.foreignKeys.mapM (p.foreignKeyClause t)
  pure (columns ++ primary ++ unique ++ foreign)

/-- The table definition, then foreign keys that are added to it, then indices. -/
def createTable (p : Profile) (t : Table) : Except SqlError (List String) := do
  let lines ← p.tableLines t
  let definition :=
    "CREATE TABLE " ++ p.tableName t ++ " (\n" ++ joined ",\n" (lines.map ("    " ++ ·)) ++ "\n)"
  let foreign ←
    if p.supports .alterTableAddConstraint then t.foreignKeys.mapM (p.addForeignKey t)
    else pure []
  let indices ← t.indices.mapM (p.createIndex t)
  pure (definition :: foreign ++ indices)

def dropTable (p : Profile) (t : Table) : String :=
  "DROP TABLE " ++ (if p.supports .dropTableIfExists then "IF EXISTS " else "") ++ p.tableName t ++
    if p.supports .dropTableCascade then
      (if p.vendor = .oracle then " CASCADE CONSTRAINTS" else " CASCADE")
    else ""

/-- The statement that reads the value last generated for a table. -/
def tableIdentityLastValue (p : Profile) (t : Table) : Except SqlError String :=
  match t.columns.find? Column.identity with
  | some c => p.identityLastValue t.name c.name
  | none => .error (.unknownColumn t.name "<identity>")

end ObjectSql.Profile
