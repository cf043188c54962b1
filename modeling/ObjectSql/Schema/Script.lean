import ObjectSql.Schema.Config
import ObjectSql.Schema.Writer

/-!
# Schema scripts

The statements that create everything of a schema description, sequences first, and those that drop
it, which take the tables from the last to the first.
-/
namespace ObjectSql.Profile

/-- Foreign keys that have to go before the tables can be dropped. -/
def dropForeignKeys (p : Profile) (tables : List Table) : Except SqlError (List String) :=
  if p.supports .alterTableDropConstraint then
    (tables.mapM fun (t : Table) => t.foreignKeys.mapM (p.dropForeignKey t)).map List.flatten
  else .ok []

def dropNamedSequence (p : Profile) (o : SequenceOptions) : Except SqlError String :=
  match o.name with
  | some name => p.dropSequence name
  | none => .error .missingSequenceName

def createSchema (p : Profile) (c : SchemaConfig) : Except SqlError (List String) := do
  let tables ← c.build p
  let sequences ← c.sequences.mapM p.createSequence
  let created ← tables.mapM p.createTable
  pure (sequences ++ created.flatten)

def dropSchema (p : Profile) (c : SchemaConfig) : Except SqlError (List String) := do
  let tables ← c.build p
  let tables := tables.reverse
  let keys ← p.dropForeignKeys tables
  let sequences ← c.sequences.mapM p.dropNamedSequence
  pure (keys ++ tables.map p.dropTable ++ sequences)

end ObjectSql.Profile
