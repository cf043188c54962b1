import ObjectSql.Dialect.Json
import ObjectSql.Schema.Config

/-!
# Schemas as JSON

What is written of a description holds every field; what is read may leave out those that have a
default.
-/
namespace ObjectSql

namespace ForeignKeyAction

def all : List ForeignKeyAction := [cascade, setNull, setDefault, restrict, noAction]

def jsonName : ForeignKeyAction → String
  | cascade => "cascade"
  | setNull => "set_null"
  | setDefault => "set_default"
  | restrict => "restrict"
  | noAction => "no_action"

def ofName? (name : String) : Option ForeignKeyAction := all.find? (·.jsonName == name)

/-- An action is its name, or an object with the name as its only member and `null` as its value. -/
def ofJson? : Json → Option ForeignKeyAction
  | .text (some name) => ofName? name
  | .object [(some name, .null)] => ofName? name
  | _ => none

def toJson (a : ForeignKeyAction) : Json := .str a.jsonName

end ForeignKeyAction

def Reference.toJson (r : Reference) : Json :=
  .record
    [("references", .str r.table), ("referenced_columns", .strings r.columns),
      ("on_delete", .option (fun a => .str a.sql) r.onDelete),
      ("on_update", .option (fun a => .str a.sql) r.onUpdate)]

def KeyKind.toJson : KeyKind → Json
  | primary => .str "primary"
  | candidate => .str "candidate"
  | foreign r => r.toJson
  | index unique => .record [("unique", .bool unique)]

/-- A key with everything that is derived from its columns. -/
def Key.toJson (k : Key) : Json :=
  .record
    [("name", .option .str k.name), ("table", .str k.table), ("kind", k.kind.toJson),
      ("size", .nat k.size), ("complete", .bool k.isComplete),
      ("columns", .array (k.columns.map (.option fun c => .str c.name))),
      ("list", .str k.columnList),
      ("qualified", .str (k.columnListWith fun c => c.table ++ "." ++ c.name)),
      ("display", .str k.display)]

def Column.toJson (c : Column) : Json :=
  .record
    [("name", .str c.name), ("table", .str c.table), ("type", .str c.logicalType),
      ("sql_type", .str c.typeText), ("nullable", .bool c.nullable),
      ("identity", .bool c.identity), ("default", .option .str c.default)]

namespace ColumnConfig

def ofJson? (j : Json) : Option ColumnConfig := do
  let f ← j.fields?
    ["name", "type", "sql_type", "length", "scale", "nullable", "identity", "default"]
  let name ← f.required "name" Json.string?
  let logicalType ← f.required "type" Json.string?
  let sqlType ← f.optional "sql_type" Json.string?
  let length ← f.optional "length" Json.nat32?
  let scale ← f.optional "scale" Json.nat32?
  let nullable ← f.defaulted "nullable" true Json.bool?
  let identity ← f.defaulted "identity" false Json.bool?
  let default ← f.optional "default" Json.string?
  pure { name, logicalType, sqlType, length, scale, nullable, identity, default }

def toJson (c : ColumnConfig) : Json :=
  .record
    [("name", .str c.name), ("type", .str c.logicalType), ("sql_type", .option .str c.sqlType),
      ("length", .option .nat c.length), ("scale", .option .nat c.scale),
      ("nullable", .bool c.nullable), ("identity", .bool c.identity),
      ("default", .option .str c.default)]

end ColumnConfig

namespace KeyConfig

def ofJson? (j : Json) : Option KeyConfig := do
  let f ← j.fields? ["name", "columns"]
  let name ← f.optional "name" Json.string?
  let columns ← f.required "columns" Json.strings?
  pure { name, columns }

def toJson (c : KeyConfig) : Json :=
  .record [("name", .option .str c.name), ("columns", .strings c.columns)]

end KeyConfig

namespace IndexConfig

def ofJson? (j : Json) : Option IndexConfig := do
  let f ← j.fields? ["name", "columns", "unique"]
  let name ← f.optional "name" Json.string?
  let columns ← f.required "columns" Json.strings?
  let unique ← f.defaulted "unique" false Json.bool?
  pure { name, columns, unique }

def toJson (c : IndexConfig) : Json :=
  .record
    [("name", .option .str c.name), ("columns", .strings c.columns), ("unique", .bool c.unique)]

end IndexConfig

namespace ForeignKeyConfig

def ofJson? (j : Json) : Option ForeignKeyConfig := do
  let f ← j.fields?
    ["name", "columns", "references", "referenced_columns", "on_delete", "on_update"]
  let name ← f.optional "name" Json.string?
  let columns ← f.required "columns" Json.strings?
  let references ← f.required "references" Json.string?
  let referencedColumns ← f.required "referenced_columns" Json.strings?
  let onDelete ← f.optional "on_delete" ForeignKeyAction.ofJson?
  let onUpdate ← f.optional "on_update" ForeignKeyAction.ofJson?
  pure { name, columns, references, referencedColumns, onDelete, onUpdate }

def toJson (c : ForeignKeyConfig) : Json :=
  .record
    [("name", .option .str c.name), ("columns", .strings c.columns),
      ("references", .str c.references), ("referenced_columns", .strings c.referencedColumns),
      ("on_delete", .option ForeignKeyAction.toJson c.onDelete),
      ("on_update", .option ForeignKeyAction.toJson c.onUpdate)]

end ForeignKeyConfig

namespace TableConfig

def ofJson? (j : Json) : Option TableConfig := do
  let f ← j.fields?
    ["name", "schema", "columns", "primary_key", "unique", "indices", "foreign_keys"]
  let name ← f.required "name" Json.string?
  let schema ← f.optional "schema" Json.string?
  let columns ← f.required "columns" (Json.list? ColumnConfig.ofJson?)
  let primaryKey ← f.optional "primary_key" KeyConfig.ofJson?
  let unique ← f.defaulted "unique" [] (Json.list? KeyConfig.ofJson?)
  let indices ← f.defaulted "indices" [] (Json.list? IndexConfig.ofJson?)
  let foreignKeys ← f.defaulted "foreign_keys" [] (Json.list? ForeignKeyConfig.ofJson?)
  pure { name, schema, columns, primaryKey, unique, indices, foreignKeys }

def toJson (c : TableConfig) : Json :=
  .record
    [("name", .str c.name), ("schema", .option .str c.schema),
      ("columns", .array (c.columns.map ColumnConfig.toJson)),
      ("primary_key", .option KeyConfig.toJson c.primaryKey),
      ("unique", .array (c.unique.map KeyConfig.toJson)),
      ("indices", .array (c.indices.map IndexConfig.toJson)),
      ("foreign_keys", .array (c.foreignKeys.map ForeignKeyConfig.toJson))]

end TableConfig

namespace SchemaConfig

def ofJson? (j : Json) : Option SchemaConfig := do
  let f ← j.fields? ["tables", "sequences"]
  let tables ← f.defaulted "tables" [] (Json.list? TableConfig.ofJson?)
  let sequences ← f.defaulted "sequences" [] (Json.list? SequenceOptions.ofJson?)
  pure { tables, sequences }

def toJson (c : SchemaConfig) : Json :=
  .record
    [("tables", .array (c.tables.map TableConfig.toJson)),
      ("sequences", .array (c.sequences.map SequenceOptions.toJson))]

end SchemaConfig

end ObjectSql
