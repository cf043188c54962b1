import ObjectSql.Expr.Basic
import ObjectSql.Json.Fields

/-!
# Map bindings as JSON
-/
namespace ObjectSql

def TableRef.ofJson? (j : Json) : Option TableRef := do
  let f ← j.fields? ["name", "alias"]
  let name ← f.required "name" Json.string?
  let aliasName ← f.required "alias" Json.string?
  pure { name, aliasName }

def MapBinding.ofJson? (j : Json) : Option MapBinding := do
  let f ← j.fields? ["owner", "owner_id_column", "join_table", "owner_column", "key_column",
    "value_column", "key_logical_type"]
  let owner ← f.required "owner" TableRef.ofJson?
  let ownerIdColumn ← f.required "owner_id_column" Json.string?
  let joinTable ← f.required "join_table" Json.string?
  let ownerColumn ← f.required "owner_column" Json.string?
  let keyColumn ← f.required "key_column" Json.string?
  let valueColumn ← f.nullable "value_column" Json.string?
  let keyLogicalType ← f.required "key_logical_type" Json.string?
  pure { owner, ownerIdColumn, joinTable, ownerColumn, keyColumn, valueColumn, keyLogicalType }

end ObjectSql
