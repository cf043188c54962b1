import ObjectSql.Json.Access
import ObjectSql.Metadata.Catalog

/-!
# Metadata as JSON

Whatever a class need not have may be left out of its description or `null`.
-/
namespace ObjectSql

open Json

namespace IdentityStrategy

def ofJson? (j : Json) : Option IdentityStrategy :=
  match j.at? "surrogate", j.at? "application" with
  | some s, _ => (pair? string? string? s).map fun (column, type) => surrogate column type
  | none, some members => (list? nat64? members).map application
  | none, none => none

def toJson : IdentityStrategy → Json
  | surrogate column logicalType => .record [("surrogate", .strings [column, logicalType])]
  | application members => .record [("application", .nats members)]

end IdentityStrategy

def VersionMapping.ofJson? (j : Json) : Option VersionMapping := do
  let column ← j.read? "column" string?
  let logicalType ← j.read? "type" string?
  let member ← j.readMaybe? "member" nat64?
  pure { column, logicalType, member }

def TenancyMapping.ofJson? (j : Json) : Option TenancyMapping := do
  let column ← j.read? "column" string?
  let allowed ← j.readMaybe? "allowed" strings?
  pure { column, allowed }

def TableMapping.ofJson? (j : Json) : Option TableMapping := do
  let name ← j.read? "name" string?
  let version ← j.readMaybe? "version" VersionMapping.ofJson?
  let tenancy ← j.readMaybe? "tenancy" TenancyMapping.ofJson?
  let softDelete ← j.readMaybe? "soft_delete" string?
  let discriminator ← j.readMaybe? "discriminator" string?
  pure { name, version, tenancy, softDelete, discriminator }

def MapStorage.ofJson? (j : Json) : Option MapStorage := do
  let joinTable ← j.read? "join_table" string?
  let ownerColumn ← j.read? "owner_column" string?
  let keyColumn ← j.read? "key_column" string?
  let valueColumn ← j.readMaybe? "value_column" string?
  pure { joinTable, ownerColumn, keyColumn, valueColumn }

def MemberMapping.ofJson? (j : Json) : Option MemberMapping := do
  let number ← j.read? "number" nat64?
  let name ← j.read? "name" string?
  let recursionDepth ← j.readMaybe? "depth" nat32?
  match ← j.read? "kind" string? with
  | "scalar" => do
    let columns ← j.readList? "columns" string?
    let logicalType ← j.read? "type" string?
    pure { number, name, columns, logicalType, kind := .scalar, recursionDepth }
  | "relation" => do
    let columns ← j.readList? "columns" string?
    let target ← j.read? "target" string?
    pure
      { number, name, columns, logicalType := "object", kind := .relation target, recursionDepth }
  | "map" => do
    let storage ← MapStorage.ofJson? j
    pure { number, name, columns := [], logicalType := "map", kind := .map storage, recursionDepth }
  | _ => none

def ClassMapping.ofJson? (j : Json) : Option ClassMapping := do
  let name ← j.read? "name" string?
  let table ← j.read? "table" TableMapping.ofJson?
  let superclass ← j.readMaybe? "superclass" string?
  let isAbstract ← j.readFlag? "abstract"
  let identity ← j.readMaybe? "identity" IdentityStrategy.ofJson?
  let members ← j.readList? "members" MemberMapping.ofJson?
  pure { name, table, superclass, isAbstract, identity, members }

def IdentityColumn.toJson (c : IdentityColumn) : Json :=
  .array [.option .nat c.member, .nat c.position, .str c.column, .str c.logicalType]

end ObjectSql
