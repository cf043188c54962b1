import ObjectSql.Json.Access
import ObjectSql.SqlType.Table

/-!
# Types as JSON
-/
namespace ObjectSql

def DriverType.ofJson? (j : Json) : Option DriverType := do
  let f ← j.fields? ["type_name", "code", "precision", "create_params"]
  let name ← f.required "type_name" Json.string?
  let code ← f.required "code" Json.int32?
  let precision ← f.nullable "precision" Json.nat32?
  let createParams ← f.nullable "create_params" Json.string?
  pure { name, code, precision, createParams }

namespace SqlType

/-- A type by one of its constructors or with all of its parts. -/
def ofJson? (j : Json) : Option SqlType := do
  let shape ← j.read? "shape" Json.string?
  let name ← j.read? "type_name" Json.string?
  let code := TypeCode.ofCode (← j.read? "code" Json.int32?)
  match shape with
  | "fixed" => pure (.fixed name code)
  | "sized" => (j.read? "length" Json.nat32?).map (.sized name code)
  | "scaled" => (j.read? "precision" Json.nat32?).map (.scaled name code)
  | "raw" => do
    let maxPrecision ← j.readMaybe? "max_precision" Json.nat32?
    let acceptsLength ← j.readFlag? "accepts_length"
    let acceptsScale ← j.readFlag? "accepts_scale"
    let defaultLength ← j.readMaybe? "default_length" Json.nat32?
    pure { name, code, maxPrecision, acceptsLength, acceptsScale, defaultLength }
  | _ => none

def toJson (t : SqlType) : Json :=
  .record
    [("type_name", .str t.name), ("code", .int t.code.code),
      ("max_precision", .option .nat t.maxPrecision), ("accepts_length", .bool t.acceptsLength),
      ("accepts_scale", .bool t.acceptsScale), ("default_length", .option .nat t.defaultLength)]

end SqlType

def TypeEntry.toJson (e : TypeEntry) : Json :=
  .record
    [("logical_type", .str e.logicalType), ("default", .option (fun t => .str t.name) e.default?),
      ("candidates", .array (e.candidates.map fun c =>
        .array [c.type.toJson, .bool c.isDefault, .bool c.learned]))]

end ObjectSql
