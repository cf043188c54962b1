/-!
# Expression categories

The broad family of an expression's type, which decides what it can be compared with and which
methods it has.
-/
namespace ObjectSql

inductive Category where
  | numeric
  | string
  | temporal
  | boolean
  | map
  | object
deriving Repr, DecidableEq, Inhabited

namespace Category

/-- The category of a logical type; types that are not listed are objects. -/
def ofLogicalType (logicalType : String) : Category :=
  match logicalType with
  | "bool" => boolean
  | "i8" | "i16" | "i32" | "i64" | "f32" | "f64" | "decimal" => numeric
  | "string" | "char" | "text" => string
  | "date" | "time" | "timestamp" => temporal
  | "map" => map
  | _ => object

def name : Category → String
  | numeric => "numeric"
  | string => "string"
  | temporal => "temporal"
  | boolean => "boolean"
  | map => "map"
  | object => "object"

end Category

end ObjectSql
