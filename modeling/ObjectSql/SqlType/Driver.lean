import ObjectSql.Dialect.Vendor
import ObjectSql.SqlType.Basic

/-!
# Types reported by drivers

Drivers report some types under a code that is too general or their own. `DriverType.normalized`
corrects the code by the product, the reported name and the reported code.
-/
namespace ObjectSql

open Text

structure DriverType where
  name : String
  code : Int
  precision : Option Nat
  /-- Names of the parameters, such as `(M,D)`. -/
  createParams : Option String
deriving Repr, DecidableEq, Inhabited

namespace DriverType

/-- The code that stands in place of the reported one, if the product needs a correction. -/
def correctedCode? (v : Vendor) (upperName : String) (code : Int) (precision : Option Nat) :
    Option TypeCode :=
  match v with
  | .postgresql =>
    match upperName with
    | "BOOL" | "BOOLEAN" => some .boolean
    | "TIMESTAMPTZ" => some .timestampWithTimezone
    | "BYTEA" => some .longVarBinary
    | "TEXT" => some .longVarChar
    | _ => none
  | .sqlserver =>
    if upperName = "BIT" then some .boolean
    else if code = -155 then some .timestampWithTimezone
    else none
  | .oracle =>
    if code = -101 || code = -102 then some .timestampWithTimezone
    else if upperName = "NVARCHAR2" then some .nVarChar
    else if upperName = "NCHAR" then some .nChar
    else if upperName = "NCLOB" then some .nClob
    else if code = 100 then some .real
    else if code = 101 then some .double
    else none
  | .mysql =>
    if (upperName = "BIT" || upperName = "TINYINT") && precision.any (· ≤ 1) then some .boolean
    else none
  | .db2 => if upperName = "DECFLOAT" || code = -360 then some .decimal else none
  | .generic | .sqlite | .derby | .h2 => none

/-- Whether one text stands inside another. -/
def isPart (part text : List Char) : Bool :=
  match text with
  | [] => part.isEmpty
  | c :: cs => part.isPrefixOf (c :: cs) || isPart part cs

def normalized (v : Vendor) (t : DriverType) : SqlType :=
  let name := trim t.name
  let params := (t.createParams.getD "").toList
  { name := name
    code := (correctedCode? v (asciiUpper name) t.code t.precision).getD (TypeCode.ofCode t.code)
    maxPrecision := t.precision
    acceptsLength := params.contains '(' || isPart "length".toList params
    acceptsScale := params.contains ',' || isPart "scale".toList params
    defaultLength := none }

end DriverType

end ObjectSql
