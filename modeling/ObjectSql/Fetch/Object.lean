import ObjectSql.Text.Split
import ObjectSql.Value

/-!
# What a fetch reads

References to other objects, objects that are read from the row of their owner, and the values that
are handed to the members of an object.
-/
namespace ObjectSql

inductive IdentityValue where
  | surrogate (v : Value)
  /-- The values of the key in its order. -/
  | compound (vs : List Value)
deriving DecidableEq, Inhabited

namespace IdentityValue

/-- The identity in the identity columns of a row; there is none if all of them are null. -/
def ofColumns (values : List Value) (surrogate : Bool) : Option IdentityValue :=
  if values.all Value.isNull then none
  else
    match surrogate, values with
    | true, [v] => some (.surrogate v)
    | _, vs => some (.compound vs)

def display : IdentityValue → String
  | surrogate v => v.display
  | compound vs => Text.joined ", " (vs.map Value.display)

end IdentityValue

structure ObjectReference where
  className : String
  identity : IdentityValue
deriving DecidableEq, Inhabited

/-- A related object that is read from the same row as its owner. -/
structure LoadedObject where
  reference : ObjectReference
  /-- The value that names the class of the row, if its table has one. -/
  discriminator : Option Value
  /-- Scalar members by number. -/
  fields : List (Nat × Value)
deriving DecidableEq, Inhabited

inductive FieldValue where
  | null
  | scalar (v : Value)
  | reference (r : ObjectReference)
  | object (o : LoadedObject)
deriving DecidableEq, Inhabited

def FieldValue.ofValue (v : Value) : FieldValue := if v.isNull then null else scalar v

end ObjectSql
