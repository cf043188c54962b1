import ObjectSql.Statement.Select

/-!
# Map members

The entries of a map are the rows of its join table that refer to the owner. Tests of a map are
tests of the query of its entries.
-/
namespace ObjectSql

namespace MapBinding

/-- The join table under an alias derived from the owner's. -/
def entriesTable (b : MapBinding) : TableRef := ⟨b.joinTable, b.owner.aliasName ++ "M"⟩

/-- The rows of one owner. -/
def entries (b : MapBinding) : Select :=
  (Select.fromTable b.entriesTable).addCondition
    (.binary (.column b.entriesTable b.ownerColumn "object") .eq
      (.column b.owner b.ownerIdColumn "object") .boolean "bool")

def key (b : MapBinding) : Expr := .column b.entriesTable b.keyColumn b.keyLogicalType

end MapBinding

namespace Expr

def mapBinding? (e : Expr) : Option MapBinding :=
  match e.node with
  | .map binding => some binding
  | _ => none

/-- Whether a map has no entries. -/
def mapIsEmpty (e : Expr) : Except SqlError Expr :=
  match e.mapBinding? with
  | some b => .ok (existsIn b.entries true)
  | none => .error (.invalidCall "isEmpty" .notMapMember)

/-- The number of entries of a map. -/
def mapSize (e : Expr) : Except SqlError Expr :=
  match e.mapBinding? with
  | some b =>
    (b.entries.select (raw "COUNT(*)" "i64")).map fun (_, query) => subquery query .numeric "i64"
  | none => .error (.invalidCall "size" .notMapMember)

end Expr

end ObjectSql
