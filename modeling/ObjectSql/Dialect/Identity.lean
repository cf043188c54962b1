import ObjectSql.Dialect.Vendor

/-!
# Identity columns

How a product declares a column whose values it generates, and how the last value is read back.
-/
namespace ObjectSql

/-- Storage width of an integer column. -/
inductive IntegerWidth where
  | small
  | regular
  | big
deriving Repr, DecidableEq, Inhabited

def IntegerWidth.ofLogicalType (logicalType : String) : IntegerWidth :=
  match logicalType with
  | "i8" | "i16" => small
  | "i64" => big
  | _ => regular

inductive IdentityPlacement where
  /-- The keyword stands in place of the column type and depends on the width. -/
  | replaceType (keyword : IntegerWidth → String)
  /-- The keyword follows the column type. -/
  | afterType (keyword : String)
  /-- The column becomes the integer primary key where it is declared. -/
  | inlinePrimaryKey

inductive LastValueForm where
  | fixed (sql : String)
  /-- The sequence behind a serial column is asked. -/
  | serialSequence
  | unavailable
deriving Repr, DecidableEq

structure IdentitySyntax where
  placement : IdentityPlacement
  lastValue : LastValueForm

namespace IdentitySyntax

def serialKeyword : IntegerWidth → String
  | .small => "SMALLSERIAL"
  | .regular => "SERIAL"
  | .big => "BIGSERIAL"

def generated : IdentityPlacement := .afterType "GENERATED BY DEFAULT AS IDENTITY"

def ofVendor : Vendor → IdentitySyntax
  | .postgresql => ⟨.replaceType serialKeyword, .serialSequence⟩
  | .mysql => ⟨.afterType "AUTO_INCREMENT", .fixed "SELECT LAST_INSERT_ID()"⟩
  | .sqlite => ⟨.inlinePrimaryKey, .fixed "SELECT last_insert_rowid()"⟩
  | .sqlserver => ⟨.afterType "IDENTITY", .fixed "SELECT @@IDENTITY"⟩
  | .derby | .db2 => ⟨generated, .fixed "VALUES IDENTITY_VAL_LOCAL()"⟩
  | .h2 => ⟨generated, .fixed "CALL IDENTITY()"⟩
  | .oracle | .generic => ⟨generated, .unavailable⟩

/-- The keyword for a column of a width; nothing where the column is declared inline. -/
def keyword (s : IdentitySyntax) (width : IntegerWidth) : Option String :=
  match s.placement with
  | .replaceType keyword => some (keyword width)
  | .afterType keyword => some keyword
  | .inlinePrimaryKey => none

end IdentitySyntax

end ObjectSql
