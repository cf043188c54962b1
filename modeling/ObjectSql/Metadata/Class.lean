/-!
# Classes and their tables

A class is mapped to one table. The table of a subclass holds the members that the subclass declares
and repeats the identity columns of its root, so the tables of a chain of classes are joined on
identity. Member numbers are unique within a chain.
-/
namespace ObjectSql

/-- How the objects of a class are told apart. -/
inductive IdentityStrategy where
  /-- By a column that the datastore manages. -/
  | surrogate (column logicalType : String)
  /-- By members, in the order of the key. -/
  | application (members : List Nat)
deriving Repr, DecidableEq, Inhabited

structure VersionMapping where
  column : String
  logicalType : String
  /-- The member that holds the version, if it is one. -/
  member : Option Nat
deriving Repr, DecidableEq, Inhabited

structure TenancyMapping where
  column : String
  /-- The tenants that every caller sees; without them a tenant is bound at every execution. -/
  allowed : Option (List String)
deriving Repr, DecidableEq, Inhabited

structure TableMapping where
  name : String
  version : Option VersionMapping
  tenancy : Option TenancyMapping
  /-- The column that marks deleted rows. -/
  softDelete : Option String
  /-- The column that names the class of a row. -/
  discriminator : Option String
deriving Repr, DecidableEq, Inhabited

/-- The join table of a map member. -/
structure MapStorage where
  joinTable : String
  ownerColumn : String
  keyColumn : String
  valueColumn : Option String
deriving Repr, DecidableEq, Inhabited

inductive MemberKind where
  | scalar
  /-- A reference to an object of another class by foreign-key columns. -/
  | relation (target : String)
  /-- A map, which is loaded after the row. -/
  | map (storage : MapStorage)
deriving Repr, DecidableEq, Inhabited

structure MemberMapping where
  number : Nat
  name : String
  /-- Columns of the declaring class; those of a relation follow the identity of its target. -/
  columns : List String
  logicalType : String
  kind : MemberKind
  /-- Depth 0 reads a relation as a reference only. -/
  recursionDepth : Option Nat
deriving Repr, DecidableEq, Inhabited

def MemberMapping.target? (m : MemberMapping) : Option String :=
  match m.kind with
  | .relation target => some target
  | _ => none

structure ClassMapping where
  name : String
  table : TableMapping
  superclass : Option String
  isAbstract : Bool
  /-- Without one the identity of the superclass is used. -/
  identity : Option IdentityStrategy
  /-- The members that this class declares. -/
  members : List MemberMapping
deriving Repr, DecidableEq, Inhabited

def ClassMapping.declared? (c : ClassMapping) (number : Nat) : Option MemberMapping :=
  c.members.find? (·.number == number)

/-- A column of an identity. -/
structure IdentityColumn where
  /-- The member of the key; a surrogate has none. -/
  member : Option Nat
  /-- Which column of its member this is. -/
  position : Nat
  column : String
  logicalType : String
deriving Repr, DecidableEq, Inhabited

end ObjectSql
