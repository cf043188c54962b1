import ObjectSql.Statement.Layout

/-!
# Inconsistent metadata

What can be wrong with the metadata of a class, or with identities, tenants and rows that do not fit
it.
-/
namespace ObjectSql

inductive MetadataFault where
  | unknownClass (name : String)
  | inheritanceCycle (name : String)
  | noIdentity (className : String)
  | noMember (className : String) (number : Nat)
  /-- A member of the key has no columns. -/
  | keyWithoutColumns (member className : String)
  | notOneColumn (member : String)
  /-- A relation has more or fewer columns than the identity of its target. -/
  | relationWidth (relation : String) (columns : Nat) (target : String) (identity : Nat)
  | tenantMissing (className : String)
  | notIdentityColumn (key : MappingKey) (className : String)
  | identityTooShort (className : String) (needed got : Nat)
  | noRelatedLayout (member : Nat) (className : String)
  | noResultColumn
  | rowTooShort (columns position : Nat)
  /-- A fault that an object tells in words of its own. -/
  | told (text : String)
deriving Repr, DecidableEq

def MappingKey.label : MappingKey → String
  | member number => "Member(" ++ toString number ++ ")"
  | datastoreId => "DatastoreId"
  | version => "Version"
  | tenant => "Tenant"
  | softDelete => "SoftDelete"
  | discriminator => "Discriminator"

def MetadataFault.message : MetadataFault → String
  | unknownClass name => "unknown class '" ++ name ++ "'"
  | inheritanceCycle name => "inheritance cycle through '" ++ name ++ "'"
  | noIdentity className => "class '" ++ className ++ "' has no identity"
  | noMember className number => "class '" ++ className ++ "' has no member " ++ toString number
  | keyWithoutColumns member className =>
    "primary-key member '" ++ member ++ "' of '" ++ className ++ "' has no columns"
  | notOneColumn member => "scalar member '" ++ member ++ "' must have exactly one column"
  | relationWidth relation columns target identity =>
    "relation '" ++ relation ++ "' has " ++ toString columns ++ " foreign-key columns but '" ++
      target ++ "' has " ++ toString identity ++ " identity columns"
  | tenantMissing className => "fetching '" ++ className ++ "' requires a tenant"
  | notIdentityColumn key className =>
    "parameter " ++ key.label ++ " of '" ++ className ++ "' is not an identity column"
  | identityTooShort className needed got =>
    "'" ++ className ++ "' needs " ++ toString needed ++ " identity values, got " ++ toString got
  | noRelatedLayout member className =>
    "no related layout for member " ++ toString member ++ " of '" ++ className ++ "'"
  | noResultColumn => "member has no result column"
  | rowTooShort columns position =>
    "result row has " ++ toString columns ++ " columns, position " ++ toString position ++
      " requested"
  | told text => text

end ObjectSql
