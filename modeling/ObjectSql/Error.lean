import ObjectSql.Dialect.Vendor
import ObjectSql.Expr.Category
import ObjectSql.Expr.Operator

/-!
# Errors of building SQL

Every error is a fault of configuration or use, found while SQL text is built. `SqlError.message`
words it.
-/
namespace ObjectSql

/-- What a product has no syntax for. -/
inductive Feature where
  | sequences
  | sequenceCache
  | identityColumns
  | lastIdentityValue
  | addUnique
  | addForeignKey
  | dropForeignKey
  /-- An identity column that is not alone in the primary key. -/
  | identityOutsideKey (column : String)
deriving Repr, DecidableEq

def Feature.text : Feature → String
  | sequences => "sequences"
  | sequenceCache => "sequence CACHE size"
  | identityColumns => "identity columns"
  | lastIdentityValue => "reading the last identity value"
  | addUnique => "adding unique constraints"
  | addForeignKey => "adding foreign keys"
  | dropForeignKey => "dropping foreign keys"
  | identityOutsideKey column =>
    "identity column '" ++ column ++ "' outside a single-column primary key"

/-- Where a method was looked up. -/
inductive MethodReceiver where
  | none
  | operation
  | category (c : Category)
deriving Repr, DecidableEq

def MethodReceiver.text : MethodReceiver → String
  | none => "*"
  | operation => "operation"
  | category c => c.name

/-- What is wrong with a call. -/
inductive CallFault where
  | receiverMissing
  | receiverGiven
  | argumentsGiven
  | notOneArgument
  | notOneArgumentBut (got : Nat)
  | argumentCount (got : Nat)
  | arity (expected got : Nat)
  | notNumeric (got : Category)
  | noSourceTable
  | notMapMember
  | mapProjected
  /-- The columns of a key that is not a foreign key. -/
  | notForeignKey (columns : String)
deriving Repr, DecidableEq

def CallFault.text : CallFault → String
  | receiverMissing => "a receiver is required"
  | receiverGiven => "aggregates take no receiver"
  | argumentsGiven => "takes no arguments"
  | notOneArgument => "expects exactly one argument"
  | notOneArgumentBut got => "expects exactly one argument, got " ++ toString got
  | argumentCount got => "cannot take " ++ toString got ++ " argument(s)"
  | arity expected got =>
    "expects " ++ toString expected ++ " argument(s), got " ++ toString got
  | notNumeric got => "requires a numeric argument, got " ++ got.name
  | noSourceTable => "argument has no source table for a subquery"
  | notMapMember => "receiver must be a map member"
  | mapProjected => "map members cannot be projected"
  | notForeignKey columns => columns ++ " is not a foreign key"

inductive SqlError where
  /-- A position of a key was filled twice. -/
  | duplicateOrdinal (key : String) (ordinal : Nat)
  /-- A column was given to a key or table of another table. -/
  | columnNotInTable (column columnTable table : String)
  /-- A key has positions without a column, or no position at all. -/
  | incompleteKey (key : String)
  | missingSequenceName
  | unsupported (vendor : Vendor) (feature : Feature)
  | unknownMethod (receiver : MethodReceiver) (method : String)
  | invalidCall (method : String) (fault : CallFault)
  | invalidComparison (left : Category) (op : BinaryOp) (right : Category)
  | unknownLogicalType (logicalType : String)
  | noTypeCandidate (logicalType sqlType : String)
  | unknownColumn (table column : String)
  | invalidVersion (text : String)
  | unknownVendor (text : String)
  | unknownCapability (key : String)
deriving Repr, DecidableEq

def SqlError.message : SqlError → String
  | duplicateOrdinal key ordinal =>
    "key '" ++ key ++ "' already has a column at position " ++ toString ordinal
  | columnNotInTable column columnTable table =>
    "column '" ++ column ++ "' belongs to table '" ++ columnTable ++ "', not '" ++ table ++ "'"
  | incompleteKey key => "key '" ++ key ++ "' has unset column positions"
  | missingSequenceName => "sequence name is required"
  | unsupported vendor feature => vendor.name ++ " does not support " ++ feature.text
  | unknownMethod receiver method =>
    "no SQL method '" ++ method ++ "' for receiver " ++ receiver.text
  | invalidCall method fault => "invalid call to '" ++ method ++ "': " ++ fault.text
  | invalidComparison left op right =>
    "cannot compare " ++ left.name ++ " with " ++ right.name ++ " using '" ++ op.sql ++ "'"
  | unknownLogicalType logicalType =>
    "no SQL type mapping for logical type '" ++ logicalType ++ "'"
  | noTypeCandidate logicalType sqlType =>
    "logical type '" ++ logicalType ++ "' cannot be stored as '" ++ sqlType ++ "'"
  | unknownColumn table column => "table '" ++ table ++ "' has no column '" ++ column ++ "'"
  | invalidVersion text => "invalid version string '" ++ text ++ "'"
  | unknownVendor text => "unknown database vendor '" ++ text ++ "'"
  | unknownCapability key => "unknown capability '" ++ key ++ "'"

end ObjectSql
