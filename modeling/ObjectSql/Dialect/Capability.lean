import ObjectSql.Text.Blank
import ObjectSql.Text.Casing

/-!
# Capabilities

Named switches for the syntax that a database product offers.
-/
namespace ObjectSql

open Text

inductive Capability where
  | sequences
  | identityColumns
  | alterTableAddConstraint
  | alterTableDropConstraint
  | selectForUpdate
  | tableLockHint
  | dropTableCascade
  | dropTableIfExists
  | createIndexIfNotExists
  | schemasInTableDefinitions
  | nullsOrdering
  | booleanLiterals
  | checkInCreateStatements
  | deferredConstraints
  | offsetFetch
  | nullEqualsEmptyString
deriving Repr, DecidableEq, Inhabited

namespace Capability

def all : List Capability :=
  [sequences, identityColumns, alterTableAddConstraint, alterTableDropConstraint, selectForUpdate,
   tableLockHint, dropTableCascade, dropTableIfExists, createIndexIfNotExists,
   schemasInTableDefinitions, nullsOrdering, booleanLiterals, checkInCreateStatements,
   deferredConstraints, offsetFetch, nullEqualsEmptyString]

/-- The name under which a configuration refers to the capability. -/
def key : Capability → String
  | sequences => "sequences"
  | identityColumns => "identity_columns"
  | alterTableAddConstraint => "alter_table_add_constraint"
  | alterTableDropConstraint => "alter_table_drop_constraint"
  | selectForUpdate => "select_for_update"
  | tableLockHint => "table_lock_hint"
  | dropTableCascade => "drop_table_cascade"
  | dropTableIfExists => "drop_table_if_exists"
  | createIndexIfNotExists => "create_index_if_not_exists"
  | schemasInTableDefinitions => "schemas_in_table_definitions"
  | nullsOrdering => "nulls_ordering"
  | booleanLiterals => "boolean_literals"
  | checkInCreateStatements => "check_in_create_statements"
  | deferredConstraints => "deferred_constraints"
  | offsetFetch => "offset_fetch"
  | nullEqualsEmptyString => "null_equals_empty_string"

/-- Looks a key up; white space around it and the case of its letters do not matter. -/
def ofKey? (s : String) : Option Capability :=
  all.find? fun c => sameIgnoringCase c.key (trim s)

end Capability

end ObjectSql
