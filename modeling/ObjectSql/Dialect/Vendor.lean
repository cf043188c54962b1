import ObjectSql.Dialect.Capability
import ObjectSql.Dialect.Version

/-!
# Database products

Each product has a name, aliases, a version assumed when none is known, and the capabilities that
it has at a version: some in every version, others from a certain version on.
-/
namespace ObjectSql

open Text

inductive Vendor where
  | generic
  | postgresql
  | mysql
  | sqlite
  | sqlserver
  | oracle
  | derby
  | h2
  | db2
deriving Repr, DecidableEq, Inhabited

namespace Vendor

def name : Vendor → String
  | generic => "generic"
  | postgresql => "postgresql"
  | mysql => "mysql"
  | sqlite => "sqlite"
  | sqlserver => "sqlserver"
  | oracle => "oracle"
  | derby => "derby"
  | h2 => "h2"
  | db2 => "db2"

def ofAlias? (s : String) : Option Vendor :=
  match s with
  | "generic" | "sql92" | "ansi" => some generic
  | "postgresql" | "postgres" | "pg" | "pgsql" => some postgresql
  | "mysql" | "mariadb" => some mysql
  | "sqlite" | "sqlite3" => some sqlite
  | "sqlserver" | "mssql" | "microsoft sql server" => some sqlserver
  | "oracle" => some oracle
  | "derby" | "apache derby" => some derby
  | "h2" => some h2
  | "db2" | "ibm db2" => some db2
  | _ => none

/-- Reads a name or alias; white space around it and the case of its letters do not matter. -/
def read? (s : String) : Option Vendor := ofAlias? (asciiLower (trim s))

def defaultVersion : Vendor → Version
  | generic => ⟨0, 0, 0⟩
  | postgresql => ⟨16, 0, 0⟩
  | mysql => ⟨8, 0, 36⟩
  | sqlite => ⟨3, 45, 0⟩
  | sqlserver => ⟨16, 0, 0⟩
  | oracle => ⟨19, 0, 0⟩
  | derby => ⟨10, 16, 1⟩
  | h2 => ⟨2, 2, 224⟩
  | db2 => ⟨11, 5, 0⟩

open Capability in
/-- Capabilities of every version. -/
def base : Vendor → List Capability
  | generic =>
    [alterTableAddConstraint, alterTableDropConstraint, selectForUpdate, checkInCreateStatements,
     booleanLiterals]
  | postgresql =>
    [sequences, identityColumns, alterTableAddConstraint, alterTableDropConstraint,
     selectForUpdate, dropTableCascade, dropTableIfExists, schemasInTableDefinitions,
     nullsOrdering, booleanLiterals, checkInCreateStatements, deferredConstraints]
  | mysql =>
    [identityColumns, alterTableAddConstraint, alterTableDropConstraint, selectForUpdate,
     dropTableIfExists, schemasInTableDefinitions, booleanLiterals]
  | sqlite =>
    [identityColumns, dropTableIfExists, createIndexIfNotExists, checkInCreateStatements,
     deferredConstraints]
  | sqlserver =>
    [identityColumns, alterTableAddConstraint, alterTableDropConstraint, tableLockHint,
     schemasInTableDefinitions, checkInCreateStatements]
  | oracle =>
    [sequences, alterTableAddConstraint, alterTableDropConstraint, selectForUpdate,
     dropTableCascade, schemasInTableDefinitions, nullsOrdering, checkInCreateStatements,
     deferredConstraints, nullEqualsEmptyString]
  | derby =>
    [identityColumns, alterTableAddConstraint, alterTableDropConstraint, selectForUpdate,
     schemasInTableDefinitions, checkInCreateStatements]
  | h2 =>
    [sequences, identityColumns, alterTableAddConstraint, alterTableDropConstraint,
     selectForUpdate, dropTableCascade, dropTableIfExists, createIndexIfNotExists,
     schemasInTableDefinitions, nullsOrdering, booleanLiterals, checkInCreateStatements]
  | db2 =>
    [sequences, identityColumns, alterTableAddConstraint, alterTableDropConstraint,
     selectForUpdate, schemasInTableDefinitions, checkInCreateStatements]

open Capability in
/-- Capabilities with the version that brought them. -/
def gated : Vendor → List (Capability × Version)
  | generic => []
  | postgresql => [(createIndexIfNotExists, ⟨9, 5, 0⟩)]
  | mysql => [(checkInCreateStatements, ⟨8, 0, 16⟩)]
  | sqlite => [(nullsOrdering, ⟨3, 30, 0⟩), (booleanLiterals, ⟨3, 23, 0⟩)]
  | sqlserver =>
    [(sequences, ⟨11, 0, 0⟩), (offsetFetch, ⟨11, 0, 0⟩), (dropTableIfExists, ⟨13, 0, 0⟩)]
  | oracle => [(identityColumns, ⟨12, 1, 0⟩), (offsetFetch, ⟨12, 1, 0⟩)]
  | derby =>
    [(nullsOrdering, ⟨10, 4, 0⟩), (offsetFetch, ⟨10, 5, 0⟩), (sequences, ⟨10, 6, 0⟩),
     (booleanLiterals, ⟨10, 7, 0⟩)]
  | h2 => [(offsetFetch, ⟨2, 0, 0⟩)]
  | db2 => [(offsetFetch, ⟨11, 1, 0⟩)]

def supports (v : Vendor) (version : Version) (c : Capability) : Bool :=
  v.base.contains c || v.gated.any fun gate => gate.1 == c && version.atLeastRevision gate.2

/-- The capabilities of a version, in the order of their declaration. -/
def capabilities (v : Vendor) (version : Version) : List Capability :=
  Capability.all.filter (v.supports version)

end Vendor

end ObjectSql
