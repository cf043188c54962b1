import ObjectSql.Dialect.Identifier
import ObjectSql.Dialect.Identity
import ObjectSql.Dialect.Keywords
import ObjectSql.Dialect.Pagination
import ObjectSql.Dialect.Sequence
import ObjectSql.SqlType.Table

/-!
# Dialect profiles

A profile is a product at a version with a set of capabilities and a type table. Everything that
differs between products in the text of SQL is derived from it: identifiers, row ranges, identity
columns, sequences, row locks and the recognition of cancelled statements.
-/
namespace ObjectSql

open Text

/-- How a statement locks the rows that it reads. -/
inductive LockStyle where
  | none
  | forUpdate
  | forUpdateWithRs
  | tableHint
deriving Repr, DecidableEq, Inhabited

/-- What a profile is built from: names as a user writes them, and switches to force. -/
structure ProfileConfig where
  vendor : String
  version : Option String
  enable : List String
  disable : List String
deriving Repr, DecidableEq, Inhabited

structure Profile where
  vendor : Vendor
  version : Version
  /-- In the order of declaration. -/
  capabilities : List Capability
  types : TypeTable
deriving Repr, Inhabited

namespace Profile

/-- The capabilities of the version, with some forced on and then some forced off. -/
def withOverrides (v : Vendor) (version : Version) (enable disable : List Capability) :
    Profile where
  vendor := v
  version := version
  capabilities := Capability.all.filter fun c =>
    (v.supports version c || enable.contains c) && !disable.contains c
  types := TypeTable.ofVendor v version

def ofVendor (v : Vendor) (version : Version) : Profile := withOverrides v version [] []

def readCapabilities : List String → Except SqlError (List Capability)
  | [] => .ok []
  | key :: keys =>
    match Capability.ofKey? key with
    | none => .error (.unknownCapability key)
    | some c => (readCapabilities keys).map (c :: ·)

def readVersion (v : Vendor) : Option String → Except SqlError Version
  | none => .ok v.defaultVersion
  | some s =>
    match Version.read? s with
    | some version => .ok version
    | none => .error (.invalidVersion s)

def ofConfig (c : ProfileConfig) : Except SqlError Profile :=
  match Vendor.read? c.vendor with
  | none => .error (.unknownVendor c.vendor)
  | some v => do
    let version ← readVersion v c.version
    let enable ← readCapabilities c.enable
    let disable ← readCapabilities c.disable
    pure (withOverrides v version enable disable)

def supports (p : Profile) (c : Capability) : Bool := p.capabilities.contains c

/-- Whether the capability of a key is on. -/
def supportsKey (p : Profile) (key : String) : Except SqlError Bool :=
  match Capability.ofKey? key with
  | some c => .ok (p.supports c)
  | none => .error (.unknownCapability key)

/-! ## Identifiers -/

def isReserved (p : Profile) (word : String) : Bool := Keywords.isReserved p.vendor word

def identifiers (p : Profile) : IdentifierPolicy := IdentifierPolicy.ofVendor p.vendor p.version

/-- A name as it stands in SQL text: shortened, folded, and quoted if it is reserved or not
plain. -/
def identifier (p : Profile) (kind : IdentifierKind) (name : String) : String :=
  let name := p.identifiers.fold (p.identifiers.truncate name kind)
  if p.isReserved name || !p.identifiers.isPlain name.toList then p.identifiers.quote name else name

/-! ## Row ranges and locks -/

def pagination (p : Profile) : PaginationStyle :=
  let fetch := p.supports .offsetFetch
  match p.vendor with
  | .postgresql => .limitOffset none
  | .sqlite => .limitOffset (some "-1")
  | .mysql => .commaLimit "18446744073709551615"
  | .h2 => if fetch then .offsetFetch false false else .limitOffset none
  | .db2 => if fetch then .offsetFetch false false else .fetchFirst
  | .sqlserver => if fetch then .offsetFetch true true else .unsupported
  | .generic | .oracle | .derby => if fetch then .offsetFetch false false else .unsupported

def rangeClause (p : Profile) (offset count : Int) (ordered : Bool) : String :=
  p.pagination.clause offset count ordered

def lockStyle (p : Profile) : LockStyle :=
  if p.supports .tableLockHint then .tableHint
  else if p.supports .selectForUpdate then
    match p.vendor with
    | .derby | .db2 => .forUpdateWithRs
    | _ => .forUpdate
  else .none

/-! ## Identity columns -/

def identity? (p : Profile) : Option IdentitySyntax :=
  if p.supports .identityColumns then some (IdentitySyntax.ofVendor p.vendor) else none

/-- The keyword of an identity column; nothing where it is declared inline. -/
def identityKeyword (p : Profile) (logicalType : String) : Except SqlError (Option String) :=
  match p.identity? with
  | some s => .ok (s.keyword (IntegerWidth.ofLogicalType logicalType))
  | none => .error (.unsupported p.vendor .identityColumns)

/-- The statement that reads the value last generated for a column. -/
def identityLastValue (p : Profile) (table column : String) : Except SqlError String :=
  match p.identity?.map IdentitySyntax.lastValue with
  | some (.fixed sql) => .ok sql
  | some .serialSequence =>
    .ok ("SELECT currval(pg_get_serial_sequence('" ++ p.identifier .table table ++ "','" ++
      p.identifier .column column ++ "'))")
  | some .unavailable | none => .error (.unsupported p.vendor .lastIdentityValue)

/-! ## Sequences -/

def sequences? (p : Profile) : Option SequenceSyntax :=
  if p.supports .sequences then SequenceSyntax.ofVendor p.vendor else none

/-- The sequence syntax with the name to write; a blank name counts as none. -/
def namedSequence (p : Profile) (name : Option String) :
    Except SqlError (SequenceSyntax × String) :=
  match name with
  | none => .error .missingSequenceName
  | some name =>
    if isBlankText name then .error .missingSequenceName
    else
      match p.sequences? with
      | none => .error (.unsupported p.vendor .sequences)
      | some s => .ok (s, p.identifier .sequence name)

def createSequence (p : Profile) (o : SequenceOptions) : Except SqlError String :=
  (p.namedSequence o.name).bind fun (s, name) => s.create p.vendor name o

def dropSequence (p : Profile) (name : String) : Except SqlError String :=
  (p.namedSequence (some name)).map fun (s, name) => s.drop name

/-- The statement that reads the next value of a sequence. -/
def sequenceNextValue (p : Profile) (name : String) : Except SqlError String :=
  (p.namedSequence (some name)).map fun (s, name) => s.nextValueStatement name

/-! ## Types and errors of a connection -/

def learn (p : Profile) (reported : List DriverType) : Profile × Nat :=
  let (types, added) := p.types.learn reported
  ({ p with types := types }, added)

/-- Vendor codes of a cancelled statement. -/
def cancelCodes : Vendor → List String
  | .mysql => ["1317", "3024"]
  | .oracle => ["1013", "ORA-01013"]
  | .sqlite => ["9"]
  | .h2 => ["57014"]
  | _ => []

/-- Whether an error of the datastore means that the statement was cancelled or timed out. -/
def isStatementCancel (p : Profile) (code sqlState : Option String) : Bool :=
  sqlState.any (["57014", "HY008", "XCL52"].contains ·) ||
    code.any fun c => (cancelCodes p.vendor).contains (trim c)

end Profile

end ObjectSql
