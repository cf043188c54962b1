import ObjectSql.Error
import ObjectSql.SqlType.Driver
import ObjectSql.SqlType.Registration

/-!
# Type tables

The SQL types in which each logical type can be stored. A table starts from the registration of a
product and learns further candidates from what a driver reports; learning appends to the
candidates and leaves the defaults alone.
-/
namespace ObjectSql

open Text

structure TypeCandidate where
  type : SqlType
  isDefault : Bool
  /-- Learned from a driver. -/
  learned : Bool
deriving Repr, DecidableEq, Inhabited

structure TypeEntry where
  logicalType : String
  candidates : List TypeCandidate
deriving Repr, DecidableEq, Inhabited

namespace TypeEntry

/-- An entry of registered types, the first of which is the default. -/
def registered (logicalType : String) (types : List SqlType) : TypeEntry where
  logicalType := logicalType
  candidates :=
    match types with
    | [] => []
    | t :: ts => ⟨t, true, false⟩ :: ts.map fun t => ⟨t, false, false⟩

def default? (e : TypeEntry) : Option SqlType :=
  (e.candidates.find? TypeCandidate.isDefault).map TypeCandidate.type

def candidate? (e : TypeEntry) (name : String) : Option TypeCandidate :=
  e.candidates.find? fun c => c.type.hasName name

/-- Whether a reported type is a new candidate: it has the code of the default and a new name. -/
def takes (e : TypeEntry) (t : SqlType) : Bool :=
  e.default?.any (fun d => d.code == t.code) && !(e.candidates.any fun c => c.type.hasName t.name)

def learn (e : TypeEntry) (t : SqlType) : TypeEntry :=
  if e.takes t then { e with candidates := e.candidates ++ [⟨t, false, true⟩] } else e

end TypeEntry

structure TypeTable where
  vendor : Vendor
  /-- Entries in the order of their logical types. -/
  entries : List TypeEntry
  /-- Types that a driver reported, by upper case name. -/
  driverTypes : List (String × SqlType)
  /-- How often the table was changed by learning. -/
  version : Nat
deriving Repr, DecidableEq, Inhabited

namespace TypeTable

def ofVendor (v : Vendor) (version : Version) : TypeTable where
  vendor := v
  entries := (Registration.candidates v version).map fun e => TypeEntry.registered e.1 e.2
  driverTypes := []
  version := 0

def entry? (t : TypeTable) (logicalType : String) : Option TypeEntry :=
  t.entries.find? fun e => e.logicalType == logicalType

def default (t : TypeTable) (logicalType : String) : Except SqlError SqlType :=
  match (t.entry? logicalType).bind TypeEntry.default? with
  | some s => .ok s
  | none => .error (.unknownLogicalType logicalType)

/-- The candidate of a logical type with an explicit name. -/
def resolve (t : TypeTable) (logicalType sqlType : String) : Except SqlError SqlType :=
  match t.entry? logicalType with
  | none => .error (.unknownLogicalType logicalType)
  | some e =>
    match e.candidate? sqlType with
    | some c => .ok c.type
    | none => .error (.noTypeCandidate logicalType sqlType)

/-- An explicit type when one is given, the default otherwise. -/
def forColumn (t : TypeTable) (logicalType : String) (sqlType : Option String) :
    Except SqlError SqlType :=
  match sqlType with
  | some name => t.resolve logicalType name
  | none => t.default logicalType

/-- Logical types that can be stored in a type, those with it as their default first. -/
def logicalTypesFor (t : TypeTable) (sqlType : String) : List String :=
  let found := t.entries.filterMap fun e =>
    (e.candidate? sqlType).map fun c => (c.isDefault, e.logicalType)
  (found.filter fun f => f.1).map Prod.snd ++ (found.filter fun f => !f.1).map Prod.snd

def driverType? (t : TypeTable) (name : String) : Option SqlType :=
  t.driverTypes.lookup (asciiUpper name)

/-- Whether the table lacks a reported type, or has another under its name. -/
def lacks (t : TypeTable) (s : SqlType) : Bool :=
  t.driverTypes.lookup (asciiUpper s.name) != some s

/-- Offers a type to every entry and records it under its name. -/
def record (t : TypeTable) (s : SqlType) : TypeTable :=
  let key := asciiUpper s.name
  { t with
    entries := t.entries.map fun e => e.learn s
    driverTypes := (key, s) :: t.driverTypes.filter fun d => d.1 != key }

/-- The table after a list of reports, the number of candidates added and whether a driver type
was new. -/
def recordAll (t : TypeTable) : List DriverType → TypeTable × Nat × Bool
  | [] => (t, 0, false)
  | raw :: raws =>
    let s := raw.normalized t.vendor
    let (learned, added, changed) := (t.record s).recordAll raws
    (learned, t.entries.countP (fun e => e.takes s) + added, t.lacks s || changed)

/-- Learns the types that a driver reports and counts the candidates added; the version moves on
only when something was new. -/
def learn (t : TypeTable) (reported : List DriverType) : TypeTable × Nat :=
  let (learned, added, changed) := t.recordAll reported
  (if 0 < added || changed then { learned with version := t.version + 1 } else learned, added)

end TypeTable

end ObjectSql
