import ObjectSql.Schema.Key

/-!
# Tables

A table with its columns and keys. Columns are looked up without regard to the case of ASCII
letters.
-/
namespace ObjectSql

open Text

structure Table where
  name : String
  schema : Option String
  columns : List Column
  primaryKey : Option Key
  candidateKeys : List Key
  foreignKeys : List Key
  indices : List Key
deriving Repr, DecidableEq, Inhabited

namespace Table

def empty (name : String) (schema : Option String) : Table := ⟨name, schema, [], none, [], [], []⟩

def addColumn (t : Table) (c : Column) : Except SqlError Table :=
  if c.table = t.name then .ok { t with columns := t.columns ++ [c] }
  else .error (.columnNotInTable c.name c.table t.name)

def column (t : Table) (name : String) : Except SqlError Column :=
  match t.columns.find? fun c => sameIgnoringCase c.name name with
  | some c => .ok c
  | none => .error (.unknownColumn t.name name)

def isPrimaryKeyColumn (t : Table) (name : String) : Bool :=
  t.primaryKey.any fun k => k.columns.any fun c => c.any fun c => sameIgnoringCase c.name name

/-- A key with the named columns of the table added to it. -/
def fillKey (t : Table) : Key → List String → Except SqlError Key
  | k, [] => .ok k
  | k, name :: names => do
    let c ← t.column name
    let k ← k.addColumn c
    t.fillKey k names

end Table

end ObjectSql
