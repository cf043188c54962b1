import ObjectSql.Error
import ObjectSql.Schema.Column
import ObjectSql.Text.Split

/-!
# Keys and constraints

A key is an ordered set of columns of one table. Columns are appended, or placed at a position when
they become known out of order, so a key may have positions that are not set. Two keys of one family
with the same columns are the same key in whatever order the columns stand.
-/
namespace ObjectSql

open Text

/-- What happens to referring rows. -/
inductive ForeignKeyAction where
  | cascade
  | setNull
  | setDefault
  | restrict
  | noAction
deriving Repr, DecidableEq, Inhabited

def ForeignKeyAction.sql : ForeignKeyAction → String
  | cascade => "CASCADE"
  | setNull => "SET NULL"
  | setDefault => "SET DEFAULT"
  | restrict => "RESTRICT"
  | noAction => "NO ACTION"

/-- What a foreign key refers to. -/
structure Reference where
  table : String
  /-- In the order of the key. -/
  columns : List String
  onDelete : Option ForeignKeyAction
  onUpdate : Option ForeignKeyAction
deriving Repr, DecidableEq, Inhabited

inductive KeyKind where
  | primary
  | candidate
  | foreign (reference : Reference)
  | index (unique : Bool)
deriving Repr, DecidableEq, Inhabited

inductive KeyFamily where
  | primary
  | candidate
  | foreign
  | index
deriving Repr, DecidableEq, Inhabited, Hashable

def KeyKind.family : KeyKind → KeyFamily
  | primary => .primary
  | candidate => .candidate
  | foreign _ => .foreign
  | index _ => .index

def KeyFamily.label : KeyFamily → String
  | primary => "PRIMARY KEY"
  | candidate => "UNIQUE"
  | foreign => "FOREIGN KEY"
  | index => "INDEX"

/-- A value that is written to a hasher. -/
inductive HashWrite where
  | family (f : KeyFamily)
  /-- How many elements of a list follow. -/
  | length (n : Nat)
  | text (s : String)
deriving Repr, DecidableEq, Inhabited, Hashable

structure Key where
  name : Option String
  table : String
  kind : KeyKind
  /-- By position; nothing where a position is not set. -/
  columns : List (Option Column)
deriving Repr, DecidableEq, Inhabited

namespace Key

def empty (table : String) (kind : KeyKind) (name : Option String) : Key :=
  ⟨name, table, kind, []⟩

/-- Columns and actions of a foreign key; other keys stay as they are. -/
def references (k : Key) (columns : List String) (onDelete onUpdate : Option ForeignKeyAction) :
    Key :=
  match k.kind with
  | .foreign r => { k with kind := .foreign ⟨r.table, columns, onDelete, onUpdate⟩ }
  | _ => k

def size (k : Key) : Nat := k.columns.length

def isComplete (k : Key) : Bool := !k.columns.isEmpty && k.columns.all Option.isSome

/-- The name of the key in messages. -/
def describe (k : Key) : String :=
  k.name.getD (k.kind.family.label ++ " on " ++ k.table)

def checkOwner (k : Key) (c : Column) : Except SqlError Unit :=
  if c.table = k.table then .ok () else .error (.columnNotInTable c.name c.table k.table)

def addColumn (k : Key) (c : Column) : Except SqlError Key :=
  (k.checkOwner c).map fun _ => { k with columns := k.columns ++ [some c] }

/-- The key with unset positions up to and with `ordinal`. -/
def grow (k : Key) (ordinal : Nat) : Key :=
  { k with columns := k.columns ++ List.replicate (ordinal + 1 - k.size) none }

/-- What comes of placing a column. -/
inductive Placing where
  | placed (after : Key)
  | refused (after : Key) (e : SqlError)
  /-- The key would have more positions than a size can tell. The call does not return. -/
  | overflow
deriving Repr, DecidableEq, Inhabited

/-- Sizes are numbers of 64 bits. That memory may hold fewer positions is left out. -/
def maxSize : Nat := 0xFFFFFFFFFFFFFFFF

/-- The key grows even if the position turns out to be taken. -/
def setColumn (k : Key) (ordinal : Nat) (c : Column) : Placing :=
  match k.checkOwner c with
  | .error e => .refused k e
  | .ok _ =>
    if k.size ≤ ordinal ∧ maxSize ≤ ordinal then .overflow
    else
      let grown := k.grow ordinal
      match grown.columns[ordinal]? with
      | some (some _) => .refused grown (.duplicateOrdinal k.describe ordinal)
      | _ => .placed { grown with columns := grown.columns.set ordinal (some c) }

/-- The columns in parentheses, with a question mark for an unset position. -/
def columnListWith (k : Key) (render : Column → String) : String :=
  "(" ++ joined "," (k.columns.map fun c => (c.map render).getD "?") ++ ")"

def columnList (k : Key) : String := k.columnListWith Column.name

def completeColumns (k : Key) : Except SqlError (List Column) :=
  if k.isComplete then .ok (k.columns.filterMap id) else .error (.incompleteKey k.describe)

def display (k : Key) : String := k.kind.family.label ++ " " ++ k.columnList

/-- Table and column names in one order for all arrangements of the columns. -/
def members (k : Key) : List (String × String) :=
  (k.columns.map fun c => (c.map fun c => (c.table, c.name)).getD ("", "?")).mergeSort
    fun a b => a.1 < b.1 || (a.1 == b.1 && !(b.2 < a.2))

/-- Whether two keys count as the same. -/
def same (k l : Key) : Bool :=
  k.kind.family == l.kind.family && k.size == l.size && k.members == l.members

/-- What a key writes to a hasher. -/
def hashed (k : Key) : List HashWrite :=
  .family k.kind.family :: .length k.members.length ::
    k.members.flatMap fun m => [.text m.1, .text m.2]

/-- The state of a hasher after a key. -/
def feed {σ : Type} (write : σ → HashWrite → σ) (state : σ) (k : Key) : σ :=
  k.hashed.foldl write state

instance : Hashable Key where
  hash k := k.feed (fun state w => mixHash state (hash w)) 7

end Key

end ObjectSql
