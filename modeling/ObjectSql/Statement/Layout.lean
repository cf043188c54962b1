import ObjectSql.Value

/-!
# Layout of compiled statements

A layout says for each member of a class, and for the columns that manage a row, at which positions
of a result row its columns stand and at which placeholders its values are bound. Positions count
from one.
-/
namespace ObjectSql

/-- A member by its number, or a column that the datastore layer manages. -/
inductive MappingKey where
  | member (number : Nat)
  | datastoreId
  | version
  | tenant
  | softDelete
  | discriminator
deriving Repr, DecidableEq, Inhabited

/-- The place of a key in a layout: members by number first, then the managed columns. -/
def MappingKey.rank : MappingKey → Nat × Nat
  | member number => (0, number)
  | datastoreId => (1, 0)
  | version => (2, 0)
  | tenant => (3, 0)
  | softDelete => (4, 0)
  | discriminator => (5, 0)

def MappingKey.before (k l : MappingKey) : Bool :=
  k.rank.1 < l.rank.1 || (k.rank.1 == l.rank.1 && k.rank.2 < l.rank.2)

/-- A placeholder of a statement. -/
structure BoundParameter where
  key : MappingKey
  /-- The column of the member; column 0 begins a new occurrence of it. -/
  column : Nat
  /-- A value fixed when the statement is compiled; others are given at every execution. -/
  value : Option Value
deriving DecidableEq, Inhabited

namespace BoundParameter

def deferred (key : MappingKey) (column : Nat) : BoundParameter := ⟨key, column, none⟩

def fixed (key : MappingKey) (value : Value) : BoundParameter := ⟨key, 0, some value⟩

/-- Equality that compares floats as numbers. -/
def same (p q : BoundParameter) : Bool :=
  p.key == q.key && p.column == q.column &&
    match p.value, q.value with
    | none, none => true
    | some v, some w => v.same w
    | _, _ => false

end BoundParameter

structure MemberLayout where
  /-- Result positions, one per column. -/
  columns : List Nat
  /-- Placeholder positions of each occurrence. -/
  params : List (List Nat)
deriving Repr, DecidableEq, Inhabited

namespace MemberLayout

def empty : MemberLayout := ⟨[], []⟩

/-- Extends the latest occurrence by a position. -/
def extendLast (position : Nat) : List (List Nat) → List (List Nat)
  | [] => [[position]]
  | [occurrence] => [occurrence ++ [position]]
  | occurrence :: rest => occurrence :: extendLast position rest

/-- Notes a placeholder for a column of the member. -/
def addParam (m : MemberLayout) (column position : Nat) : MemberLayout :=
  { m with
    params := if 0 < column then extendLast position m.params else m.params ++ [[position]] }

end MemberLayout

/-- Member layouts in the order of their keys. -/
structure Layout where
  entries : List (MappingKey × MemberLayout)
deriving Repr, DecidableEq, Inhabited

namespace Layout

def empty : Layout := ⟨[]⟩

/-- Changes the entry of a key, which is empty at first. -/
def modifyEntries (key : MappingKey) (f : MemberLayout → MemberLayout) :
    List (MappingKey × MemberLayout) → List (MappingKey × MemberLayout)
  | [] => [(key, f .empty)]
  | (k, m) :: rest =>
    if k = key then (k, f m) :: rest
    else if key.before k then (key, f .empty) :: (k, m) :: rest
    else (k, m) :: modifyEntries key f rest

def modify (l : Layout) (key : MappingKey) (f : MemberLayout → MemberLayout) : Layout :=
  ⟨modifyEntries key f l.entries⟩

def setColumns (l : Layout) (key : MappingKey) (positions : List Nat) : Layout :=
  l.modify key fun m => { m with columns := positions }

/-- Notes placeholders from a position on. -/
def recordFrom (l : Layout) (position : Nat) : List BoundParameter → Layout
  | [] => l
  | p :: ps =>
    (l.modify p.key fun m => m.addParam p.column position).recordFrom (position + 1) ps

/-- Notes the placeholders of a statement in their order. -/
def recordParameters (l : Layout) (params : List BoundParameter) : Layout := l.recordFrom 1 params

def find? (l : Layout) (key : MappingKey) : Option MemberLayout := l.entries.lookup key

/-- Result positions of a key; none if the layout does not have it. -/
def positions (l : Layout) (key : MappingKey) : List Nat :=
  ((l.find? key).map MemberLayout.columns).getD []

/-- Numbers of the members that have result columns. -/
def resultMembers (l : Layout) : List Nat :=
  l.entries.filterMap fun e =>
    match e.1 with
    | .member n => if e.2.columns.isEmpty then none else some n
    | _ => none

/-- Number of placeholder positions over all occurrences. -/
def paramWidth (l : Layout) : Nat :=
  (l.entries.flatMap fun e => e.2.params.flatten).length

end Layout

/-- The layout of a class, with the layouts of related objects that are read from the same row. -/
structure ClassLayout where
  className : String
  layout : Layout
  /-- By member number, in ascending order. -/
  children : List (Nat × ClassLayout)
deriving Inhabited

namespace ClassLayout

def empty (className : String) : ClassLayout := ⟨className, .empty, []⟩

def insertChild (member : Nat) (child : ClassLayout) :
    List (Nat × ClassLayout) → List (Nat × ClassLayout)
  | [] => [(member, child)]
  | (n, c) :: rest =>
    if n = member then (member, child) :: rest
    else if member < n then (member, child) :: (n, c) :: rest
    else (n, c) :: insertChild member child rest

def addChild (c : ClassLayout) (member : Nat) (child : ClassLayout) : ClassLayout :=
  { c with children := insertChild member child c.children }

def child? (c : ClassLayout) (member : Nat) : Option ClassLayout := c.children.lookup member

end ClassLayout

end ObjectSql
