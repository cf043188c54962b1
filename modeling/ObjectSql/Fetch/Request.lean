import ObjectSql.Expr.Render
import ObjectSql.Fetch.Error

/-!
# Fetch requests

A request names the members of a class to fetch and the relations to store as references only. Once
compiled it holds a statement, the layout of its rows and the way in which every member is read.
-/
namespace ObjectSql

/-- Which members of a class are asked for; both lists are ascending and without repetition. -/
structure FetchKey where
  className : String
  fetch : List Nat
  store : List Nat
deriving Repr, DecidableEq, Inhabited

namespace FetchKey

def insertMember (n : Nat) : List Nat → List Nat
  | [] => [n]
  | m :: ms => if n < m then n :: m :: ms else if n = m then m :: ms else m :: insertMember n ms

def memberSet (ns : List Nat) : List Nat := ns.foldr insertMember []

/-- Order and repetition of the lists do not matter. -/
def ofLists (className : String) (fetch store : List Nat) : FetchKey :=
  ⟨className, memberSet fetch, memberSet store⟩

end FetchKey

/-- How a fetched member is read. -/
inductive FieldPlan where
  | scalar (member : Nat)
  /-- A relation of which only the foreign key is read. -/
  | reference (member : Nat) (target : String) (surrogate : Bool)
  /-- A relation with the related row, whose identity is at the given keys. -/
  | object (member : Nat) (target : String) (surrogate : Bool) (identity : List MappingKey)
deriving Repr, DecidableEq, Inhabited

/-- A relation that is stored as a reference. -/
structure StorePlan where
  member : Nat
  target : String
  surrogate : Bool
deriving Repr, DecidableEq, Inhabited

/-- A statement with the layout of its rows and placeholders. -/
structure CompiledFetch where
  query : Select
  unlocked : SqlText
  locked : SqlText
  layout : ClassLayout
  /-- The logical type of every projected expression. -/
  resultTypes : List String

def CompiledFetch.text (c : CompiledFetch) (lock : Bool) : SqlText :=
  if lock then c.locked else c.unlocked

structure FetchRequest where
  className : String
  /-- The primary table of the statement. -/
  table : String
  /-- There is none if nothing is read from a row. -/
  statement : Option CompiledFetch
  fields : List FieldPlan
  store : List StorePlan
  /-- Members that the object loads after the row. -/
  deferred : List Nat
  hasVersion : Bool
  versionMember : Option Nat
  /-- Which placeholder takes which identity value. -/
  identity : List (MappingKey × Nat)

namespace FetchRequest

def sql? (r : FetchRequest) (lock : Bool) : Option String :=
  r.statement.map fun c => (c.text lock).sql

/-- Whether a request reads the version and nothing else. -/
def isVersionOnly (r : FetchRequest) : Bool :=
  r.hasVersion && r.fields.isEmpty && r.store.isEmpty && r.deferred.isEmpty

end FetchRequest

end ObjectSql
