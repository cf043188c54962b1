import ObjectSql.Error
import ObjectSql.Metadata.Fault
import ObjectSql.Value

/-!
# Errors of fetching

A datastore reports an error as a chain of links, the outermost first. A fetch fails because its
statement cannot be built, because metadata does not fit, because of the datastore or because there
is no row.
-/
namespace ObjectSql

open Text

/-- One link of a chain of datastore errors. -/
structure ErrorLink where
  code : Option String
  sqlState : Option String
  message : String
deriving Repr, DecidableEq, Inhabited

def ErrorLink.display (l : ErrorLink) : String :=
  l.message ++
    match l.code, l.sqlState with
    | some code, some state => " (code " ++ code ++ ", state " ++ state ++ ")"
    | some code, none => " (code " ++ code ++ ")"
    | none, some state => " (state " ++ state ++ ")"
    | none, none => ""

structure DatastoreError where
  /-- The statement that was executed. -/
  sql : Option String
  chain : List ErrorLink
deriving Repr, DecidableEq, Inhabited

namespace DatastoreError

def display (e : DatastoreError) : String :=
  (if e.chain.isEmpty then "unknown datastore error"
    else joined "; caused by: " (e.chain.map ErrorLink.display)) ++
    e.sql.elim "" fun sql => " [" ++ sql ++ "]"

def any (e : DatastoreError) (p : ErrorLink → Bool) : Bool := e.chain.any p

end DatastoreError

inductive FetchError where
  | sql (e : SqlError)
  /-- No row has the identity. -/
  | notFound (className : String) (identity : List Value)
  | datastore (e : DatastoreError)
  /-- The statement was cancelled or timed out. -/
  | cancelled (e : DatastoreError)
  | metadata (fault : MetadataFault)
deriving DecidableEq

namespace FetchError

def message : FetchError → String
  | sql e => e.message
  | notFound className identity =>
    "no " ++ className ++ " object with identity (" ++
      joined ", " (identity.map Value.display) ++ ")"
  | datastore e => "datastore error: " ++ e.display
  | cancelled e => "statement cancelled: " ++ e.display
  | metadata fault => "metadata error: " ++ fault.message

def isNotFound : FetchError → Bool
  | notFound _ _ => true
  | _ => false

def isCancelled : FetchError → Bool
  | cancelled _ => true
  | _ => false

end FetchError

end ObjectSql
