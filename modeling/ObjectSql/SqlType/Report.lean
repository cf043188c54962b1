import ObjectSql.Json.Basic
import ObjectSql.SqlType.Table

/-!
# Type reports

What a logical type can be stored as, in the words of column definitions.
-/
namespace ObjectSql

open Text

structure TypeReport where
  logicalType : String
  default : String
  candidates : List String
deriving Repr, DecidableEq, Inhabited

namespace TypeReport

def ofEntry (e : TypeEntry) : TypeReport where
  logicalType := e.logicalType
  default := e.default?.elim "" fun t => t.render none none
  candidates := e.candidates.map fun c => c.type.render none none

/-- The reports of all logical types, or of one. -/
def all (t : TypeTable) (logicalType : Option String) : Except SqlError (List TypeReport) :=
  match logicalType with
  | none => .ok (t.entries.map ofEntry)
  | some name =>
    match t.entry? name with
    | some e => .ok [ofEntry e]
    | none => .error (.unknownLogicalType name)

/-- A text with blanks behind it up to a width. -/
def padded (width : Nat) (s : String) : String :=
  s ++ String.ofList (List.replicate (width - s.length) ' ')

/-- The candidates other than the default stand in brackets. -/
def line (r : TypeReport) : String :=
  let others := r.candidates.filter (· != r.default)
  padded 12 r.logicalType ++ " " ++ r.default ++
    if others.isEmpty then "" else " [" ++ joined ", " others ++ "]"

def toJson (r : TypeReport) : Json :=
  .record
    [("logical_type", .str r.logicalType), ("default", .str r.default),
      ("candidates", .strings r.candidates)]

end TypeReport

end ObjectSql
