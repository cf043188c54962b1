import ObjectSql.Statement.Text
import ObjectSql.Value.Json

/-!
# SQL text and layouts as JSON

A member is written as its number and a managed column as its name.
-/
namespace ObjectSql

namespace MappingKey

/-- The managed columns with their names. -/
def managed : List (String × MappingKey) :=
  [("datastore_id", datastoreId), ("version", version), ("tenant", tenant),
    ("soft_delete", softDelete), ("discriminator", discriminator)]

def ofJson? (j : Json) : Option MappingKey :=
  match j with
  | .text s => s.bind fun name => managed.lookup name
  | _ => j.nat64?.map member

def toJson (k : MappingKey) : Json :=
  match k with
  | member number => .nat number
  | _ => .option (fun e => .str e.1) (managed.find? fun e => e.2 == k)

end MappingKey

namespace BoundParameter

/-- A parameter is fixed if a value is written, be it `null`. -/
def ofJson? (j : Json) : Option BoundParameter := do
  let key ← j.read? "key" MappingKey.ofJson?
  match j.at? "value" with
  | some v => (Value.ofJson? v).map (fixed key)
  | none => (j.read? "column" Json.nat64?).map (deferred key)

def toJson (p : BoundParameter) : Json :=
  .record ([("key", p.key.toJson), ("column", .nat p.column)] ++
    p.value.toList.map fun v => ("value", v.toJson))

end BoundParameter

/-- The text, its parameters and the number of its placeholders. -/
def SqlText.jsonMembers (t : SqlText) : List (String × Json) :=
  [("sql", .str t.sql), ("params", .array (t.params.map BoundParameter.toJson)),
    ("placeholders", .nat t.placeholderCount)]

def SqlText.toJson (t : SqlText) : Json := .record t.jsonMembers

def MemberLayout.toJson (m : MemberLayout) : Json :=
  .record [("columns", .nats m.columns), ("params", .array (m.params.map .nats))]

def Layout.jsonMembers (l : Layout) : List (String × Json) :=
  [("index", .array (l.entries.map fun e => .array [e.1.toJson, e.2.toJson])),
    ("result_members", .nats l.resultMembers), ("param_width", .nat l.paramWidth)]

mutual

def ClassLayout.toJson : ClassLayout → Json
  | ⟨className, layout, children⟩ =>
    .record (("class", .str className) ::
      (layout.jsonMembers ++ [("children", .array (childrenToJson children))]))

def childrenToJson : List (Nat × ClassLayout) → List Json
  | [] => []
  | (member, child) :: rest => .array [.nat member, child.toJson] :: childrenToJson rest

end

end ObjectSql
