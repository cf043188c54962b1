import ObjectSql.Fetch.Run
import ObjectSql.Fetch.Request
import ObjectSql.Statement.Json

/-!
# Fetches as JSON

Datastore errors and selections are read; compiled requests and the events of a run are written.
-/
namespace ObjectSql

open Json

def ErrorLink.ofJson? (j : Json) : Option ErrorLink := do
  let message ← j.read? "message" string?
  let code ← j.readMaybe? "code" string?
  let sqlState ← j.readMaybe? "sql_state" string?
  pure { code, sqlState, message }

def DatastoreError.ofJson? (j : Json) : Option DatastoreError := do
  let chain ← j.readList? "chain" ErrorLink.ofJson?
  let sql ← j.readMaybe? "sql" string?
  pure { sql, chain }

def FetchKey.ofJson? (j : Json) : Option FetchKey := do
  let className ← j.read? "class" string?
  let fetch ← j.readList? "fetch" nat64?
  let store ← j.readList? "store" nat64?
  pure (.ofLists className fetch store)

def CompiledFetch.toJson (c : CompiledFetch) : Json :=
  .record
    [("unlocked", c.unlocked.toJson), ("locked", c.locked.toJson), ("mapping", c.layout.toJson),
      ("result_types", .strings c.resultTypes)]

def FetchRequest.toJson (r : FetchRequest) : Json :=
  .record
    [("class", .str r.className), ("table", .str r.table),
      ("statement", .option CompiledFetch.toJson r.statement), ("sql", .option .str (r.sql? false)),
      ("version_only", .bool r.isVersionOnly)]

def IdentityValue.toJson : IdentityValue → Json
  | surrogate v => .record [("surrogate", v.toJson)]
  | compound vs => .record [("compound", Value.listToJson vs)]

def ObjectReference.toJson (r : ObjectReference) : Json :=
  .record [("class", .str r.className), ("identity", r.identity.toJson)]

def LoadedObject.toJson (o : LoadedObject) : Json :=
  .record ([("reference", o.reference.toJson),
    ("fields", .array (o.fields.map fun f => .array [.nat f.1, f.2.toJson]))] ++
    o.discriminator.toList.map fun v => ("discriminator", v.toJson))

def FieldValue.toJson : FieldValue → Json
  | null => .null
  | scalar v => .record [("scalar", v.toJson)]
  | reference r => .record [("reference", r.toJson)]
  | object o => .record [("object", o.toJson)]

def FetchEvent.toJson : FetchEvent → Json
  | lockMode identity => .array [.str "lock_mode", Value.listToJson identity]
  | acquire => .array [.str "acquire"]
  | query sql params resultTypes =>
    .array [.str "query", .str sql, Value.listToJson params, .strings resultTypes]
  | release => .array [.str "release"]
  | setVersion v => .array [.str "version", v.toJson]
  | replaceField member v => .array [.str "field", .nat member, v.toJson]
  | storeReference member r =>
    .array [.str "store", .nat member, .option ObjectReference.toJson r]
  | loadDeferred member => .array [.str "deferred", .nat member]

end ObjectSql
