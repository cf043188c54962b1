import ObjectSql.Dialect.Profile
import ObjectSql.Json.Fields

/-!
# Profiles and sequences as JSON

Profiles are read and written by their configuration, and what a dialect settles is written too.
-/
namespace ObjectSql

namespace ProfileConfig

def ofJson? (j : Json) : Option ProfileConfig := do
  let f ← j.fields? ["vendor", "version", "enable", "disable"]
  let vendor ← f.required "vendor" Json.string?
  let version ← f.optional "version" Json.string?
  let enable ← f.defaulted "enable" [] Json.strings?
  let disable ← f.defaulted "disable" [] Json.strings?
  pure { vendor, version, enable, disable }

def toJson (c : ProfileConfig) : Json :=
  .record
    [("vendor", .str c.vendor), ("version", .option .str c.version),
      ("enable", .strings c.enable), ("disable", .strings c.disable)]

end ProfileConfig

namespace SequenceOptions

def ofJson? (j : Json) : Option SequenceOptions := do
  let f ← j.fields? ["name", "min", "max", "start", "increment", "cache"]
  let name ← f.optional "name" Json.string?
  let min ← f.optional "min" Json.int64?
  let max ← f.optional "max" Json.int64?
  let start ← f.optional "start" Json.int64?
  let increment ← f.optional "increment" Json.int64?
  let cache ← f.optional "cache" Json.int64?
  pure { name, min, max, start, increment, cache }

def toJson (o : SequenceOptions) : Json :=
  .record
    [("name", .option .str o.name), ("min", .option .int o.min), ("max", .option .int o.max),
      ("start", .option .int o.start), ("increment", .option .int o.increment),
      ("cache", .option .int o.cache)]

end SequenceOptions

def IdentifierCase.toJson : IdentifierCase → Json
  | upper => .str "upper"
  | lower => .str "lower"
  | preserve => .str "preserve"

def LockStyle.toJson : LockStyle → Json
  | none => .str "none"
  | forUpdate => .str "for_update"
  | forUpdateWithRs => .str "for_update_with_rs"
  | tableHint => .str "table_hint"

/-- A style, with what it depends on if there is anything. -/
def PaginationStyle.toJson : PaginationStyle → Json
  | unsupported => .str "unsupported"
  | limitOffset all => .record [("limit_offset", .option .str all)]
  | commaLimit all => .record [("comma_limit", .str all)]
  | offsetFetch offset ordering =>
    .record [("offset_fetch", .array [.bool offset, .bool ordering])]
  | fetchFirst => .str "fetch_first"

def IdentityPlacement.toJson : IdentityPlacement → Json
  | replaceType _ => .str "replace_type"
  | afterType _ => .str "after_type"
  | inlinePrimaryKey => .str "inline_primary_key"

def LastValueForm.toJson : LastValueForm → Json
  | fixed sql => .record [("fixed", .str sql)]
  | serialSequence => .str "serial_sequence"
  | unavailable => .str "unavailable"

/-- The keywords are those of the three widths, narrowest first. -/
def IdentitySyntax.toJson (s : IdentitySyntax) : Json :=
  .record
    [("placement", s.placement.toJson),
      ("keywords", .array (["i16", "i32", "i64"].map fun t =>
        .option .str (s.keyword (.ofLogicalType t)))),
      ("last_value", s.lastValue.toJson)]

end ObjectSql
