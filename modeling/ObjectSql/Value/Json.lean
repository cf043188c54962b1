import ObjectSql.Json.Access
import ObjectSql.Value

/-!
# Values as JSON

Null, truth values, integers of 64 bits and text are written as they are. Every other value is an
object with one member, which is named after its kind.
-/
namespace ObjectSql

open Text

namespace Date

def ofJson? : Json → Option Date
  | .array [year, month, day] => do
    let d : Date := ⟨← year.int32?, ← month.nat32?, ← day.nat32?⟩
    if d.isValid then pure d else none
  | _ => none

def jsonParts (d : Date) : List Json := [.int d.year, .nat d.month, .nat d.day]

end Date

namespace Timestamp

def ofJson? : Json → Option Timestamp
  | .array [year, month, day, hour, minute, second, nanos] => do
    let date : Date := ⟨← year.int32?, ← month.nat32?, ← day.nat32?⟩
    let t : Timestamp :=
      ⟨date, ← hour.nat32?, ← minute.nat32?, ← second.nat32?, ← nanos.nat32?⟩
    if t.isValid then pure t else none
  | _ => none

def jsonParts (t : Timestamp) : List Json :=
  t.date.jsonParts ++ [.nat t.hour, .nat t.minute, .nat t.second, .nat t.nanos]

end Timestamp

namespace Value

/-- Bytes from pairs of hexadecimal digits in either case. -/
def readBytes? : List Char → Option (List UInt8)
  | [] => some []
  | a :: b :: cs => do
    let x ← hexValue a
    let y ← hexValue b
    let rest ← readBytes? cs
    pure ((16 * x + y).toUInt8 :: rest)
  | _ => none

def ofJson? : Json → Option Value
  | .null => some .null
  | .bool b => some (.bool b)
  | .text s => s.map .text
  | .int n => (Json.int n).int64?.map .int
  | .object [(some "float", j)] => (j.string?.bind Binary64.read?).map .float
  | .object [(some "blob", j)] => (j.string?.bind fun s => readBytes? s.toList).map .blob
  | .object [(some "date", j)] => (Date.ofJson? j).map .date
  | .object [(some "timestamp", j)] => (Timestamp.ofJson? j).map .timestamp
  | .object [(some "uuid", j)] => (j.string?.bind Uuid.readHyphenated?).map .uuid
  | _ => none

def toJson : Value → Json
  | .null => .null
  | .bool b => .bool b
  | .int n => .int n
  | .text s => .str s
  | .float x => .record [("float", .str x.toText)]
  | .blob bytes =>
    .record [("blob", .str (String.ofList
      (bytes.flatMap fun b => hexDigits lowerHexDigit 2 b.toNat)))]
  | .date d => .record [("date", .array d.jsonParts)]
  | .timestamp t => .record [("timestamp", .array t.jsonParts)]
  | .uuid u => .record [("uuid", .str u.hyphenated)]

def listToJson (vs : List Value) : Json := .array (vs.map toJson)

end Value

end ObjectSql
