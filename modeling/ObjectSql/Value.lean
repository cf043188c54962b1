import ObjectSql.Calendar
import ObjectSql.Number.Decimal
import ObjectSql.Text.Split

/-!
# Datastore values

Values are bound to placeholders and read back from result rows. `Value.literal` is a value as a
literal of SQL text, `Value.display` is its text for people.
-/
namespace ObjectSql

open Text

/-- A universally unique identifier of 128 bits. -/
structure Uuid where
  bits : BitVec 128
deriving DecidableEq, Inhabited

namespace Uuid

/-- Lower case hexadecimal digits in groups of 8, 4, 4, 4 and 12. -/
def hyphenated (u : Uuid) : String :=
  let ds := hexDigits lowerHexDigit 32 u.bits.toNat
  String.ofList (ds.take 8 ++ '-' :: (ds.drop 8).take 4 ++ '-' :: (ds.drop 12).take 4 ++
    '-' :: (ds.drop 16).take 4 ++ '-' :: ds.drop 20)

/-- Reads the hyphenated form in either case. -/
def readHyphenated? (s : String) : Option Uuid :=
  let groups := splitChars '-' s.toList
  if groups.map List.length = [8, 4, 4, 4, 12] then
    (groups.flatten.mapM hexValue).map fun vs =>
      ⟨BitVec.ofNat 128 (vs.foldl (fun n v => 16 * n + v) 0)⟩
  else none

end Uuid

inductive Value where
  | null
  | bool (b : Bool)
  | int (n : Int)
  | float (x : Binary64)
  | text (s : String)
  | blob (bytes : List UInt8)
  | date (d : Date)
  | timestamp (t : Timestamp)
  | uuid (u : Uuid)
deriving DecidableEq, Inhabited

namespace Value

def isNull : Value → Bool
  | null => true
  | _ => false

/-- Equality of literals: floats are compared as numbers. -/
def same : Value → Value → Bool
  | float x, float y => x.numericEq y
  | v, w => v == w

/-- Text between single quotes, a quote inside written twice. -/
def quotedText (s : String) : String := "'" ++ doubled '\x27' s ++ "'"

def blobDigits (bytes : List UInt8) : String :=
  String.ofList (bytes.flatMap fun b => hexDigits upperHexDigit 2 b.toNat)

/-- The value as SQL text; without boolean literals truth values are written as numbers. -/
def literal (booleanLiterals : Bool) : Value → String
  | null => "NULL"
  | bool b =>
    if booleanLiterals then (if b then "TRUE" else "FALSE") else (if b then "1" else "0")
  | int n => toString n
  | float x => x.toText
  | text s => quotedText s
  | blob bytes => "X'" ++ blobDigits bytes ++ "'"
  | date d => "DATE '" ++ d.toText ++ "'"
  | timestamp t => "TIMESTAMP '" ++ t.toText ++ "'"
  | uuid u => "'" ++ u.hyphenated ++ "'"

def display : Value → String
  | null => "null"
  | bool b => if b then "true" else "false"
  | int n => toString n
  | float x => x.toText
  | text s => s
  | blob bytes => "<" ++ toString bytes.length ++ " bytes>"
  | date d => d.toText
  | timestamp t => t.toText
  | uuid u => u.hyphenated

end Value

end ObjectSql
