import ObjectSql.Dialect.Vendor
import ObjectSql.Text.Split

/-!
# Identifiers

A product folds unquoted names to one case, limits their length, allows certain characters in them
and has a pair of quote characters for all others. A name that is too long keeps its beginning and
ends in four hexadecimal digits of a hash of the whole name.
-/
namespace ObjectSql

open Text

/-- How a product folds names. -/
inductive IdentifierCase where
  | upper
  | lower
  | preserve
deriving Repr, DecidableEq, Inhabited

/-- What an identifier names. -/
inductive IdentifierKind where
  | table
  | column
  | constraint
  | index
  | sequence
deriving Repr, DecidableEq, Inhabited

/-- The 32-bit FNV-1a hash of the UTF-8 bytes of a name. -/
def nameHash (name : String) : UInt32 :=
  name.toUTF8.data.toList.foldl (fun h b => (h ^^^ b.toUInt32) * 0x01000193) 0x811C9DC5

/-- Shortens a name to `limit` characters. -/
def truncateName (name : String) (limit : Nat) : String :=
  let cs := name.toList
  if cs.length ≤ limit then name
  else if limit ≤ 4 then String.ofList (cs.take limit)
  else
    String.ofList (cs.take (limit - 4) ++ hexDigits upperHexDigit 4 (nameHash name).toNat)

/-- The conventions of a product for identifiers. -/
structure IdentifierPolicy where
  case : IdentifierCase
  openQuote : Char
  closeQuote : Char
  maxLength : IdentifierKind → Nat
  /-- Whether the characters of a name allow it without quotes. -/
  isPlain : List Char → Bool

namespace IdentifierPolicy

def isLetter (c : Char) : Bool := ('a' ≤ c && c ≤ 'z') || ('A' ≤ c && c ≤ 'Z')

def isLetterOrDigit (c : Char) : Bool := isLetter c || isDigit c

/-- A first character of one class followed by characters of another. -/
def headTail (head tail : Char → Bool) : List Char → Bool
  | [] => false
  | c :: cs => head c && cs.all tail

def isPlainFor : Vendor → List Char → Bool
  | .generic | .derby => headTail isLetter fun c => isLetterOrDigit c || c == '_'
  | .sqlite | .h2 =>
    headTail (fun c => isLetter c || c == '_') fun c => isLetterOrDigit c || c == '_'
  | .postgresql =>
    headTail (fun c => isLetter c || c == '_') fun c => isLetterOrDigit c || c == '_' || c == '$'
  | .mysql => fun cs =>
    cs.all (fun c => isLetterOrDigit c || c == '_' || c == '$') && cs.any fun c => !isDigit c
  | .sqlserver =>
    headTail (fun c => isLetter c || c == '_' || c == '@' || c == '#')
      fun c => isLetterOrDigit c || c == '_' || c == '@' || c == '#' || c == '$'
  | .oracle =>
    headTail isLetter fun c => isLetterOrDigit c || c == '_' || c == '$' || c == '#'
  | .db2 =>
    headTail (fun c => isLetter c || c == '@' || c == '#' || c == '$')
      fun c => isLetterOrDigit c || c == '_' || c == '@' || c == '#' || c == '$'

def caseOf : Vendor → IdentifierCase
  | .postgresql => .lower
  | .mysql | .sqlite | .sqlserver => .preserve
  | .generic | .oracle | .derby | .h2 | .db2 => .upper

def quotesOf : Vendor → Char × Char
  | .mysql => ('\x60', '\x60')
  | .sqlserver => ('[', ']')
  | _ => ('"', '"')

/-- The longest name, which is the same for all kinds. -/
def limitOf (v : Vendor) (version : Version) : Nat :=
  match v with
  | .postgresql => 63
  | .mysql => 64
  | .oracle => if version.atLeast 12 2 then 128 else 30
  | .h2 => 256
  | .generic | .sqlite | .sqlserver | .derby | .db2 => 128

def ofVendor (v : Vendor) (version : Version) : IdentifierPolicy where
  case := caseOf v
  openQuote := (quotesOf v).1
  closeQuote := (quotesOf v).2
  maxLength := fun _ => limitOf v version
  isPlain := isPlainFor v

def fold (p : IdentifierPolicy) (name : String) : String :=
  match p.case with
  | .upper => upper name
  | .lower => lower name
  | .preserve => name

/-- The name between quotes, with the closing quote doubled inside. -/
def quote (p : IdentifierPolicy) (name : String) : String :=
  String.singleton p.openQuote ++ doubled p.closeQuote name ++ String.singleton p.closeQuote

def truncate (p : IdentifierPolicy) (name : String) (kind : IdentifierKind) : String :=
  truncateName name (p.maxLength kind)

end IdentifierPolicy

end ObjectSql
