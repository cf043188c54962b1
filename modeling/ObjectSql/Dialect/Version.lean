import ObjectSql.Text.Blank
import ObjectSql.Text.Digits
import ObjectSql.Text.Split

/-!
# Product versions

A version has three numbers, ordered one after the other. Reading takes the numbers in front of a
version text and ignores what follows them, as products report texts such as `8.0.33-log`.
-/
namespace ObjectSql

open Text

structure Version where
  major : Nat
  minor : Nat
  revision : Nat
deriving Repr, DecidableEq, Inhabited

namespace Version

/-- At least `major.minor`. -/
def atLeast (v : Version) (major minor : Nat) : Bool :=
  v.major > major || (v.major == major && v.minor ≥ minor)

/-- At least another version in all three numbers. -/
def atLeastRevision (v w : Version) : Bool :=
  v.major > w.major ||
    (v.major == w.major && (v.minor > w.minor || (v.minor == w.minor && v.revision ≥ w.revision)))

def toText (v : Version) : String :=
  toString v.major ++ "." ++ toString v.minor ++ "." ++ toString v.revision

/-- Numbers in front of at most `limit` dotted components. Reading ends behind the first component
that is not a number throughout, and fails on a number of more than 32 bits. -/
def numbers : (limit : Nat) → List (List Char) → Option (List Nat)
  | 0, _ => some []
  | _, [] => some []
  | limit + 1, component :: rest =>
    let digits := component.takeWhile isDigit
    if digits.isEmpty then some []
    else
      match readBelow 0x100000000 digits with
      | none => none
      | some n =>
        if digits.length = component.length then (numbers limit rest).map (n :: ·) else some [n]

/-- Numbers that are not given are zero; at least one must be. -/
def read? (s : String) : Option Version :=
  match numbers 3 (splitChars '.' (trimChars s.toList)) with
  | some (major :: rest) => some ⟨major, rest.headD 0, (rest.drop 1).headD 0⟩
  | _ => none

end Version

end ObjectSql
