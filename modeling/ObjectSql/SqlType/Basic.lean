import ObjectSql.SqlType.Code
import ObjectSql.Text.Blank
import ObjectSql.Text.Casing
import ObjectSql.Text.Split

/-!
# SQL types

A type as written in a column definition: a name, and for some types a length or a precision and a
scale in parentheses.
-/
namespace ObjectSql

open Text

structure SqlType where
  /-- The name without parameters. -/
  name : String
  code : TypeCode
  maxPrecision : Option Nat
  acceptsLength : Bool
  acceptsScale : Bool
  /-- The length of a column that declares none. -/
  defaultLength : Option Nat
deriving Repr, DecidableEq, Inhabited

namespace SqlType

/-- A type without parameters. -/
def fixed (name : String) (code : TypeCode) : SqlType := ⟨name, code, none, false, false, none⟩

/-- A type with a length. -/
def sized (name : String) (code : TypeCode) (length : Nat) : SqlType :=
  ⟨name, code, none, true, false, some length⟩

/-- A type with a precision and a scale. -/
def scaled (name : String) (code : TypeCode) (precision : Nat) : SqlType :=
  ⟨name, code, some precision, true, true, some (min precision 19)⟩

/-- The part of a type's text in front of its parameters. -/
def baseName (s : String) : String := trim (String.ofList (s.toList.takeWhile (· != '(')))

/-- Whether a text designates the type; case, parameters and surrounding blanks do not matter. -/
def hasName (t : SqlType) (s : String) : Bool :=
  sameIgnoringCase t.name (trim s) || sameIgnoringCase t.name (baseName (trim s))

/-- The length to write: a declared one or the default, but never more than the maximum. -/
def lengthFor (t : SqlType) (declared : Option Nat) : Option Nat :=
  (declared <|> t.defaultLength).map fun n => (t.maxPrecision.map (min n)).getD n

def render (t : SqlType) (length scale : Option Nat) : String :=
  if t.acceptsLength then
    match t.lengthFor length with
    | some n =>
      if t.acceptsScale then
        t.name ++ "(" ++ toString n ++ "," ++ toString (scale.getD 0) ++ ")"
      else t.name ++ "(" ++ toString n ++ ")"
    | none => t.name
  else t.name

end SqlType

end ObjectSql
