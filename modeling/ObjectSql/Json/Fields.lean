import ObjectSql.Json.Basic

/-!
# Reading records

A record is written as an object, in which unknown members are passed over, or as an array of the
values of its fields in their order, which may end early. No field may be given twice.
-/
namespace ObjectSql.Json

/-- What is written for a field. -/
inductive Slot where
  | given (j : Json)
  /-- The object has no member of the name. -/
  | absent
  /-- The array ends before the field. -/
  | cut

/-- The fields of a record by name. -/
structure Fields where
  slots : List (String × Slot)

/-- The slot of a field in an object; nothing if it is given twice. -/
def slotOf? (members : List (Option String × Json)) (name : String) : Option Slot :=
  match members.filter fun m => m.1 == some name with
  | [] => some .absent
  | [(_, j)] => some (.given j)
  | _ => none

/-- The slots of an array, one for each name. -/
def slotsOf : List String → List Json → List (String × Slot)
  | [], _ => []
  | name :: names, [] => (name, .cut) :: slotsOf names []
  | name :: names, j :: js => (name, .given j) :: slotsOf names js

/-- Takes a value for a record with the given fields. -/
def fields? (names : List String) : Json → Option Fields
  | object members =>
    if members.all fun m => m.1.isSome then
      (names.mapM fun name => (slotOf? members name).map (name, ·)).map Fields.mk
    else none
  | array items => if items.length ≤ names.length then some ⟨slotsOf names items⟩ else none
  | _ => none

namespace Fields

def slot (f : Fields) (name : String) : Slot := (f.slots.lookup name).getD .absent

def required {α : Type} (f : Fields) (name : String) (read : Json → Option α) : Option α :=
  match f.slot name with
  | .given j => read j
  | _ => none

/-- A field that has a value when it is not written, but does not take `null`. -/
def defaulted {α : Type} (f : Fields) (name : String) (default : α) (read : Json → Option α) :
    Option α :=
  match f.slot name with
  | .given j => read j
  | _ => some default

/-- A field that may be left out or `null`. -/
def optional {α : Type} (f : Fields) (name : String) (read : Json → Option α) : Option (Option α) :=
  match f.slot name with
  | .given null => some none
  | .given j => (read j).map some
  | _ => some none

/-- A field that may be `null`, and may be left out of an object but not of an array. -/
def nullable {α : Type} (f : Fields) (name : String) (read : Json → Option α) :
    Option (Option α) :=
  match f.slot name with
  | .cut => none
  | _ => f.optional name read

end Fields

/-! ## Values of fields -/

def string? : Json → Option String
  | text s => s
  | _ => none

def bool? : Json → Option Bool
  | bool b => some b
  | _ => none

/-- An integer of a range. -/
def intWithin? (least greatest : Int) : Json → Option Int
  | int n => if least ≤ n && n ≤ greatest then some n else none
  | _ => none

def int64? : Json → Option Int := intWithin? (-0x8000000000000000) 0x7FFFFFFFFFFFFFFF

def int32? : Json → Option Int := intWithin? (-0x80000000) 0x7FFFFFFF

def nat32? (j : Json) : Option Nat := (intWithin? 0 0xFFFFFFFF j).map Int.toNat

def list? {α : Type} (read : Json → Option α) : Json → Option (List α)
  | array items => items.mapM read
  | _ => none

def strings? : Json → Option (List String) := list? string?

end ObjectSql.Json
