import ObjectSql.Json.Fields

/-!
# Members of objects

Reading single members of an object. A member that need not be there may also be `null`.
-/
namespace ObjectSql.Json

variable {α β : Type}

/-- The member of a name, if the value is an object that has it. -/
def at? (j : Json) (name : String) : Option Json :=
  match j with
  | object members => member? name members
  | _ => none

def read? (j : Json) (name : String) (read : Json → Option α) : Option α := (j.at? name).bind read

/-- Reads everything but `null`. -/
def nullOr? (read : Json → Option α) : Json → Option (Option α)
  | null => some none
  | j => (read j).map some

def readMaybe? (j : Json) (name : String) (read : Json → Option α) : Option (Option α) :=
  nullOr? read ((j.at? name).getD null)

def readList? (j : Json) (name : String) (read : Json → Option α) : Option (List α) :=
  (j.readMaybe? name (list? read)).map fun items => items.getD []

def readFlag? (j : Json) (name : String) : Option Bool :=
  (j.readMaybe? name bool?).map fun b => b.getD false

/-- An array of two. -/
def pair? (a : Json → Option α) (b : Json → Option β) : Json → Option (α × β)
  | array [x, y] => do
    let x ← a x
    let y ← b y
    pure (x, y)
  | _ => none

def nat64? (j : Json) : Option Nat := (intWithin? 0 0xFFFFFFFFFFFFFFFF j).map Int.toNat

def nats (ns : List Nat) : Json := array (ns.map nat)

end ObjectSql.Json
