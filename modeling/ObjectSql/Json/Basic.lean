/-!
# JSON values

A value as it is written: members of an object keep their order and may repeat, integers are told
apart from other numbers, and a string literal with an unpaired surrogate denotes no text.
-/
namespace ObjectSql

inductive Json where
  | null
  | bool (b : Bool)
  | int (n : Int)
  /-- A number that is not written as an integer; `-0` is one. -/
  | decimal (literal : String)
  /-- `none` is a literal with an unpaired surrogate. -/
  | text (s : Option String)
  | array (items : List Json)
  | object (members : List (Option String × Json))
deriving Inhabited

namespace Json

def str (s : String) : Json := text (some s)

def nat (n : Nat) : Json := int (Int.ofNat n)

/-- An object with well-formed member names. -/
def record (members : List (String × Json)) : Json :=
  object (members.map fun m => (some m.1, m.2))

def strings (ss : List String) : Json := array (ss.map str)

/-- `null` when there is nothing to encode. -/
def option {α : Type} (encode : α → Json) : Option α → Json
  | none => null
  | some a => encode a

/-- The last member of a name. -/
def member? (name : String) (members : List (Option String × Json)) : Option Json :=
  (members.reverse.find? fun m => m.1 == some name).map Prod.snd

end Json

end ObjectSql
