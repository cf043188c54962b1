/-!
# Binary operators

The operators with their SQL text and their precedence. Only conjunction and disjunction associate.
-/
namespace ObjectSql

inductive BinaryOp where
  | eq
  | ne
  | lt
  | le
  | gt
  | ge
  | and
  | or
  | add
  | sub
  | mul
  | div
  | like
deriving Repr, DecidableEq, Inhabited

namespace BinaryOp

def all : List BinaryOp := [eq, ne, lt, le, gt, ge, and, or, add, sub, mul, div, like]

def sql : BinaryOp → String
  | eq => "="
  | ne => "<>"
  | lt => "<"
  | le => "<="
  | gt => ">"
  | ge => ">="
  | and => "AND"
  | or => "OR"
  | add => "+"
  | sub => "-"
  | mul => "*"
  | div => "/"
  | like => "LIKE"

def precedence : BinaryOp → Nat
  | or => 1
  | and => 2
  | eq | ne | lt | le | gt | ge | like => 3
  | add | sub => 4
  | mul | div => 5

def isAssociative : BinaryOp → Bool
  | and | or => true
  | _ => false

def isComparison : BinaryOp → Bool
  | eq | ne | lt | le | gt | ge => true
  | _ => false

end BinaryOp

end ObjectSql
