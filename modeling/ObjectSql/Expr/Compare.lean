import ObjectSql.Expr.MapMember

/-!
# Comparisons

A comparison with `NULL` on either side becomes a test for it, and a map that equals `NULL` is a map
without entries. Other operands are compared if their categories agree; objects and placeholders are
compared with anything.
-/
namespace ObjectSql.Expr

/-- Whether an expression is compared with any category. -/
def comparesWithAny (e : Expr) : Bool :=
  e.category == .object ||
    match e.node with
    | .parameter _ | .null => true
    | _ => false

def comparable (left right : Expr) : Bool :=
  left.category == right.category || left.comparesWithAny || right.comparesWithAny

def invalidComparison (left : Expr) (op : BinaryOp) (right : Expr) : SqlError :=
  .invalidComparison left.category op right.category

def compareMap (map : Expr) (op : BinaryOp) (other : Expr) : Except SqlError Expr :=
  if other.isNullLiteral then
    match op with
    | .eq => map.mapIsEmpty
    | .ne => map.mapIsEmpty.map negate
    | _ => .error (map.invalidComparison op other)
  else .error (map.invalidComparison op other)

def compareValues (left : Expr) (op : BinaryOp) (right : Expr) : Except SqlError Expr :=
  if right.isNullLiteral then
    match op with
    | .eq => .ok left.isNull
    | .ne => .ok left.isNotNull
    | _ => .error (left.invalidComparison op right)
  else if left.comparable right then .ok (left.binary op right .boolean "bool")
  else .error (left.invalidComparison op right)

def compare (left : Expr) (op : BinaryOp) (right : Expr) : Except SqlError Expr :=
  if left.category = .map then left.compareMap op right
  else if right.category = .map then right.compareMap op left
  else if left.isNullLiteral && !right.isNullLiteral then right.compareValues op left
  else left.compareValues op right

/-- Whether a map has an entry for a key. -/
def mapContainsKey (e key : Expr) : Except SqlError Expr :=
  match e.mapBinding? with
  | some b => (b.key.compare .eq key).map fun found => existsIn (b.entries.addCondition found) false
  | none => .error (.invalidCall "containsKey" .notMapMember)

end ObjectSql.Expr
