import ObjectSql.Error
import ObjectSql.Expr.Basic

/-!
# Operations

An operation has a meaning that all products share and a template for each of them.
-/
namespace ObjectSql

structure Operation where
  name : String
  template : String
  arity : Nat
  category : Category
  /-- Without one the result is typed as the first argument. -/
  logicalType : Option String
deriving Repr, DecidableEq, Inhabited

namespace Operation

def concat (template : String) : Operation := ⟨"concat", template, 2, .string, some "string"⟩

def modulo (template : String) : Operation := ⟨"mod", template, 2, .numeric, none⟩

def stringLength (template : String) : Operation :=
  ⟨"string_length", template, 1, .numeric, some "i32"⟩

/-- What every product has that has nothing of its own. -/
def base : List Operation :=
  [concat "({0} || {1})", modulo "MOD({0}, {1})", stringLength "CHAR_LENGTH({0})"]

def ofVendor : Vendor → List Operation
  | .generic | .postgresql => []
  | .mysql => [concat "CONCAT({0}, {1})"]
  | .sqlite => [modulo "({0} % {1})", stringLength "LENGTH({0})"]
  | .sqlserver => [concat "({0} + {1})", modulo "({0} % {1})", stringLength "LEN({0})"]
  | .oracle | .derby | .h2 | .db2 => [stringLength "LENGTH({0})"]

def find (vendor : Vendor) (name : String) : Except SqlError Operation :=
  match (ofVendor vendor ++ base).find? (·.name == name) with
  | some o => .ok o
  | none => .error (.unknownMethod .operation name)

def apply (o : Operation) (args : List Expr) : Except SqlError Expr :=
  if args.length = o.arity then
    .ok (.template o.template args o.category
      (o.logicalType.getD (args.head?.elim "" Expr.logicalType)))
  else .error (.invalidCall o.name (.arity o.arity args.length))

end Operation

namespace Expr

/-- Applies an operation by its name. -/
def operation (vendor : Vendor) (name : String) (args : List Expr) : Except SqlError Expr := do
  let o ← Operation.find vendor name
  o.apply args

end Expr

end ObjectSql
