import ObjectSql.Dialect.Profile
import ObjectSql.Statement.Text

/-!
# Expressions and statements

An expression is a node with the category and the logical type of its value and the table that it
reads from. Statements are made of expressions and expressions may hold statements, so both are
defined together. The functions of this module build nodes; comparisons and methods, which can
fail, have modules of their own.
-/
namespace ObjectSql

/-- A table under an alias. -/
structure TableRef where
  name : String
  aliasName : String
deriving Repr, DecidableEq, Inhabited

/-- Where the entries of a map member are stored. -/
structure MapBinding where
  owner : TableRef
  /-- Identity column of the owner's table. -/
  ownerIdColumn : String
  joinTable : String
  /-- Column of the join table that refers to the owner. -/
  ownerColumn : String
  keyColumn : String
  valueColumn : Option String
  keyLogicalType : String
deriving Repr, DecidableEq, Inhabited

inductive JoinKind where
  | inner
  | leftOuter
deriving Repr, DecidableEq, Inhabited

def JoinKind.sql : JoinKind → String
  | inner => "INNER JOIN"
  | leftOuter => "LEFT OUTER JOIN"

/-- Where rows without a value are sorted. -/
inductive NullsPlacement where
  | first
  | last
deriving Repr, DecidableEq, Inhabited

mutual

structure Expr where
  category : Category
  logicalType : String
  table : Option TableRef
  node : Node

inductive Node where
  /-- A column of the expression's table. -/
  | column (name : String)
  | literal (value : Value)
  | null
  | parameter (p : BoundParameter)
  | function (name : String) (args : List Expr)
  /-- Text with slots for the arguments. -/
  | template (text : String) (args : List Expr)
  | binary (left : Expr) (op : BinaryOp) (right : Expr)
  | not (operand : Expr)
  | isNull (operand : Expr) (negated : Bool)
  | inList (operand : Expr) (list : List Expr) (negated : Bool)
  | aggregate (function : String) (arg : Expr)
  | subquery (query : Select)
  | exists (query : Select) (negated : Bool)
  | raw (sql : String)
  | map (binding : MapBinding)

structure Join where
  kind : JoinKind
  table : TableRef
  on : List Expr

structure OrderItem where
  expr : Expr
  descending : Bool
  nulls : Option NullsPlacement

structure Select where
  /-- The primary table. -/
  table : TableRef
  joins : List Join
  distinct : Bool
  projection : List Expr
  conditions : List Expr
  groupBy : List Expr
  having : List Expr
  ordering : List OrderItem
  offset : Int
  count : Int
  /-- Number of the next alias. -/
  nextAlias : Nat

end

instance : Inhabited Expr := ⟨⟨.object, "", none, .null⟩⟩

/-- The clause for which an expression is built. -/
inductive Clause where
  | projection
  | where
  | having
  | orderBy
  | join
deriving Repr, DecidableEq, Inhabited

/-- Whether an aggregate can stand in the clause as it is. -/
def Clause.allowsAggregates : Clause → Bool
  | projection | having => true
  | _ => false

structure Context where
  profile : Profile
  clause : Clause

namespace Expr

/-- A node that reads from no table. -/
def typed (category : Category) (logicalType : String) (node : Node) : Expr :=
  ⟨category, logicalType, none, node⟩

/-- A node whose category follows from its logical type. -/
def ofType (logicalType : String) (node : Node) : Expr :=
  typed (.ofLogicalType logicalType) logicalType node

def predicate (table : Option TableRef) (node : Node) : Expr := ⟨.boolean, "bool", table, node⟩

def column (table : TableRef) (name logicalType : String) : Expr :=
  { ofType logicalType (.column name) with table := some table }

def null : Expr := typed .object "" .null

/-- The logical type of a literal. -/
def literalType : Value → String
  | .null => ""
  | .bool _ => "bool"
  | .int _ => "i64"
  | .float _ => "f64"
  | .text _ => "string"
  | .blob _ => "bytes"
  | .date _ => "date"
  | .timestamp _ => "timestamp"
  | .uuid _ => "uuid"

def literal : Value → Expr
  | .null => null
  | v => ofType (literalType v) (.literal v)

/-- A placeholder whose value is given at every execution. -/
def parameter (key : MappingKey) (column : Nat) (logicalType : String) : Expr :=
  ofType logicalType (.parameter (.deferred key column))

/-- A placeholder with a fixed value. -/
def fixedParameter (key : MappingKey) (value : Value) : Expr :=
  ofType (literalType value) (.parameter (.fixed key value))

def raw (sql logicalType : String) : Expr := ofType logicalType (.raw sql)

def function (name : String) (args : List Expr) (logicalType : String) : Expr :=
  ofType logicalType (.function name args)

/-- A template reads from the table of its first argument that has one. -/
def template (text : String) (args : List Expr) (category : Category) (logicalType : String) :
    Expr :=
  { typed category logicalType (.template text args) with table := args.findSome? Expr.table }

def map (binding : MapBinding) : Expr :=
  { typed .map "map" (.map binding) with table := some binding.owner }

def subquery (query : Select) (category : Category) (logicalType : String) : Expr :=
  typed category logicalType (.subquery query)

def existsIn (query : Select) (negated : Bool) : Expr := predicate none (.exists query negated)

def isNullLiteral (e : Expr) : Bool :=
  match e.node with
  | .null | .literal .null => true
  | _ => false

/-- An operator reads from the table of its left operand, else of its right one. -/
def binary (left : Expr) (op : BinaryOp) (right : Expr) (category : Category)
    (logicalType : String) : Expr :=
  { typed category logicalType (.binary left op right) with
    table := left.table <|> right.table }

def like (left right : Expr) : Expr := binary left .like right .boolean "bool"

def and (left right : Expr) : Expr := binary left .and right .boolean "bool"

def or (left right : Expr) : Expr := binary left .or right .boolean "bool"

/-- An operator on numbers, typed as its left operand. -/
def arithmetic (left : Expr) (op : BinaryOp) (right : Expr) : Expr :=
  binary left op right .numeric left.logicalType

/-- Logical negation. Tests are negated in place and a negation is undone. -/
def negate (e : Expr) : Expr :=
  match e.node with
  | .exists query negated => predicate e.table (.exists query !negated)
  | .isNull operand negated => predicate e.table (.isNull operand !negated)
  | .inList operand list negated => predicate e.table (.inList operand list !negated)
  | .not operand => operand
  | _ => predicate e.table (.not e)

def isNull (e : Expr) : Expr := predicate e.table (.isNull e false)

def isNotNull (e : Expr) : Expr := e.isNull.negate

def inList (e : Expr) (list : List Expr) : Expr := predicate e.table (.inList e list false)

end Expr

end ObjectSql
