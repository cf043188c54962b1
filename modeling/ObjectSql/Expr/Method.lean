import ObjectSql.Expr.Aggregate
import ObjectSql.Expr.Compare
import ObjectSql.Expr.Operation

/-!
# Methods

A method is found by its name and the category of its receiver, among the methods of the product
first and then among those that all products share. Aggregates have no receiver.
-/
namespace ObjectSql

/-- Which end of a text a pattern is anchored at. -/
inductive Affix where
  | start
  | finish
deriving Repr, DecidableEq, Inhabited

inductive Method where
  | aggregate (f : AggregateFunction)
  /-- A template for each number of arguments; slot 0 is the receiver. -/
  | template (name : String) (templates : List (Option String)) (category : Category)
    (logicalType : String)
  /-- Whether a text starts or ends with another. -/
  | affix (side : Affix)
  | length
  | isEmpty
  | size
  | containsKey
deriving Repr, DecidableEq, Inhabited

namespace Affix

def methodName : Affix → String
  | start => "startsWith"
  | finish => "endsWith"

/-- Puts the part that matches anything on the free side. -/
def around {α : Type} (side : Affix) (fixed anything : α) : List α :=
  match side with
  | start => [fixed, anything]
  | finish => [anything, fixed]

/-- A literal with the characters escaped that patterns give a meaning. -/
def escapePattern (s : String) : String :=
  String.ofList (s.toList.flatMap fun c => if c = '%' || c = '_' then ['\\', c] else [c])

/-- The pattern of a `LIKE` that matches at one end. -/
def pattern (side : Affix) (vendor : Vendor) (arg : Expr) : Except SqlError Expr :=
  match arg.node with
  | .literal (.text s) =>
    .ok (.literal (.text (Text.joined "" (side.around (escapePattern s) "%"))))
  | _ => Expr.operation vendor "concat" (side.around arg (.literal (.text "%")))

end Affix

namespace Method

/-- The name that a method has in errors. -/
def name : Method → String
  | aggregate f => f.sql
  | template name _ _ _ => name
  | affix side => side.methodName
  | length => "length"
  | isEmpty => "isEmpty"
  | size => "size"
  | containsKey => "containsKey"

def applyTo (m : Method) (vendor : Vendor) (receiver : Expr) (args : List Expr) :
    Except SqlError Expr :=
  match m, args with
  | template _ templates category logicalType, args =>
    match templates[args.length]?.join with
    | some text => .ok (.template text (receiver :: args) category logicalType)
    | none => .error (.invalidCall m.name (.argumentCount args.length))
  | affix side, [arg] => (side.pattern vendor arg).map receiver.like
  | affix _, _ => .error (.invalidCall m.name .notOneArgument)
  | length, [] => Expr.operation vendor "string_length" [receiver]
  | length, _ => .error (.invalidCall m.name .argumentsGiven)
  | isEmpty, args => do
    let e ← receiver.mapIsEmpty
    if args.isEmpty then pure e else .error (.invalidCall m.name .argumentsGiven)
  | size, args => do
    let e ← receiver.mapSize
    if args.isEmpty then pure e else .error (.invalidCall m.name .argumentsGiven)
  | containsKey, [key] => receiver.mapContainsKey key
  | containsKey, _ =>
    if receiver.mapBinding?.isSome then .error (.invalidCall m.name .notOneArgument)
    else .error (.invalidCall m.name .notMapMember)
  | aggregate _, _ => .error (.invalidCall m.name .receiverGiven)

def applyAlone (m : Method) (clause : Clause) (args : List Expr) : Except SqlError Expr :=
  match m, args with
  | aggregate f, [arg] => f.applyIn clause arg
  | aggregate _, args => .error (.invalidCall m.name (.notOneArgumentBut args.length))
  | isEmpty, _ | size, _ | containsKey, _ => .error (.invalidCall m.name .notMapMember)
  | _, _ => .error (.invalidCall m.name .receiverMissing)

def invoke (m : Method) (ctx : Context) (receiver : Option Expr) (args : List Expr) :
    Except SqlError Expr :=
  match receiver with
  | some e => m.applyTo ctx.profile.vendor e args
  | none => m.applyAlone ctx.clause args

end Method

/-- A method with the receivers that have it. -/
structure MethodEntry where
  receiver : Option Category
  name : String
  method : Method
deriving Repr, DecidableEq, Inhabited

namespace MethodEntry

def ofAggregate (name : String) (f : AggregateFunction) : MethodEntry := ⟨none, name, .aggregate f⟩

def ofCategory (category : Category) (m : Method) : MethodEntry := ⟨some category, m.name, m⟩

def ofTemplates (receiver : Category) (name : String) (templates : List (Option String))
    (category : Category) (logicalType : String) : MethodEntry :=
  ofCategory receiver (.template name templates category logicalType)

/-- A text method with a text as its result. -/
def ofText (name : String) (templates : List (Option String)) : MethodEntry :=
  ofTemplates .string name templates .string "string"

def substring (toEnd slice : String) : MethodEntry :=
  ofText "substring" [none, some toEnd, some slice]

def indexOf (text : String) : MethodEntry :=
  ofTemplates .string "indexOf" [none, some text] .numeric "i32"

/-- A part of a date as a number. -/
def datePart (name text : String) : MethodEntry :=
  ofTemplates .temporal name [some text] .numeric "i32"

def base : List MethodEntry :=
  [ofAggregate "count" .count, ofAggregate "sum" .sum, ofAggregate "avg" .avg,
    ofAggregate "min" .min, ofAggregate "max" .max,
    ofText "toUpperCase" [some "UPPER({0})"],
    ofText "toLowerCase" [some "LOWER({0})"],
    ofCategory .string .length,
    ofText "trim" [some "TRIM({0})"],
    substring "SUBSTRING({0} FROM {1} + 1)" "SUBSTRING({0} FROM {1} + 1 FOR {2} - {1})",
    indexOf "POSITION({1} IN {0}) - 1",
    ofCategory .string (.affix .start),
    ofCategory .string (.affix .finish),
    datePart "getYear" "EXTRACT(YEAR FROM {0})",
    datePart "getMonth" "EXTRACT(MONTH FROM {0})",
    datePart "getDay" "EXTRACT(DAY FROM {0})",
    ofTemplates .numeric "abs" [some "ABS({0})"] .numeric "f64",
    ofTemplates .numeric "sqrt" [some "SQRT({0})"] .numeric "f64",
    ofCategory .map .isEmpty,
    ofCategory .map .size,
    ofCategory .map .containsKey]

def substr : MethodEntry := substring "SUBSTR({0}, {1} + 1)" "SUBSTR({0}, {1} + 1, {2} - {1})"

def instr : MethodEntry := indexOf "INSTR({0}, {1}) - 1"

def locate : MethodEntry := indexOf "LOCATE({1}, {0}) - 1"

def ofVendor : Vendor → List MethodEntry
  | .generic => []
  | .postgresql => [indexOf "STRPOS({0}, {1}) - 1"]
  | .mysql | .h2 => [locate]
  | .sqlite =>
    [substr, instr,
      datePart "getYear" "CAST(strftime('%Y', {0}) AS INTEGER)",
      datePart "getMonth" "CAST(strftime('%m', {0}) AS INTEGER)",
      datePart "getDay" "CAST(strftime('%d', {0}) AS INTEGER)"]
  | .sqlserver =>
    [substring "SUBSTRING({0}, {1} + 1, LEN({0}))" "SUBSTRING({0}, {1} + 1, {2} - {1})",
      indexOf "CHARINDEX({1}, {0}) - 1",
      ofText "trim" [some "LTRIM(RTRIM({0}))"],
      datePart "getYear" "DATEPART(YEAR, {0})",
      datePart "getMonth" "DATEPART(MONTH, {0})",
      datePart "getDay" "DATEPART(DAY, {0})"]
  | .oracle => [substr, instr]
  | .derby =>
    [substr, locate, datePart "getYear" "YEAR({0})", datePart "getMonth" "MONTH({0})",
      datePart "getDay" "DAY({0})"]
  | .db2 => [substr, locate]

end MethodEntry

/-- The method of a name for receivers of a category, or for calls without a receiver. -/
def Method.find (vendor : Vendor) (receiver : Option Category) (name : String) :
    Except SqlError Method :=
  match (MethodEntry.ofVendor vendor ++ MethodEntry.base).find? fun e =>
      e.receiver == receiver && e.name == name with
  | some e => .ok e.method
  | none => .error (.unknownMethod (receiver.elim .none .category) name)

namespace Expr

/-- Calls a method of an expression. -/
def invoke (e : Expr) (ctx : Context) (method : String) (args : List Expr) :
    Except SqlError Expr := do
  let m ← Method.find ctx.profile.vendor (some e.category) method
  m.invoke ctx (some e) args

/-- Calls a method that has no receiver. -/
def invokeStatic (ctx : Context) (method : String) (args : List Expr) : Except SqlError Expr := do
  let m ← Method.find ctx.profile.vendor none method
  m.invoke ctx none args

end Expr

end ObjectSql
