import ObjectSql.Error

/-!
# Sequences

The statements that create a sequence, drop it and read its next value. Products differ in the
order of the clauses, in the words for bounds that are not given and in how a value is read.
-/
namespace ObjectSql

open Text

structure SequenceOptions where
  name : Option String
  min : Option Int
  max : Option Int
  start : Option Int
  increment : Option Int
  cache : Option Int
deriving Repr, DecidableEq, Inhabited

inductive SequenceClause where
  | min
  | max
  | start
  | increment
  | cache
deriving Repr, DecidableEq, Inhabited

inductive NextValueForm where
  /-- `nextval('seq')` -/
  | function
  /-- `seq.NEXTVAL` -/
  | pseudocolumn
  /-- `NEXT VALUE FOR seq` -/
  | nextValueFor
deriving Repr, DecidableEq, Inhabited

structure SequenceSyntax where
  /-- Data type behind the name. -/
  dataType : Option String
  order : List SequenceClause
  /-- Words for a bound or cache size that is not given. -/
  noMin : Option String
  noMax : Option String
  noCache : Option String
  cacheAllowed : Bool
  dropSuffix : Option String
  nextValue : NextValueForm
  /-- Text around the next value expression that makes a statement of it. -/
  queryBefore : String
  queryAfter : String
deriving Repr, DecidableEq

namespace SequenceSyntax

open SequenceClause in
def ofVendor : Vendor → Option SequenceSyntax
  | .postgresql => some
    { dataType := none, order := [increment, min, max, start, cache], noMin := none, noMax := none,
      noCache := none, cacheAllowed := true, dropSuffix := none, nextValue := .function,
      queryBefore := "SELECT ", queryAfter := "" }
  | .oracle => some
    { dataType := none, order := [start, increment, min, max, cache], noMin := some "NOMINVALUE",
      noMax := some "NOMAXVALUE", noCache := some "NOCACHE", cacheAllowed := true,
      dropSuffix := none, nextValue := .pseudocolumn, queryBefore := "SELECT ",
      queryAfter := " FROM DUAL" }
  | .db2 => some
    { dataType := none, order := [start, increment, min, max, cache], noMin := some "NO MINVALUE",
      noMax := some "NO MAXVALUE", noCache := some "NO CACHE", cacheAllowed := true,
      dropSuffix := none, nextValue := .nextValueFor, queryBefore := "VALUES ", queryAfter := "" }
  | .derby => some
    { dataType := some "AS BIGINT", order := [start, increment, max, min], noMin := none,
      noMax := none, noCache := none, cacheAllowed := false, dropSuffix := some "RESTRICT",
      nextValue := .nextValueFor, queryBefore := "VALUES ", queryAfter := "" }
  | .sqlserver => some
    { dataType := some "AS BIGINT", order := [start, increment, min, max, cache],
      noMin := some "NO MINVALUE", noMax := some "NO MAXVALUE", noCache := some "NO CACHE",
      cacheAllowed := true, dropSuffix := none, nextValue := .nextValueFor,
      queryBefore := "SELECT ", queryAfter := "" }
  | .h2 => some
    { dataType := none, order := [start, increment, min, max, cache], noMin := none, noMax := none,
      noCache := none, cacheAllowed := true, dropSuffix := none, nextValue := .nextValueFor,
      queryBefore := "SELECT ", queryAfter := "" }
  | .generic => some
    { dataType := none, order := [start, increment, min, max], noMin := some "NO MINVALUE",
      noMax := some "NO MAXVALUE", noCache := none, cacheAllowed := false,
      dropSuffix := some "RESTRICT", nextValue := .nextValueFor, queryBefore := "VALUES ",
      queryAfter := "" }
  | .mysql | .sqlite => none

/-- A keyword with its number, or the words that stand for a missing one. -/
def clauseText (keyword : String) (given : Option Int) (absent : Option String) : Option String :=
  match given with
  | some n => some (keyword ++ " " ++ toString n)
  | none => absent

def clause (s : SequenceSyntax) (o : SequenceOptions) : SequenceClause → Option String
  | .start => clauseText "START WITH" o.start none
  | .increment => clauseText "INCREMENT BY" o.increment none
  | .min => clauseText "MINVALUE" o.min s.noMin
  | .max => clauseText "MAXVALUE" o.max s.noMax
  | .cache => clauseText "CACHE" o.cache s.noCache

/-- The words behind the name of a created sequence. -/
def definition (s : SequenceSyntax) (o : SequenceOptions) : List String :=
  s.dataType.toList ++ s.order.filterMap (s.clause o)

/-- Whether a cache size can be written. -/
def takesCache (s : SequenceSyntax) : Bool := s.cacheAllowed && s.order.contains .cache

/-- `CREATE SEQUENCE` for a name as it is to be written. -/
def create (s : SequenceSyntax) (v : Vendor) (name : String) (o : SequenceOptions) :
    Except SqlError String :=
  if o.cache.isSome && !s.takesCache then .error (.unsupported v .sequenceCache)
  else .ok (joined " " (("CREATE SEQUENCE " ++ name) :: s.definition o))

def drop (s : SequenceSyntax) (name : String) : String :=
  joined " " (("DROP SEQUENCE " ++ name) :: s.dropSuffix.toList)

def nextValueExpression (s : SequenceSyntax) (name : String) : String :=
  match s.nextValue with
  | .function => "nextval('" ++ doubled '\x27' name ++ "')"
  | .pseudocolumn => name ++ ".NEXTVAL"
  | .nextValueFor => "NEXT VALUE FOR " ++ name

def nextValueStatement (s : SequenceSyntax) (name : String) : String :=
  s.queryBefore ++ s.nextValueExpression name ++ s.queryAfter

end SequenceSyntax

end ObjectSql
