/-!
# Row ranges

A range skips `offset` rows and stops after `count` rows; a bound that is not positive is not given.
A style of syntax turns the range into a clause, or into nothing where there is nothing to say or no
way to say it.
-/
namespace ObjectSql

inductive PaginationStyle where
  | unsupported
  /-- `LIMIT n OFFSET m`, with a count that means all rows if one has to be given. -/
  | limitOffset (unbounded : Option String)
  /-- `LIMIT m,n`. -/
  | commaLimit (unbounded : String)
  /-- `OFFSET m ROWS FETCH NEXT n ROWS ONLY`. -/
  | offsetFetch (requireOffset requireOrdering : Bool)
  /-- `FETCH FIRST n ROWS ONLY`, which cannot skip rows. -/
  | fetchFirst
deriving Repr, DecidableEq, Inhabited

namespace PaginationStyle

/-- The body of an `OFFSET … FETCH` clause. -/
def offsetFetchBody (requireOffset : Bool) (offset count : Int) : String :=
  if 0 < offset then
    if 0 < count then
      "OFFSET " ++ toString offset ++ " ROWS FETCH NEXT " ++ toString count ++ " ROWS ONLY"
    else "OFFSET " ++ toString offset ++ " ROWS"
  else if requireOffset then "OFFSET 0 ROWS FETCH NEXT " ++ toString count ++ " ROWS ONLY"
  else "FETCH FIRST " ++ toString count ++ " ROWS ONLY"

/-- The clause of a range without a blank in front; `ordered` says whether rows are sorted. -/
def clause (style : PaginationStyle) (offset count : Int) (ordered : Bool) : String :=
  if offset ≤ 0 && count ≤ 0 then ""
  else
    match style with
    | unsupported => ""
    | limitOffset unbounded =>
      if offset ≤ 0 then "LIMIT " ++ toString count
      else if 0 < count then "LIMIT " ++ toString count ++ " OFFSET " ++ toString offset
      else
        match unbounded with
        | some all => "LIMIT " ++ all ++ " OFFSET " ++ toString offset
        | none => "OFFSET " ++ toString offset
    | commaLimit unbounded =>
      if offset ≤ 0 then "LIMIT " ++ toString count
      else if 0 < count then "LIMIT " ++ toString offset ++ "," ++ toString count
      else "LIMIT " ++ toString offset ++ "," ++ unbounded
    | offsetFetch requireOffset requireOrdering =>
      let body := offsetFetchBody requireOffset offset count
      if requireOrdering && !ordered then "ORDER BY (SELECT NULL) " ++ body else body
    | fetchFirst => if offset ≤ 0 then "FETCH FIRST " ++ toString count ++ " ROWS ONLY" else ""

end PaginationStyle

end ObjectSql
