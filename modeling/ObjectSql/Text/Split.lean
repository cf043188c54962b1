/-!
# Splitting and replacing

`splitOn sep` cuts at every separator and keeps empty pieces, so joining the pieces with the
separator gives the text back.
-/
namespace ObjectSql.Text

def splitChars (sep : Char) : List Char → List (List Char)
  | [] => [[]]
  | c :: cs =>
    if c = sep then [] :: splitChars sep cs
    else
      match splitChars sep cs with
      | [] => [[c]]
      | piece :: pieces => (c :: piece) :: pieces

def splitOn (sep : Char) (s : String) : List String :=
  (splitChars sep s.toList).map String.ofList

/-- Writes a character twice wherever it occurs. -/
def doubled (q : Char) (s : String) : String :=
  String.ofList (s.toList.flatMap fun c => if c = q then [q, q] else [c])

/-- Joins the texts with a separator. -/
def joined (sep : String) (parts : List String) : String := sep.intercalate parts

end ObjectSql.Text
