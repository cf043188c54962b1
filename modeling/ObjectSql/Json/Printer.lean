import ObjectSql.Json.Basic
import ObjectSql.Text.Digits
import ObjectSql.Text.Split

/-!
# Writing JSON

`compact` writes a value on one line without blanks, `pretty` one item or member a line, indented
by two blanks a level.
-/
namespace ObjectSql.Json

open Text

def escapeChar (c : Char) : List Char :=
  match c with
  | '"' => ['\\', '"']
  | '\\' => ['\\', '\\']
  | '\n' => ['\\', 'n']
  | '\r' => ['\\', 'r']
  | '\t' => ['\\', 't']
  | _ =>
    if c.toNat = 8 then ['\\', 'b']
    else if c.toNat = 12 then ['\\', 'f']
    else if c.toNat < 0x20 then '\\' :: 'u' :: hexDigits lowerHexDigit 4 c.toNat
    else [c]

def quoted (s : String) : String :=
  "\"" ++ String.ofList (s.toList.flatMap escapeChar) ++ "\""

/-- A string literal; one without a text is written as the empty string. -/
def quotedText (s : Option String) : String := quoted (s.getD "")

mutual

def compact : Json → String
  | .null => "null"
  | .bool b => if b then "true" else "false"
  | .int n => toString n
  | .decimal literal => literal
  | .text s => quotedText s
  | .array items => "[" ++ joined "," (compactItems items) ++ "]"
  | .object members => "\x7b" ++ joined "," (compactMembers members) ++ "\x7d"

def compactItems : List Json → List String
  | [] => []
  | j :: js => compact j :: compactItems js

def compactMembers : List (Option String × Json) → List String
  | [] => []
  | (name, j) :: ms => (quotedText name ++ ":" ++ compact j) :: compactMembers ms

end

/-- Lines between brackets, or the bare brackets around nothing. -/
def bracketed (opening closing indent : String) (lines : List String) : String :=
  if lines.isEmpty then opening ++ closing
  else
    let inner := "\n" ++ indent ++ "  "
    opening ++ inner ++ joined ("," ++ inner) lines ++ "\n" ++ indent ++ closing

mutual

def prettyAt (indent : String) : Json → String
  | .null => "null"
  | .bool b => if b then "true" else "false"
  | .int n => toString n
  | .decimal literal => literal
  | .text s => quotedText s
  | .array items => bracketed "[" "]" indent (prettyItems (indent ++ "  ") items)
  | .object members => bracketed "\x7b" "\x7d" indent (prettyMembers (indent ++ "  ") members)

def prettyItems (indent : String) : List Json → List String
  | [] => []
  | j :: js => prettyAt indent j :: prettyItems indent js

def prettyMembers (indent : String) : List (Option String × Json) → List String
  | [] => []
  | (name, j) :: ms =>
    (quotedText name ++ ": " ++ prettyAt indent j) :: prettyMembers indent ms

end

def pretty (j : Json) : String := prettyAt "" j

end ObjectSql.Json
