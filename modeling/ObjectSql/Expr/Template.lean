import ObjectSql.Statement.Text
import ObjectSql.Text.Digits

/-!
# Templates

A slot of a template is an opening brace up to the next closing brace with the number of an argument
between them. Slots are filled with the arguments; everything else is kept as it stands, braces
included.
-/
namespace ObjectSql.Template

open Text

/-- What stands for a pair of braces around `inner`. -/
def slot (args : List SqlText) (inner : List Char) : SqlText :=
  match (readIndex inner).bind (args[·]?) with
  | some arg => arg
  | none => .raw ("\x7b" ++ String.ofList inner ++ "\x7d")

/-- Fills the slots of a text that begins outside braces, or after an opening brace and `inner`. -/
def fillFrom (args : List SqlText) : (inner : Option (List Char)) → List Char → SqlText
  | none, [] => .empty
  | some inner, [] => .raw ("\x7b" ++ String.ofList inner)
  | none, c :: cs =>
    if c = '\x7b' then fillFrom args (some []) cs
    else .raw (String.singleton c) ++ fillFrom args none cs
  | some inner, c :: cs =>
    if c = '\x7d' then slot args inner ++ fillFrom args none cs
    else fillFrom args (some (inner ++ [c])) cs

def fill (text : String) (args : List SqlText) : SqlText := fillFrom args none text.toList

end ObjectSql.Template
