import ObjectSql.Statement.Layout

/-!
# SQL text

Text with the parameters of its placeholders, in the order in which both are written. Placeholders
are counted outside quotes only: a quoted stretch begins at any of the four opening quotes and ends
at the next closing quote of its kind.
-/
namespace ObjectSql

structure SqlText where
  sql : String
  params : List BoundParameter
deriving DecidableEq, Inhabited

namespace SqlText

def empty : SqlText := ⟨"", []⟩

def raw (sql : String) : SqlText := ⟨sql, []⟩

def placeholder (p : BoundParameter) : SqlText := ⟨"?", [p]⟩

def append (a b : SqlText) : SqlText := ⟨a.sql ++ b.sql, a.params ++ b.params⟩

instance : Append SqlText := ⟨append⟩

/-- Texts one after the other. -/
def concat : List SqlText → SqlText
  | [] => empty
  | t :: ts => t ++ concat ts

/-- Texts with a separator between them. -/
def joined (sep : String) : List SqlText → SqlText
  | [] => empty
  | [t] => t
  | t :: ts => t ++ raw sep ++ joined sep ts

def parens (t : SqlText) : SqlText := raw "(" ++ t ++ raw ")"

def parensIf (b : Bool) (t : SqlText) : SqlText := if b then t.parens else t

/-- The quote that ends a quoted stretch begun by a character. -/
def closingQuote? (c : Char) : Option Char :=
  match c with
  | '\x27' | '"' | '\x60' => some c
  | '[' => some ']'
  | _ => none

/-- Placeholders in a text that begins inside the given quote, or outside quotes. -/
def countPlaceholders : (inside : Option Char) → List Char → Nat
  | _, [] => 0
  | some q, c :: cs => countPlaceholders (if c = q then none else some q) cs
  | none, c :: cs => (if c = '?' then 1 else 0) + countPlaceholders (closingQuote? c) cs

def placeholderCount (t : SqlText) : Nat := countPlaceholders none t.sql.toList

end SqlText

end ObjectSql
