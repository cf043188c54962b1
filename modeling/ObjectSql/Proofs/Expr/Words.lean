import ObjectSql.Expr.Render
import ObjectSql.Proofs.Expr.Grammar
import ObjectSql.Proofs.Statement.Text

/-!
# Words of rendered conditions

Conditions are made of values, and both are written as a row of words. With a blank between any two
words except inside parentheses and before commas, the row is the text that the renderer writes.
-/
namespace ObjectSql

open Grammar SqlText

/-! ## Conditions and values -/

mutual

def Expr.IsValue : Expr → Prop
  | ⟨_, _, _, node⟩ => node.IsValue

def Node.IsValue : Node → Prop
  | .column _ | .parameter _ | .subquery _ => True
  | .literal value => value ≠ .null
  | .function _ args => valuesOnly args
  | .aggregate _ arg => arg.IsValue
  | .binary left op right => 4 ≤ op.level ∧ left.IsValue ∧ right.IsValue
  | _ => False

def valuesOnly : List Expr → Prop
  | [] => True
  | e :: es => e.IsValue ∧ valuesOnly es

end

mutual

def Expr.IsCondition : Expr → Prop
  | ⟨_, _, _, node⟩ => node.IsCondition

def Node.IsCondition : Node → Prop
  | .binary left op right =>
    op.level = 3 ∧ left.IsValue ∧ right.IsValue ∨
      op.isAssociative ∧ left.IsCondition ∧ right.IsCondition
  | .not operand => operand.IsCondition
  | .isNull operand _ => operand.IsValue
  | .inList operand list _ => operand.IsValue ∧ valuesOnly list
  | .exists _ _ => True
  | _ => False

end

/-! ## What an expression says -/

mutual

/-- The tree of an expression. An empty list is read as a comparison of numbers. -/
def Expr.shape : Expr → Tree
  | ⟨_, _, table, node⟩ => node.shape table

def Node.shape (table : Option TableRef) : Node → Tree
  | .column name => .column table name
  | .literal value => .literal value
  | .parameter p => .parameter p
  | .function f args => .call f (shapes args)
  | .aggregate f arg => .call f [arg.shape]
  | .binary left op right => .binary left.shape op right.shape
  | .not operand => .not operand.shape
  | .isNull operand negated => .isNull operand.shape negated
  | .inList operand list negated =>
    if list.isEmpty then .binary (.literal (.int 1)) .eq (.literal (.int (if negated then 1 else 0)))
    else .inList operand.shape (shapes list) negated
  | .subquery query => .subquery query
  | .exists query negated => .exists query negated
  | .null | .template _ _ | .raw _ | .map _ => .literal .null

def shapes : List Expr → List Tree
  | [] => []
  | e :: es => e.shape :: shapes es

end

/-! ## Words of an expression -/

namespace Grammar

def parensIf (b : Bool) (ts : List Token) : List Token :=
  if b then .lparen :: ts ++ [.rparen] else ts

end Grammar

mutual

def Expr.tokens : Expr → List Token
  | ⟨_, _, table, node⟩ => node.tokens table

def Node.tokens (table : Option TableRef) : Node → List Token
  | .column name => [.column table name]
  | .literal value => [.literal value]
  | .parameter p => [.parameter p]
  | .function f args => .name f :: .lparen :: separated (tokenLists args) ++ [.rparen]
  | .aggregate f arg => .name f :: .lparen :: arg.tokens ++ [.rparen]
  | .binary left op right =>
    Grammar.parensIf (left.needsParens op false) left.tokens ++
      .op op :: Grammar.parensIf (right.needsParens op true) right.tokens
  | .not operand => .not :: Grammar.parensIf true operand.tokens
  | .isNull operand negated =>
    Grammar.parensIf operand.isBinary operand.tokens ++
      if negated then [.is, .not, .null] else [.is, .null]
  | .inList operand list negated =>
    if list.isEmpty then
      [.literal (.int 1), .op .eq, .literal (.int (if negated then 1 else 0))]
    else
      Grammar.parensIf operand.isBinary operand.tokens ++ (if negated then [.not, .in] else [.in]) ++
        .lparen :: separated (tokenLists list) ++ [.rparen]
  | .subquery query => [.subquery query]
  | .exists query negated =>
    if negated then [.not, .exists, .subquery query] else [.exists, .subquery query]
  | .null | .template _ _ | .raw _ | .map _ => []

def tokenLists : List Expr → List (List Token)
  | [] => []
  | e :: es => e.tokens :: tokenLists es

end

namespace Grammar

namespace Token

def text (p : Profile) : Token → SqlText
  | .column table c => (Node.column c).toSql p table
  | .literal value => (Node.literal value).toSql p none
  | .parameter q => (Node.parameter q).toSql p none
  | .subquery query => (Node.subquery query).toSql p none
  | .name f => raw f
  | .lparen => raw "("
  | .rparen => raw ")"
  | .comma => raw ","
  | .op o => raw o.sql
  | .not => raw "NOT"
  | .is => raw "IS"
  | .null => raw "NULL"
  | .in => raw "IN"
  | .exists => raw "EXISTS"

/-- Whether a word stands right after the one before it. -/
def clings : Token → Bool
  | .comma | .rparen => true
  | _ => false

def attracts : Token → Bool
  | .lparen | .name _ => true
  | _ => false

end Token

/-- The text of words with blanks between them; `glued` says that there is none before the first. -/
def spell (p : Profile) (glued : Bool) : List Token → SqlText
  | [] => empty
  | t :: ts => (if glued || t.clings then empty else raw " ") ++ t.text p ++ spell p t.attracts ts

section

variable (p : Profile) (ts : List Token)

@[simp] theorem spell_lparen (glued : Bool) : spell p glued (.lparen :: ts) =
    (if glued then empty else raw " ") ++ raw "(" ++ spell p true ts := by
  simp [spell, Token.clings, Token.attracts, Token.text]

@[simp] theorem spell_rparen (glued : Bool) :
    spell p glued (.rparen :: ts) = raw ")" ++ spell p false ts := by
  simp [spell, Token.clings, Token.attracts, Token.text]

@[simp] theorem spell_comma (glued : Bool) :
    spell p glued (.comma :: ts) = raw "," ++ spell p false ts := by
  simp [spell, Token.clings, Token.attracts, Token.text]

@[simp] theorem spell_name (glued : Bool) (f : String) : spell p glued (.name f :: ts) =
    (if glued then empty else raw " ") ++ raw f ++ spell p true ts := by
  simp [spell, Token.clings, Token.attracts, Token.text]

end

/-- Between other words, the words are written as the text. -/
def Spells (p : Profile) (ts : List Token) (text : SqlText) : Prop :=
  ∀ glued rest, spell p glued (ts ++ rest) =
    (if glued then empty else raw " ") ++ text ++ spell p false rest

namespace Spells

variable {p : Profile} {ts ls rs : List Token} {a b : SqlText}

theorem word {t : Token} (h : t.clings = false ∧ t.attracts = false) : Spells p [t] (t.text p) := by
  intro glued rest
  simp [spell, h]

theorem append (hl : Spells p ls a) (hr : Spells p rs b) :
    Spells p (ls ++ rs) (a ++ raw " " ++ b) := by
  intro glued rest
  rw [List.append_assoc, hl, hr]
  simp [append_assoc]

theorem parens (h : Spells p ts a) : Spells p (.lparen :: ts ++ [.rparen]) a.parens := by
  intro glued rest
  have hts := h true (.rparen :: rest)
  simp_all [SqlText.parens, append_assoc]

theorem parensIf (h : Spells p ts a) (b : Bool) :
    Spells p (Grammar.parensIf b ts) (a.parensIf b) := by
  cases b with
  | false => exact h
  | true => exact h.parens

theorem binary (hl : Spells p ls a) (hr : Spells p rs b) (o : BinaryOp) :
    Spells p (ls ++ .op o :: rs) (a ++ raw (" " ++ o.sql ++ " ") ++ b) := by
  have hop : Spells p [.op o] (raw o.sql) := word ⟨rfl, rfl⟩
  simpa [append_assoc, raw_append_raw] using hl.append (hop.append hr)

section

variable {tss : List (List Token)} {texts : List SqlText}

theorem items (h : List.Forall₂ (Spells p) tss texts) (hne : tss ≠ []) :
    Spells p (separated tss) (joined ", " texts) := by
  have hsep : raw ", " = raw "," ++ raw " " := by decide
  induction h with
  | nil => exact absurd rfl hne
  | @cons ts a tss texts hts htss ih =>
    cases htss with
    | nil => exact hts
    | cons hts' htss =>
      intro glued rest
      rw [separated, joined, List.append_assoc, List.cons_append, hts, spell_comma,
        ih (by simp) false rest, hsep]
      · simp [append_assoc]
      · simp
      · simp

theorem list (h : List.Forall₂ (Spells p) tss texts) :
    Spells p (.lparen :: separated tss ++ [.rparen]) (joined ", " texts).parens := by
  cases h with
  | nil =>
    intro glued rest
    simp [separated, joined, SqlText.parens, append_assoc]
  | cons hts htss => exact (items (.cons hts htss) (by simp)).parens

theorem call (h : List.Forall₂ (Spells p) tss texts) (f : String) :
    Spells p (.name f :: .lparen :: separated tss ++ [.rparen])
      (raw f ++ (joined ", " texts).parens) := by
  intro glued rest
  have hlist := list h true rest
  rw [List.cons_append] at hlist
  rw [List.cons_append, List.cons_append, spell_name, List.cons_append, hlist]
  simp [append_assoc]

end

end Spells

end Grammar

section

variable (p : Profile)

mutual

theorem Expr.spells_value : ∀ e : Expr, e.IsValue → Spells p e.tokens (e.toSql p)
  | ⟨_, _, table, node⟩, h => node.spells_value table h

theorem Node.spells_value (table : Option TableRef) :
    ∀ n : Node, n.IsValue → Spells p (n.tokens table) (n.toSql p table)
  | .column name, _ => by
    rw [Node.tokens]
    exact Spells.word ⟨rfl, rfl⟩
  | .literal value, _ => by
    rw [Node.tokens]
    exact Spells.word ⟨rfl, rfl⟩
  | .parameter q, _ => by
    rw [Node.tokens]
    exact Spells.word ⟨rfl, rfl⟩
  | .subquery query, _ => by
    rw [Node.tokens]
    exact Spells.word ⟨rfl, rfl⟩
  | .function f args, h => by
    rw [Node.tokens, Node.toSql]
    exact Spells.call (exprs_spell args h) f
  | .aggregate f arg, h => by
    rw [Node.tokens, Node.toSql]
    exact Spells.call (.cons (arg.spells_value h) .nil) f
  | .binary left op right, ⟨_, hleft, hright⟩ => by
    rw [Node.tokens, Node.toSql]
    exact ((left.spells_value hleft).parensIf _).binary ((right.spells_value hright).parensIf _) op

theorem exprs_spell : ∀ es : List Expr, valuesOnly es →
    List.Forall₂ (Spells p) (tokenLists es) (exprsToSql p es)
  | [], _ => .nil
  | e :: es, ⟨he, hes⟩ => .cons (e.spells_value he) (exprs_spell es hes)

end

end

end ObjectSql
