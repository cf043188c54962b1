import ObjectSql.Expr.Compare
import ObjectSql.Proofs.Expr.Phrase
import ObjectSql.Proofs.Expr.Precedence

/-!
# Conditions as operands

The renderer puts parentheses around operands that are operators themselves. Negations and tests get none,
whatever they are operands of. A negation is then read as that of the whole comparison that it is the left
side of, and a test is read as one of the whole comparison that it is the right side of. The text is read as
the expression exactly if no negation and no test stands at such a place.
-/
namespace ObjectSql

open Phrase SqlText

/-! ## What an expression says -/

mutual

/-- The tree of an expression. An empty list is read as a comparison of numbers; raw text and the text of a
template count as one word. -/
def Expr.tree : Expr → Tree
  | ⟨_, _, table, node⟩ => node.tree table

def Node.tree (table : Option TableRef) : Node → Tree
  | .function f args =>
    if args.isEmpty then .word table (.function f args) else .call f (Tree.listed (trees args))
  | .aggregate f arg => .call f arg.tree
  | .binary left op right => .binary left.tree (.of op) right.tree
  | .not operand => .not operand.tree
  | .isNull operand negated => .binary operand.tree (.is negated) (.word none .null)
  | .inList operand list negated =>
    if list.isEmpty then
      .binary (.word none (.literal (.int 1))) (.of .eq)
        (.word none (.literal (.int (if negated then 1 else 0))))
    else .binary operand.tree (.in negated) (Tree.listed (trees list))
  | .exists query negated =>
    if negated then .not (.word table (.exists query false)) else .word table (.exists query false)
  | node => .word table node

def trees : List Expr → List Tree
  | [] => []
  | e :: es => e.tree :: trees es

end

mutual

def Expr.phrase : Expr → Phrase
  | ⟨_, _, table, node⟩ => node.phrase table

def Node.phrase (table : Option TableRef) : Node → Phrase
  | .function f args =>
    if args.isEmpty then .word table (.function f args) else .call f (listed (phrases args))
  | .aggregate f arg => .call f arg.phrase
  | .binary left op right =>
    .binary (parensIf (left.needsParens op false) left.phrase) (.of op)
      (parensIf (right.needsParens op true) right.phrase)
  | .not operand => .not (.parens operand.phrase)
  | .isNull operand negated =>
    .binary (parensIf operand.isBinary operand.phrase) (.is negated) (.word none .null)
  | .inList operand list negated =>
    if list.isEmpty then
      .binary (.word none (.literal (.int 1))) (.of .eq)
        (.word none (.literal (.int (if negated then 1 else 0))))
    else
      .binary (parensIf operand.isBinary operand.phrase) (.in negated) (.parens (listed (phrases list)))
  | .exists query negated =>
    if negated then .not (.word table (.exists query false)) else .word table (.exists query false)
  | node => .word table node

def phrases : List Expr → List Phrase
  | [] => []
  | e :: es => e.phrase :: phrases es

end

theorem phrases_eq_nil {es : List Expr} : phrases es = [] ↔ es = [] := by
  cases es <;> simp [phrases]

mutual

theorem Expr.phrase_tree : ∀ e : Expr, e.phrase.tree = e.tree
  | ⟨_, _, table, node⟩ => node.phrase_tree table

theorem Node.phrase_tree (table : Option TableRef) : ∀ n : Node, (n.phrase table).tree = n.tree table
  | .function f args => by
    rw [Node.phrase, Node.tree, apply_ite Phrase.tree, Phrase.tree, Phrase.tree, listed_tree,
      phrases_tree args]
  | .aggregate f arg => by rw [Node.phrase, Node.tree, Phrase.tree, arg.phrase_tree]
  | .binary left op right => by
    rw [Node.phrase, Node.tree, Phrase.tree, parensIf_tree, parensIf_tree, left.phrase_tree,
      right.phrase_tree]
  | .not operand => by rw [Node.phrase, Node.tree, Phrase.tree, Phrase.tree, operand.phrase_tree]
  | .isNull operand negated => by
    rw [Node.phrase, Node.tree, Phrase.tree, parensIf_tree, operand.phrase_tree]
    rfl
  | .inList operand list negated => by
    rw [Node.phrase, Node.tree]
    split
    · rfl
    · rw [Phrase.tree, parensIf_tree, operand.phrase_tree, Phrase.tree, listed_tree, phrases_tree list]
  | .exists query negated => by
    rw [Node.phrase, Node.tree, apply_ite Phrase.tree]
    rfl
  | .column _ | .literal _ | .null | .parameter _ | .template _ _ | .subquery _ | .raw _ | .map _ => rfl

theorem phrases_tree : ∀ es : List Expr, (phrases es).map Phrase.tree = trees es
  | [] => rfl
  | e :: es => by rw [phrases, trees, List.map_cons, e.phrase_tree, phrases_tree es]

end

/-! ## The text of an expression -/

mutual

theorem Expr.phrase_text (p : Profile) : ∀ e : Expr, e.phrase.text p = e.toSql p
  | ⟨_, _, table, node⟩ => node.phrase_text p table

theorem Node.phrase_text (p : Profile) (table : Option TableRef) :
    ∀ n : Node, (n.phrase table).text p = n.toSql p table
  | .function f args => by
    rw [Node.phrase]
    split
    · rfl
    · rw [Phrase.text, listed_text (by simp_all [phrases_eq_nil]), phrases_texts p args, Node.toSql]
  | .aggregate f arg => by rw [Node.phrase, Phrase.text, arg.phrase_text, Node.toSql]
  | .binary left op right => by
    rw [Node.phrase, Phrase.text, parensIf_text, parensIf_text, left.phrase_text, right.phrase_text,
      Node.toSql]
    rfl
  | .not operand => by
    rw [Node.phrase, Phrase.text, Phrase.text, operand.phrase_text, Node.toSql]
  | .isNull operand negated => by
    have htest : raw ((Operator.is negated).gap ++ (Operator.is negated).sql ++ " ") ++ raw "NULL" =
        raw (if negated then " IS NOT NULL" else " IS NULL") := by cases negated <;> decide
    rw [Node.phrase, Phrase.text, parensIf_text, operand.phrase_text, Node.toSql, append_assoc, ← htest]
    rfl
  | .inList operand list negated => by
    rw [Node.phrase, Node.toSql]
    split
    · have hnumber (n : Int) : (Phrase.word none (.literal (.int n))).text p = raw (toString n) := rfl
      rw [Phrase.text, hnumber, hnumber]
      cases negated <;> decide
    · have htest : (Operator.in negated).gap ++ (Operator.in negated).sql ++ " " =
          if negated then " NOT IN " else " IN " := by cases negated <;> decide
      rw [Phrase.text, parensIf_text, operand.phrase_text, Phrase.text,
        listed_text (by simp_all [phrases_eq_nil]), phrases_texts p list, htest]
  | .exists query negated => by
    have hnot : raw "NOT EXISTS " = raw "NOT " ++ raw "EXISTS " := by decide
    rw [Node.phrase, Node.toSql]
    cases negated with
    | false => rfl
    | true =>
      rw [if_pos rfl, if_pos rfl, hnot, append_assoc]
      rfl
  | .column _ | .literal _ | .null | .parameter _ | .template _ _ | .subquery _ | .raw _ | .map _ => rfl

theorem phrases_texts (p : Profile) : ∀ es : List Expr, (phrases es).map (Phrase.text p) = exprsToSql p es
  | [] => rfl
  | e :: es => by rw [phrases, exprsToSql, List.map_cons, e.phrase_text, phrases_texts p es]

end

/-! ## Where operands may stand -/

namespace Expr

/-- An operand may stand on the left of an operator if it is one itself, as it gets parentheses where it
needs them, or if it binds at least as strongly. So negations stand in chains only, and tests do not stand
in arithmetic. -/
def StandsLeft (op : BinaryOp) (e : Expr) : Prop := e.isBinary ∨ op.level ≤ e.level

/-- On the right, an operand that is no operator has to bind more strongly. So tests stand in chains only. -/
def StandsRight (op : BinaryOp) (e : Expr) : Prop := e.isBinary ∨ op.level < e.level

end Expr

mutual

/-- No operand stands where it is taken apart. What is tested stands like the left side of `LIKE`. -/
def Expr.Placed : Expr → Prop
  | ⟨_, _, _, node⟩ => node.Placed

def Node.Placed : Node → Prop
  | .function _ args => placedAll args
  | .aggregate _ arg => arg.Placed
  | .binary left op right =>
    left.Placed ∧ right.Placed ∧ left.StandsLeft op ∧ right.StandsRight op
  | .not operand => operand.Placed
  | .isNull operand _ => operand.Placed ∧ operand.StandsLeft .like
  | .inList operand list _ =>
    list.isEmpty ∨ operand.Placed ∧ placedAll list ∧ operand.StandsLeft .like
  | _ => True

def placedAll : List Expr → Prop
  | [] => True
  | e :: es => e.Placed ∧ placedAll es

end

theorem Expr.phrase_level (e : Expr) : e.phrase.level = e.level + 1 := by
  obtain ⟨_, _, table, node⟩ := e
  rw [phrase, level]
  cases node with
  | function f args => cases args <;> rfl
  | inList operand list negated => cases list <;> rfl
  | «exists» query negated => cases negated <;> rfl
  | _ => rfl

namespace Expr

variable {e : Expr} {op : BinaryOp}

theorem two_le_level (h : e.isBinary = false) : 2 ≤ e.level := by
  obtain ⟨_, _, _, node⟩ := e
  cases node with
  | binary l o r => cases h
  | «exists» query negated => cases negated <;> simp [level, Node.level]
  | _ => simp [level, Node.level]

theorem needsParens_of_not_binary (h : e.isBinary = false) (onRight : Bool) :
    e.needsParens op onRight = false := by
  obtain ⟨_, _, _, node⟩ := e
  cases node <;> first | rfl | cases h

/-- The left side of an operator stands with its parentheses if it is an operator itself, whatever phrase of
its level is written for it. -/
theorem left_level_iff {x : Phrase} (hx : e.isBinary → x.level = e.level + 1) :
    (Operator.of op).level ≤ (parensIf (e.needsParens op false) x).level ↔
      e.isBinary ∨ op.level < x.level := by
  have hlevel : (Operator.of op).level = op.level + 1 := rfl
  have hlt := op.level_lt
  rw [hlevel, le_parensIf_level (by omega), Nat.succ_le_iff]
  cases he : e.isBinary with
  | true =>
    obtain ⟨category, logicalType, table, node⟩ := e
    cases node with
    | binary l o r =>
      have hparens : needsParens op false ⟨category, logicalType, table, .binary l o r⟩ ↔
          o.level < op.level := by
        simp [needsParens, BinaryOp.precedence_lt_iff]
      have hxo : x.level = o.level + 1 := hx rfl
      simp only [hparens, true_or, iff_true]
      omega
    | _ => cases he
  | false => simp [needsParens_of_not_binary he]

theorem right_level_iff {x : Phrase} (hx : e.isBinary → x.level = e.level + 1)
    (hword : e.isBinary = false → 3 ≤ x.level) :
    (Operator.of op).level ≤ (parensIf (e.needsParens op true) x).level ∧
        ((Operator.of op).isAssociative ∨
          (Operator.of op).level < (parensIf (e.needsParens op true) x).level) ↔
      e.isBinary ∨ op.level + 1 < x.level := by
  have hlevel : (Operator.of op).level = op.level + 1 := rfl
  have hassoc : (Operator.of op).isAssociative = op.isAssociative := rfl
  have hlt := op.level_lt
  rw [hlevel, hassoc, ← Nat.succ_le_iff, le_parensIf_level (by omega), le_parensIf_level (by omega)]
  cases he : e.isBinary with
  | true =>
    obtain ⟨category, logicalType, table, node⟩ := e
    cases node with
    | binary l o r =>
      have hparens : needsParens op true ⟨category, logicalType, table, .binary l o r⟩ ↔
          o.level < op.level ∨ o.level = op.level ∧ op.isAssociative = false := by
        simp [needsParens, BinaryOp.precedence_lt_iff, BinaryOp.precedence_eq_iff]
      have hxo : x.level = o.level + 1 := hx rfl
      cases hop : op.isAssociative <;>
        · simp only [hparens, hop, true_or, iff_true, Bool.false_eq_true, Bool.true_eq_false, false_or,
            and_true, and_false, or_false]
          omega
    | _ => cases he
  | false =>
    have hle := hword he
    have hiff := op.associative_iff
    simp only [needsParens_of_not_binary he, hiff, Bool.false_eq_true, false_or]
    omega

theorem standsLeft_iff :
    (Operator.of op).level ≤ (parensIf (e.needsParens op false) e.phrase).level ↔ e.StandsLeft op := by
  rw [left_level_iff fun _ => e.phrase_level, phrase_level, Nat.lt_succ_iff, StandsLeft]

theorem standsRight_iff :
    (Operator.of op).level ≤ (parensIf (e.needsParens op true) e.phrase).level ∧
        ((Operator.of op).isAssociative ∨
          (Operator.of op).level < (parensIf (e.needsParens op true) e.phrase).level) ↔
      e.StandsRight op := by
  have hword (he : e.isBinary = false) : 3 ≤ e.phrase.level := by
    rw [phrase_level]
    exact Nat.succ_le_succ (two_le_level he)
  rw [right_level_iff (fun _ => e.phrase_level) hword, phrase_level, Nat.succ_lt_succ_iff, StandsRight]

theorem test_level_iff {o : Operator} (ho : o.level = BinaryOp.like.level + 1) :
    o.level ≤ (parensIf e.isBinary e.phrase).level ↔ e.StandsLeft .like := by
  rw [ho, le_parensIf_level (by decide), phrase_level, Nat.succ_le_succ_iff, StandsLeft]

end Expr

theorem phrases_level (es : List Expr) : ∀ x ∈ phrases es, 0 < x.level := by
  induction es with
  | nil => simp [phrases]
  | cons e es ih => simpa [phrases, e.phrase_level] using ih

mutual

/-- The parentheses of the renderer suffice exactly if every operand is placed. -/
theorem Expr.phrase_fits_iff : ∀ e : Expr, e.phrase.Fits ↔ e.Placed
  | ⟨_, _, table, node⟩ => node.phrase_fits_iff table

theorem Node.phrase_fits_iff (table : Option TableRef) : ∀ n : Node, (n.phrase table).Fits ↔ n.Placed
  | .function f args => by
    rw [Node.phrase, Node.Placed, ← phrases_fit_iff args]
    cases args with
    | nil => simp [phrases, Fits]
    | cons arg args => exact listed_fits (phrases_level _)
  | .aggregate f arg => by rw [Node.phrase, Fits, arg.phrase_fits_iff, Node.Placed]
  | .binary left op right => by
    rw [Node.phrase, Node.Placed, Fits, parensIf_fits, parensIf_fits, left.phrase_fits_iff,
      right.phrase_fits_iff, Expr.standsLeft_iff, Expr.standsRight_iff]
  | .not operand => by
    rw [Node.phrase, Fits, Fits, operand.phrase_fits_iff, Node.Placed]
    simp [level]
  | .isNull operand negated => by
    have hlt := (Operator.is negated).level_lt
    rw [Node.phrase, Fits, parensIf_fits, operand.phrase_fits_iff, Node.Placed, Expr.test_level_iff rfl]
    simp [Fits, level, hlt, hlt.le]
  | .inList operand list negated => by
    have hlt := (Operator.in negated).level_lt
    rw [Node.phrase, Node.Placed]
    split
    · simp_all [Fits, level, Operator.level, BinaryOp.level]
    · rw [Fits, parensIf_fits, operand.phrase_fits_iff, Expr.test_level_iff rfl, Fits,
        listed_fits (phrases_level list), phrases_fit_iff list]
      simp_all [level, hlt.le]
  | .exists query negated => by cases negated <;> simp [Node.phrase, Fits, Node.Placed, level]
  | .column _ | .literal _ | .null | .parameter _ | .template _ _ | .subquery _ | .raw _ | .map _ => Iff.rfl

theorem phrases_fit_iff : ∀ es : List Expr, (∀ x ∈ phrases es, x.Fits) ↔ placedAll es
  | [] => by simp [phrases, placedAll]
  | e :: es => by
    rw [phrases, List.forall_mem_cons, e.phrase_fits_iff, phrases_fit_iff es, placedAll]

end

/-- The text of an expression is a row of words, and they are read as the expression exactly if every
operand is placed. -/
theorem Expr.readAs_iff_placed (p : Profile) (e : Expr) :
    spell p true e.phrase.tokens = e.toSql p ∧ (ReadAs e.phrase.tokens e.tree ↔ e.Placed) := by
  rw [spell_tokens, e.phrase_text, ← e.phrase_tree, readAs_iff, e.phrase_fits_iff]
  exact ⟨rfl, Iff.rfl⟩

/-- A negation that is compared with a column is read as the negation of the comparison. -/
theorem Expr.negation_compared_misread :
    let a := Expr.column ⟨"T", "A0"⟩ "a" "i64"
    let flag := Expr.column ⟨"T", "A0"⟩ "flag" "bool"
    ∃ test e, a.compare .eq (.literal (.int 1)) = .ok test ∧ test.negate.compare .eq flag = .ok e ∧
      (e.toSql (.ofVendor .postgresql ⟨16, 0, 0⟩)).sql = "NOT (A0.a = 1) = A0.flag" ∧
      e.tree = .binary (.not test.tree) (.of .eq) flag.tree ∧ ¬ReadAs e.phrase.tokens e.tree ∧
      ReadAs e.phrase.tokens (.not (.binary test.tree (.of .eq) flag.tree)) := by
  intro a flag
  refine ⟨_, _, rfl, rfl, by decide, rfl, fun hread => ?_, ?_⟩
  · rw [← Expr.phrase_tree, readAs_iff] at hread
    exact absurd hread.2.2.1 (by decide)
  · let test := Expr.binary a .eq (.literal (.int 1)) .boolean "bool"
    exact (readAs_iff (.not (.binary (.parens test.phrase) (.of .eq) flag.phrase))).mpr (by decide)

end ObjectSql
