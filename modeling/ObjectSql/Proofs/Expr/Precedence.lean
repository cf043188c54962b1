import ObjectSql.Proofs.Expr.Words

/-!
# Parentheses of rendered conditions

The grammar reads the words of a condition as the condition itself. The renderer puts fewer
parentheses than there are operators: it decides by the operand's own operator and its side, and
leaves out those of chains, which are then read in another grouping.
-/
namespace ObjectSql

open Grammar SqlText

/-! ## Levels -/

def Node.level : Node → Nat
  | .binary _ op _ => op.level
  | .not _ | .exists _ true => 2
  | .isNull _ _ | .inList _ _ _ => 3
  | _ => 6

def Expr.level (e : Expr) : Nat := e.node.level

/-- Operands of a stronger operator, or on the left of an operator of the same level, may stand
without parentheses. -/
theorem BinaryOp.precedence_lt_iff (o o' : BinaryOp) : o.precedence < o'.precedence ↔ o.level < o'.level := by
  cases o <;> cases o' <;> decide

theorem BinaryOp.precedence_eq_iff (o o' : BinaryOp) :
    o.precedence = o'.precedence ↔ o.level = o'.level := by
  cases o <;> cases o' <;> decide

theorem Grammar.Feeds.parensIf {n m : Nat} {ts : List Token} {t : Tree} {b : Bool} (h : Feeds n ts t)
    (hn : n ≤ 6) (hm : m ≤ 6) (hb : b = false → m ≤ n) : Feeds m (Grammar.parensIf b ts) t := by
  cases b with
  | false => exact h.lowerTo (hb rfl) hn
  | true => exact (h.parens hn).lowerTo hm (Nat.le_refl 6)

namespace Expr

variable {e : Expr} {o : BinaryOp}

theorem level_le (e : Expr) : e.level ≤ 6 := by
  obtain ⟨_, _, _, node⟩ := e
  cases node with
  | binary l o r => cases o <;> simp [level, Node.level, BinaryOp.level]
  | «exists» q negated => cases negated <;> simp [level, Node.level]
  | _ => simp [level, Node.level]

theorem left_level (h : e.needsParens o false = false)
    (hword : e.isBinary = false → o.level ≤ e.level) : o.level ≤ e.level := by
  obtain ⟨_, _, _, node⟩ := e
  cases node with
  | binary l o' r =>
    have hprec : ¬o'.precedence < o.precedence := by simpa [needsParens] using h
    rw [BinaryOp.precedence_lt_iff] at hprec
    exact Nat.le_of_not_lt hprec
  | _ => exact hword rfl

theorem right_level (ho : o.isAssociative = false) (h : e.needsParens o true = false)
    (hword : e.isBinary = false → o.level < e.level) : o.level < e.level := by
  obtain ⟨_, _, _, node⟩ := e
  cases node with
  | binary l o' r =>
    have hprec : ¬o'.precedence < o.precedence ∧ ¬o'.precedence = o.precedence := by
      simpa [needsParens, ho] using h
    rw [BinaryOp.precedence_lt_iff, BinaryOp.precedence_eq_iff] at hprec
    show o.level < o'.level
    omega
  | _ => exact hword rfl

/-- Both operands of an operator that associates are treated alike. -/
theorem needsParens_side (ho : o.isAssociative) : e.needsParens o true = e.needsParens o false := by
  simp [needsParens, ho]

theorem IsValue.level_eq (h : e.IsValue) (hbinary : e.isBinary = false) : e.level = 6 := by
  obtain ⟨_, _, _, node⟩ := e
  cases node <;> simp_all [IsValue, Node.IsValue, isBinary, level, Node.level]

theorem IsCondition.two_le_level (h : e.IsCondition) (hbinary : e.isBinary = false) :
    2 ≤ e.level := by
  obtain ⟨_, _, _, node⟩ := e
  cases node with
  | «exists» q negated => cases negated <;> simp [level, Node.level]
  | _ => simp_all [IsCondition, Node.IsCondition, isBinary, level, Node.level]

end Expr

/-- An operator between values, which do not begin with a negation. -/
theorem Grammar.Feeds.binaryOfValues {left right : Expr} {op : BinaryOp} (hop : 3 ≤ op.level)
    (hleft : left.IsValue) (hright : right.IsValue) (hl : Feeds left.level left.tokens left.shape)
    (hr : Feeds right.level right.tokens right.shape) :
    Feeds op.level
      (Grammar.parensIf (left.needsParens op false) left.tokens ++
        .op op :: Grammar.parensIf (right.needsParens op true) right.tokens)
      (.binary left.shape op right.shape) := by
  have hlt := op.level_lt
  have hassoc : op.isAssociative = false := by
    have := op.associative_iff
    grind
  refine Feeds.binary (hl.parensIf left.level_le (by omega) fun h => ?_)
    (hr.parensIf right.level_le (by omega) fun h => ?_)
  · exact Expr.left_level h fun hword => by rw [hleft.level_eq hword]; omega
  · exact Expr.right_level hassoc h fun hword => by rw [hright.level_eq hword]; omega

theorem Grammar.Feeds.testOperand {e : Expr} (he : e.IsValue) (h : Feeds e.level e.tokens e.shape) :
    Feeds 3 (Grammar.parensIf e.isBinary e.tokens) e.shape :=
  h.parensIf e.level_le (by omega) fun hword => by rw [he.level_eq hword]; omega

mutual

theorem Expr.feeds : ∀ e : Expr, e.IsValue → Feeds e.level e.tokens e.shape
  | ⟨_, _, table, node⟩, h => node.feeds table h

theorem Node.feeds (table : Option TableRef) :
    ∀ n : Node, n.IsValue → Feeds n.level (n.tokens table) (n.shape table)
  | .column name, _ => Feeds.word (by simp) fun rest => by simp [readWord, Node.shape]
  | .literal value, _ => Feeds.word (by simp) fun rest => by simp [readWord, Node.shape]
  | .parameter p, _ => Feeds.word (by simp) fun rest => by simp [readWord, Node.shape]
  | .subquery query, _ => Feeds.word (by simp) fun rest => by simp [readWord, Node.shape]
  | .function f args, h => by
    rw [Node.tokens, Node.shape]
    exact Feeds.call (feedsAll args h) f
  | .aggregate f arg, h => by
    have harg := (arg.feeds h).lowerTo (Nat.zero_le _) arg.level_le
    rw [Node.tokens, Node.shape]
    exact Feeds.call (.cons harg .nil) f
  | .binary left op right, ⟨hop, hleft, hright⟩ => by
    rw [Node.tokens, Node.shape]
    exact Feeds.binaryOfValues (by omega) hleft hright (left.feeds hleft) (right.feeds hright)

theorem feedsAll : ∀ es : List Expr, valuesOnly es → FeedsAll (tokenLists es) (shapes es)
  | [], _ => .nil
  | e :: es, ⟨he, hes⟩ =>
    .cons ((e.feeds he).lowerTo (Nat.zero_le _) e.level_le) (feedsAll es hes)

end

/-- The words of a condition are read as its tree with chains grouped to the left. Behind an operator
of its own, a chain is read as if its operands followed one by one. -/
structure Expr.Reads (e : Expr) : Prop where
  feeds : Feeds e.level e.tokens e.shape.grouped
  joins : ∀ l o r, e.node = .binary l o r → o.isAssociative → Joins o e.tokens e.shape.grouped

namespace Expr

variable {e left right : Expr} {op : BinaryOp}

theorem grouped_ne (hnode : ∀ l r, e.node ≠ .binary l op r) (hop : op.isAssociative) :
    ∀ l r, e.shape.grouped ≠ .binary l op r := by
  obtain ⟨_, _, table, node⟩ := e
  cases node with
  | binary left o right =>
    have ho : o ≠ op := fun h => hnode left right (h ▸ rfl)
    intro l r h
    rw [shape, Node.shape, Tree.grouped] at h
    split at h
    · obtain ⟨x, y, hroot⟩ := Tree.attach_root o left.shape.grouped right.shape.grouped
      simp_all
    · simp_all
  | inList operand list negated =>
    intro l r h
    rw [shape, Node.shape] at h
    split at h <;> simp_all [Tree.grouped, BinaryOp.isAssociative]
    grind
  | _ => simp [shape, Node.shape, Tree.grouped]

theorem Reads.onLeft (he : e.IsCondition) (h : e.Reads) (hop : op.isAssociative) :
    Feeds op.level (Grammar.parensIf (e.needsParens op false) e.tokens) e.shape.grouped := by
  have hlt := op.associative_iff.mp hop
  refine h.feeds.parensIf e.level_le (by omega) fun hparens => left_level hparens fun hword => ?_
  have := he.two_le_level hword
  omega

theorem Reads.onRight (he : e.IsCondition) (h : e.Reads) (hop : op.isAssociative) :
    Joins op (Grammar.parensIf (e.needsParens op true) e.tokens) e.shape.grouped := by
  have hlt := op.associative_iff.mp hop
  by_cases hchain : ∃ l r, e.node = .binary l op r
  · obtain ⟨l, r, hnode⟩ := hchain
    have hparens : e.needsParens op true = false := by simp [needsParens, hnode, hop]
    rw [hparens]
    exact h.joins l op r hnode hop
  · have hnode : ∀ l r, e.node ≠ .binary l op r := by simpa using hchain
    refine Feeds.joins (h.feeds.parensIf e.level_le (by omega) fun hparens => ?_)
      (grouped_ne hnode hop)
    obtain ⟨_, _, _, node⟩ := e
    cases node with
    | binary l o r =>
      have hne : o ≠ op := fun h => hnode l r (h ▸ rfl)
      rw [needsParens_side hop] at hparens
      have hle : op.level ≤ o.level := left_level hparens (by simp [isBinary])
      exact Nat.lt_of_le_of_ne hle fun h => hne (BinaryOp.eq_of_level hop h.symm)
    | _ => exact Nat.lt_of_lt_of_le hlt (he.two_le_level rfl)

/-- The words of a chain are those of its operands with the operator between them. -/
theorem Reads.chain (hleft : left.IsCondition) (hright : right.IsCondition) (hl : left.Reads)
    (hr : right.Reads) (hop : op.isAssociative) (category : Category) (logicalType : String)
    (table : Option TableRef) :
    Reads ⟨category, logicalType, table, .binary left op right⟩ where
  feeds := by
    rw [tokens, Node.tokens, shape, Node.shape, Tree.grouped, if_pos hop]
    exact (hl.onLeft hleft hop).join (hr.onRight hright hop)
  joins l o r hnode ho := by
    cases hnode
    rw [tokens, Node.tokens, shape, Node.shape, Tree.grouped, if_pos hop, ← needsParens_side hop]
    exact (hl.onRight hleft hop).chain (hr.onRight hright hop)

/-- A condition that is no chain is read if its words are. -/
theorem Reads.ofFeeds (h : Feeds e.level e.tokens e.shape.grouped)
    (hnode : ∀ l o r, e.node = .binary l o r → o.isAssociative = false) : e.Reads where
  feeds := h
  joins l o r he ho := by simp [hnode l o r he] at ho

end Expr

theorem Expr.reads : ∀ e : Expr, e.IsCondition → e.Reads
  | ⟨category, logicalType, table, .binary left op right⟩, h => by
    rcases h with ⟨hop, hleft, hright⟩ | ⟨hop, hleft, hright⟩
    · have hassoc : op.isAssociative = false := by
        have := op.associative_iff
        grind
      refine Reads.ofFeeds ?_ fun l o r he => by cases he; exact hassoc
      rw [tokens, Node.tokens, shape, Node.shape, Tree.grouped, hassoc]
      exact Feeds.binaryOfValues (by omega) hleft hright (left.feeds hleft) (right.feeds hright)
    · exact Reads.chain hleft hright (left.reads hleft) (right.reads hright) hop _ _ _
  | ⟨category, logicalType, table, .not operand⟩, h => by
    refine Reads.ofFeeds ?_ (by simp)
    rw [tokens, Node.tokens, shape, Node.shape, Tree.grouped]
    have hparens := ((operand.reads h).feeds.parens operand.level_le)
    exact (hparens.lowerTo (by omega) (Nat.le_refl 6)).not (by simp)
  | ⟨category, logicalType, table, .isNull operand negated⟩, h => by
    have hoperand := Feeds.testOperand h (operand.feeds h)
    refine Reads.ofFeeds ?_ (by simp)
    rw [tokens, Node.tokens, shape, Node.shape, Tree.grouped]
    · exact hoperand.isNull negated
    · simp
    · simp
  | ⟨category, logicalType, table, .inList operand list negated⟩, h => by
    refine Reads.ofFeeds ?_ (by simp)
    rw [tokens, Node.tokens, shape, Node.shape]
    split
    · have hnumber (n : Int) : Feeds 6 [.literal (.int n)] (.literal (.int n)) :=
        Feeds.word (by simp) fun rest => by simp [readWord]
      rw [Tree.grouped]
      exact Feeds.binary (o := .eq) ((hnumber 1).lowerTo (by decide) (by omega))
        ((hnumber _).lowerTo (by decide) (by omega))
    · next hlist =>
      have hne : tokenLists list ≠ [] := by cases list <;> simp_all [tokenLists]
      have hoperand := Feeds.testOperand h.1 (operand.feeds h.1)
      rw [Tree.grouped]
      · exact hoperand.inList (feedsAll list h.2) hne negated
      · simp
      · simp
  | ⟨category, logicalType, table, .exists query negated⟩, h => by
    refine Reads.ofFeeds ?_ (by simp)
    rw [tokens, Node.tokens, shape, Node.shape, Tree.grouped]
    cases negated with
    | false => exact Feeds.word (by simp) fun rest => by simp [readWord]
    | true => exact Feeds.notExists query
    · simp
    · simp

/-! ## Lists of conditions -/

theorem Grammar.Spells.text {p : Profile} {ts : List Token} {text : SqlText} (h : Spells p ts text) :
    spell p true ts = text := by
  have hspell := h true []
  rw [List.append_nil] at hspell
  simpa [spell] using hspell

end ObjectSql
