import Mathlib.Algebra.BigOperators.Group.List.Basic
import Mathlib.Tactic.Linarith
import ObjectSql.Expr.Render
import ObjectSql.Proofs.Expr.Grammar
import ObjectSql.Proofs.Statement.Text

/-!
# Phrases and their readings

A phrase is a text with its parentheses. The words of a text can be read as a tree if a phrase with these
words says it in which no operand binds more weakly than its operator allows. From the weakest, the levels
are those of separators, disjunction, conjunction, negation, tests, sums, products and words; operators
group to the left, and a chain of conjunctions or of disjunctions is read in any grouping.

The words and the tree together determine the phrase. So whether a text can be read as what it is meant to
say is a question about the parentheses that were written only.
-/
namespace ObjectSql

namespace Phrase

inductive Operator where
  | separator (sql : String)
  | of (op : BinaryOp)
  | percent
  | is (negated : Bool)
  | in (negated : Bool)
deriving DecidableEq

namespace Operator

def sql : Operator → String
  | separator s => s
  | of op => op.sql
  | percent => "%"
  | is negated => if negated then "IS NOT" else "IS"
  | .in negated => if negated then "NOT IN" else "IN"

/-- How strongly an operator binds. Negation is at level 3, and words are at level 7. -/
def level : Operator → Nat
  | separator _ => 0
  | of op => op.level + 1
  | percent => BinaryOp.mul.level + 1
  | is _ | .in _ => BinaryOp.like.level + 1

def isAssociative : Operator → Bool
  | of op => op.isAssociative
  | _ => false

variable {o o' : Operator}

theorem level_lt (o : Operator) : o.level < 7 := by
  cases o with
  | of op => exact Nat.succ_lt_succ op.level_lt
  | _ => simp [level, BinaryOp.level]

theorem level_ne (o : Operator) : o.level ≠ 3 := by
  cases o with
  | of op => cases op <;> decide
  | _ => simp [level, BinaryOp.level]

theorem level_lt_of_isAssociative (h : o.isAssociative) : o.level < 3 := by
  cases o with
  | of op => exact Nat.succ_lt_succ (op.associative_iff.mp h)
  | _ => cases h

theorem eq_of_level (h : o.isAssociative) (hlevel : o'.level = o.level) : o' = o := by
  have hlt := level_lt_of_isAssociative h
  cases o with
  | of op =>
    cases o' with
    | of op' => exact congrArg of (BinaryOp.eq_of_level h (Nat.succ.inj hlevel))
    | _ => simp_all [level, BinaryOp.level]
  | _ => cases h

end Operator

/-- A word of a text. What an expression without operators is written as counts as one word. -/
inductive Token where
  | word (table : Option TableRef) (node : Node)
  /-- The name of a function and the parenthesis behind it. -/
  | call (f : String)
  | lparen
  | rparen
  | op (o : Operator)
  | not

inductive Tree where
  | word (table : Option TableRef) (node : Node)
  | call (f : String) (arg : Tree)
  | binary (left : Tree) (o : Operator) (right : Tree)
  | not (operand : Tree)

end Phrase

inductive Phrase where
  | word (table : Option TableRef) (node : Node)
  | parens (inner : Phrase)
  | call (f : String) (arg : Phrase)
  | binary (left : Phrase) (o : Phrase.Operator) (right : Phrase)
  | not (operand : Phrase)

namespace Phrase

def tokens : Phrase → List Token
  | word table node => [.word table node]
  | parens x => .lparen :: (x.tokens ++ [.rparen])
  | call f x => .call f :: (x.tokens ++ [.rparen])
  | binary l o r => l.tokens ++ .op o :: r.tokens
  | not x => .not :: x.tokens

/-- What a phrase says, as its parentheses have it. -/
def tree : Phrase → Tree
  | word table node => .word table node
  | parens x => x.tree
  | call f x => .call f x.tree
  | binary l o r => .binary l.tree o r.tree
  | not x => .not x.tree

def level : Phrase → Nat
  | binary _ o _ => o.level
  | not _ => 3
  | _ => 7

@[simp] theorem level_word (table : Option TableRef) (node : Node) : (word table node).level = 7 := rfl

@[simp] theorem level_parens (x : Phrase) : (parens x).level = 7 := rfl

@[simp] theorem level_call (f : String) (x : Phrase) : (call f x).level = 7 := rfl

@[simp] theorem level_binary (l : Phrase) (o : Operator) (r : Phrase) :
    (binary l o r).level = o.level := rfl

/-- No operand binds more weakly than its operator, nor equally on the right of an operator that does not
associate. -/
def Fits : Phrase → Prop
  | word _ _ => True
  | parens x | call _ x => x.Fits
  | binary l o r =>
    l.Fits ∧ r.Fits ∧ o.level ≤ l.level ∧ o.level ≤ r.level ∧ (o.isAssociative ∨ o.level < r.level)
  | not x => x.Fits ∧ 3 ≤ x.level

instance Fits.decidable : (x : Phrase) → Decidable x.Fits
  | word _ _ => isTrue trivial
  | parens x | call _ x => Fits.decidable x
  | binary l o r =>
    have := Fits.decidable l
    have := Fits.decidable r
    inferInstanceAs (Decidable (l.Fits ∧ r.Fits ∧ o.level ≤ l.level ∧ o.level ≤ r.level ∧
      (o.isAssociative ∨ o.level < r.level)))
  | not x =>
    have := Fits.decidable x
    inferInstanceAs (Decidable (x.Fits ∧ 3 ≤ x.level))

/-- A tree is a reading of words if it is what a fitting phrase of them says. -/
def Reads (ts : List Token) (t : Tree) : Prop :=
  ∃ x : Phrase, x.Fits ∧ x.tokens = ts ∧ x.tree = t

/-! ## Nesting -/

def Token.nesting : Token → Int
  | call _ | lparen => 1
  | rparen => -1
  | _ => 0

def depth (ts : List Token) : Int := (ts.map Token.nesting).sum

@[simp]
theorem depth_nil : depth [] = 0 := rfl

@[simp]
theorem depth_cons (t : Token) (ts : List Token) : depth (t :: ts) = t.nesting + depth ts := by
  simp [depth]

@[simp]
theorem depth_append (as bs : List Token) : depth (as ++ bs) = depth as + depth bs := by
  simp [depth]

@[simp]
theorem depth_tokens (x : Phrase) : depth x.tokens = 0 := by
  induction x with
  | word => rfl
  | parens x ih => simp [tokens, ih, Token.nesting]
  | call f x ih => simp [tokens, ih, Token.nesting]
  | binary l o r ihl ihr => simp [tokens, ihl, ihr, Token.nesting]
  | not x ih => simp [tokens, ih, Token.nesting]

variable {x y l r : Phrase} {o : Operator} {s : Token} {as bs : List Token}

/-- Two places in a list of words are the same, or one of them is behind the other. -/
theorem places {α : Type} {s s' : α} {as bs as' bs' : List α} (h : as ++ s :: bs = as' ++ s' :: bs') :
    (as = as' ∧ s = s' ∧ bs = bs') ∨ (∃ ms, as' = as ++ s :: ms ∧ bs = ms ++ s' :: bs') ∨
      ∃ ms, as = as' ++ s' :: ms ∧ bs' = ms ++ s :: bs := by
  rcases List.append_eq_append_iff.mp h with ⟨ms, rfl, hms⟩ | ⟨ms, rfl, hms⟩ <;>
    cases ms <;> simp_all

/-- Inside of parentheses, words are nested. -/
theorem depth_pos_of_brackets {opening : Token} (hopening : opening.nesting = 1)
    (hx : ∀ as s bs, x.tokens = as ++ s :: bs → 0 ≤ depth as)
    (h : opening :: (x.tokens ++ [.rparen]) = as ++ s :: bs) : as = [] ∨ 0 < depth as := by
  cases as with
  | nil => exact .inl rfl
  | cons a as =>
    obtain ⟨rfl, hinner⟩ := List.cons.inj h
    have hdepth : 0 ≤ depth as := by
      rcases places hinner with ⟨rfl, -, -⟩ | ⟨ms, -, hms⟩ | ⟨ms, has, -⟩
      · rw [depth_tokens]
      · simp at hms
      · exact hx as s ms has
    rw [depth_cons, hopening]
    exact .inr (by linarith)

/-- No word of a phrase closes a parenthesis that was not opened in it. -/
theorem depth_nonneg (h : x.tokens = as ++ s :: bs) : 0 ≤ depth as := by
  induction x generalizing as s bs with
  | word table node =>
    cases as with
    | nil => rfl
    | cons a as => simp [tokens] at h
  | parens x ih =>
    rcases depth_pos_of_brackets rfl (fun as s bs => ih) h with rfl | hpos
    · rfl
    · exact hpos.le
  | call f x ih =>
    rcases depth_pos_of_brackets rfl (fun as s bs => ih) h with rfl | hpos
    · rfl
    · exact hpos.le
  | binary l o r ihl ihr =>
    rcases places h with ⟨rfl, -, -⟩ | ⟨ms, rfl, hr⟩ | ⟨ms, hl, -⟩
    · rw [depth_tokens]
    · simpa [Token.nesting] using ihr hr
    · exact ihl hl
  | not x ih =>
    cases as with
    | nil => rfl
    | cons a as =>
      obtain ⟨rfl, hx⟩ := List.cons.inj h
      simpa [Token.nesting] using ih hx

theorem parens_depth (h : (parens x).tokens = as ++ s :: bs) : as = [] ∨ 0 < depth as :=
  depth_pos_of_brackets rfl (fun _ _ _ => depth_nonneg) h

theorem call_depth {f : String} (h : (call f x).tokens = as ++ s :: bs) : as = [] ∨ 0 < depth as :=
  depth_pos_of_brackets rfl (fun _ _ _ => depth_nonneg) h

/-! ## A phrase is what its words and its tree say -/

/-- Whether a word is more than a parenthesis. -/
def Token.counts : Token → Bool
  | lparen | rparen => false
  | _ => true

def Tree.size : Tree → Nat
  | word _ _ => 1
  | call _ t => t.size + 1
  | binary l _ r => l.size + r.size + 1
  | not t => t.size + 1

theorem countP_tokens (x : Phrase) : x.tokens.countP Token.counts = x.tree.size := by
  induction x with
  | word => rfl
  | parens x ih => simp [tokens, tree, ih, Token.counts]
  | call f x ih => simp [tokens, tree, Tree.size, ih, List.countP_cons, Token.counts]
  | binary l o r ihl ihr =>
    simp [tokens, tree, Tree.size, ihl, ihr, List.countP_cons, Token.counts, Nat.add_assoc]
  | not x ih => simp [tokens, tree, Tree.size, ih, List.countP_cons, Token.counts]

/-- Left operands with the same tree end at the same place. -/
theorem binary_tokens {x' y' : Phrase} {o' : Operator} (htree : x.tree = x'.tree)
    (h : (binary x o y).tokens = (binary x' o' y').tokens) :
    x.tokens = x'.tokens ∧ y.tokens = y'.tokens := by
  have hsize : x.tokens.countP Token.counts = x'.tokens.countP Token.counts := by
    rw [countP_tokens, countP_tokens, htree]
  rcases places h with ⟨hl, -, hr⟩ | ⟨ms, hms, -⟩ | ⟨ms, hms, -⟩
  · exact ⟨hl, hr⟩
  · simp [hms, List.countP_cons, Token.counts] at hsize
  · simp [hms, List.countP_cons, Token.counts] at hsize

theorem parens_ne_binary (h : (parens x).tokens = (binary l o r).tokens) : False := by
  rcases parens_depth h with hnil | hpos
  · rw [tokens, tokens, hnil] at h
    cases (List.cons.inj h).1
  · simp at hpos

theorem eq_of_tokens (htokens : x.tokens = y.tokens) (htree : x.tree = y.tree) : x = y := by
  induction x generalizing y with
  | word table node => cases y <;> simp_all [tokens, tree]
  | parens x ih =>
    cases y with
    | parens y =>
      have hinner : x.tokens = y.tokens := by simpa [tokens] using htokens
      rw [ih hinner htree]
    | binary l o r => exact (parens_ne_binary htokens).elim
    | _ => simp [tokens] at htokens
  | call f x ih =>
    cases y with
    | call g y =>
      have hinner : f = g ∧ x.tokens = y.tokens := by simpa [tokens] using htokens
      rw [hinner.1, ih hinner.2 (Tree.call.inj htree).2]
    | _ => simp_all [tokens, tree]
  | binary l o r ihl ihr =>
    cases y with
    | parens y => exact (parens_ne_binary htokens.symm).elim
    | binary l' o' r' =>
      obtain ⟨hl, rfl, hr⟩ := Tree.binary.inj htree
      obtain ⟨hls, hrs⟩ := binary_tokens hl htokens
      rw [ihl hls hl, ihr hrs hr]
    | _ => simp_all [tokens, tree]
  | not x ih =>
    cases y with
    | not y => rw [ih (List.cons.inj htokens).2 (Tree.not.inj htree)]
    | _ => simp_all [tokens, tree]

/-- The words of a phrase can be read as what it says exactly if its parentheses suffice. -/
theorem reads_iff (x : Phrase) : Reads x.tokens x.tree ↔ x.Fits := by
  constructor
  · rintro ⟨y, hfits, htokens, htree⟩
    rwa [← eq_of_tokens htokens htree]
  · exact fun h => ⟨x, h, rfl, rfl⟩

/-! ## Readings agree up to the grouping of chains -/

/-- Trees that differ in the grouping of chains of conjunctions or of disjunctions. -/
inductive Regrouped : Tree → Tree → Prop where
  | refl (t : Tree) : Regrouped t t
  | symm {t u : Tree} : Regrouped t u → Regrouped u t
  | trans {t u v : Tree} : Regrouped t u → Regrouped u v → Regrouped t v
  | assoc {o : Operator} (h : o.isAssociative) (a b c : Tree) :
    Regrouped (.binary a o (.binary b o c)) (.binary (.binary a o b) o c)
  | call (f : String) {t u : Tree} : Regrouped t u → Regrouped (.call f t) (.call f u)
  | binary {l l' r r' : Tree} (o : Operator) :
    Regrouped l l' → Regrouped r r' → Regrouped (.binary l o r) (.binary l' o r')
  | not {t u : Tree} : Regrouped t u → Regrouped (.not t) (.not u)

def Token.level? : Token → Option Nat
  | op o => some o.level
  | not => some 3
  | _ => none

/-- An operator or a negation that is not nested binds at least as strongly as the phrase. -/
theorem Fits.level_le {n : Nat} (h : x.Fits) (hx : x.tokens = as ++ s :: bs) (hdepth : depth as = 0)
    (hs : s.level? = some n) : x.level ≤ n := by
  induction x generalizing as bs with
  | word table node =>
    cases as with
    | nil =>
      obtain ⟨rfl, -⟩ := List.cons.inj hx
      cases hs
    | cons a as => simp [tokens] at hx
  | parens x ih =>
    rcases parens_depth hx with rfl | hpos
    · obtain ⟨rfl, -⟩ := List.cons.inj hx
      cases hs
    · omega
  | call f x ih =>
    rcases call_depth hx with rfl | hpos
    · obtain ⟨rfl, -⟩ := List.cons.inj hx
      cases hs
    · omega
  | binary l o' r ihl ihr =>
    obtain ⟨hl, hr, hlevel, hlevel', -⟩ := h
    rcases places hx with ⟨-, rfl, -⟩ | ⟨ms, rfl, hms⟩ | ⟨ms, hms, -⟩
    · cases hs
      exact Nat.le_refl _
    · have hdepth : depth ms = 0 := by simpa [Token.nesting] using hdepth
      exact hlevel'.trans (ihr hr hms hdepth)
    · exact hlevel.trans (ihl hl hms hdepth)
  | not x ih =>
    cases as with
    | nil =>
      obtain ⟨rfl, -⟩ := List.cons.inj hx
      cases hs
      exact Nat.le_refl _
    | cons a as =>
      obtain ⟨rfl, hinner⟩ := List.cons.inj hx
      exact h.2.trans (ih h.1 hinner (by simpa [Token.nesting] using hdepth))

/-- A chain can be grouped at any of its operators. -/
theorem Fits.split (h : x.Fits) (ho : o.isAssociative) (hlevel : o.level ≤ x.level)
    (hx : x.tokens = as ++ .op o :: bs) (hdepth : depth as = 0) :
    ∃ a b : Phrase, a.tokens = as ∧ b.tokens = bs ∧ (binary a o b).Fits ∧
      Regrouped x.tree (.binary a.tree o b.tree) := by
  have hlt := Operator.level_lt_of_isAssociative ho
  have hle := h.level_le hx hdepth rfl
  induction x generalizing as bs with
  | binary l o' r ihl ihr =>
    have heq : o' = o := Operator.eq_of_level ho (Nat.le_antisymm hle hlevel)
    subst heq
    obtain ⟨hl, hr, hlevel, hlevel', -⟩ := h
    rcases places hx with ⟨hls, -, hrs⟩ | ⟨ms, rfl, hms⟩ | ⟨ms, hms, rfl⟩
    · exact ⟨l, r, hls, hrs, ⟨hl, hr, hlevel, hlevel', .inl ho⟩, .refl _⟩
    · have hdepth : depth ms = 0 := by simpa [Token.nesting] using hdepth
      obtain ⟨m, b, rfl, rfl, ⟨hm, hb, hmlevel, hblevel, -⟩, htree⟩ :=
        ihr hr hlevel' hms hdepth (hr.level_le hms hdepth rfl)
      have hleft : (binary l o' m).Fits := ⟨hl, hm, hlevel, hmlevel, .inl ho⟩
      refine ⟨binary l o' m, b, rfl, rfl, ⟨hleft, hb, Nat.le_refl _, hblevel, .inl ho⟩, ?_⟩
      exact (Regrouped.binary o' (.refl _) htree).trans (.assoc ho _ _ _)
    · obtain ⟨a, m, rfl, rfl, ⟨ha, hm, halevel, hmlevel, -⟩, htree⟩ :=
        ihl hl hlevel hms hdepth (hl.level_le hms hdepth rfl)
      have hright : (binary m o' r).Fits := ⟨hm, hr, hmlevel, hlevel', .inl ho⟩
      refine ⟨a, binary m o' r, rfl, rfl, ⟨ha, hright, halevel, Nat.le_refl _, .inl ho⟩, ?_⟩
      exact (Regrouped.binary o' htree (.refl _)).trans (.symm (.assoc ho _ _ _))
  | _ => simp only [level] at hle; omega

/-- The words of an operator and its operands make no other kind of phrase, nor one of another level. -/
theorem Fits.binary_of_tokens (h : (binary l o r).Fits) (hy : y.Fits)
    (htokens : (binary l o r).tokens = y.tokens) :
    ∃ l' o' r', y = binary l' o' r' ∧ o'.level = o.level := by
  have hle := hy.level_le htokens.symm (depth_tokens l) rfl
  have hlt := o.level_lt
  cases y with
  | binary l' o' r' =>
    exact ⟨l', o', r', rfl, Nat.le_antisymm hle (h.level_le htokens (depth_tokens l') rfl)⟩
  | not y =>
    have hstart : (binary l o r).tokens = [] ++ .not :: y.tokens := htokens
    have hge : o.level ≤ 3 := h.level_le hstart rfl rfl
    exact absurd (Nat.le_antisymm hge hle) o.level_ne
  | _ => simp only [level] at hle; omega

def AgreeBelow (n : Nat) : Prop :=
  ∀ x y : Phrase, x.tokens.length < n → x.Fits → y.Fits → x.tokens = y.tokens →
    Regrouped x.tree y.tree

variable {n : Nat} {l' r' : Phrase} {o' : Operator}

/-- If the left operand of one phrase ends before that of the other, the operators are of one chain. -/
theorem AgreeBelow.chain {ms : List Token} (ih : AgreeBelow n)
    (hn : (Phrase.binary l o r).tokens.length ≤ n) (hx : (Phrase.binary l o r).Fits)
    (hy : (Phrase.binary l' o' r').Fits) (hlevel : o'.level = o.level)
    (hl : l'.tokens = l.tokens ++ .op o :: ms) (hr : r.tokens = ms ++ .op o' :: r'.tokens) :
    Regrouped (.binary l.tree o r.tree) (.binary l'.tree o' r'.tree) := by
  obtain ⟨hlfits, hrfits, hllevel, hrlevel, hassoc⟩ := hx
  have hdepth : depth ms = 0 := by simpa [hl, Token.nesting] using depth_tokens l'
  have hrle := hrfits.level_le hr hdepth rfl
  have ho : o.isAssociative := hassoc.resolve_right (by omega)
  obtain rfl : o' = o := Operator.eq_of_level ho hlevel
  obtain ⟨m, b, rfl, hb, ⟨hm, hbfits, hmlevel, -, -⟩, htree⟩ := hrfits.split ho hrlevel hr hdepth
  have hlength : l'.tokens.length < n ∧ r'.tokens.length < n := by
    simp only [tokens, hl, hr, List.length_append, List.length_cons] at hn ⊢
    omega
  have hleft : (Phrase.binary l o' m).Fits := ⟨hlfits, hm, hllevel, hmlevel, .inl ho⟩
  have hlagree : Regrouped (Phrase.binary l o' m).tree l'.tree :=
    (ih _ _ hlength.1 hy.1 hleft hl).symm
  have hragree : Regrouped b.tree r'.tree := (ih _ _ hlength.2 hy.2.1 hbfits hb.symm).symm
  exact ((Regrouped.binary o' (.refl _) htree).trans (.assoc ho _ _ _)).trans
    (.binary o' hlagree hragree)

theorem AgreeBelow.step (ih : AgreeBelow n) : AgreeBelow (n + 1) := by
  intro x y hn hx hy h
  have hle : x.tokens.length ≤ n := Nat.le_of_lt_succ hn
  have hbinary (l o r) (heq : y = binary l o r) : ∃ l o r, x = binary l o r := by
    subst heq
    obtain ⟨l, o, r, heq, -⟩ := hy.binary_of_tokens hx h.symm
    exact ⟨l, o, r, heq⟩
  cases x with
  | binary l o r =>
    obtain ⟨l', o', r', rfl, hlevel⟩ := hx.binary_of_tokens hy h
    rcases places h with ⟨hl, ho, hr⟩ | ⟨ms, hl, hr⟩ | ⟨ms, hl, hr⟩
    · cases ho
      have hlength : l.tokens.length < n ∧ r.tokens.length < n := by
        simp only [tokens, List.length_append, List.length_cons] at hle
        omega
      exact .binary o (ih l l' hlength.1 hx.1 hy.1 hl) (ih r r' hlength.2 hx.2.1 hy.2.1 hr)
    · exact ih.chain hle hx hy hlevel hl hr
    · exact (ih.chain (h ▸ hle) hy hx hlevel.symm hl hr).symm
  | word table node =>
    cases y with
    | word => simp_all [tokens, tree, Regrouped.refl]
    | binary => simpa using hbinary _ _ _ rfl
    | _ => simp [tokens] at h
  | parens x =>
    cases y with
    | parens y =>
      have hlength : x.tokens.length < n := by simp [tokens] at hle; omega
      exact ih x y hlength hx hy (by simpa [tokens] using h)
    | binary => simpa using hbinary _ _ _ rfl
    | _ => simp [tokens] at h
  | call f x =>
    cases y with
    | call g y =>
      have hlength : x.tokens.length < n := by simp [tokens] at hle; omega
      have hinner : f = g ∧ x.tokens = y.tokens := by simpa [tokens] using h
      obtain ⟨rfl, hinner⟩ := hinner
      exact .call f (ih x y hlength hx hy hinner)
    | binary => simpa using hbinary _ _ _ rfl
    | _ => simp [tokens] at h
  | not x =>
    cases y with
    | not y => exact .not (ih x y hle hx.1 hy.1 (List.cons.inj h).2)
    | binary => simpa using hbinary _ _ _ rfl
    | _ => simp [tokens] at h

theorem agreeBelow (n : Nat) : AgreeBelow n := by
  induction n with
  | zero => exact fun x y h => absurd h (Nat.not_lt_zero _)
  | succ n ih => exact ih.step

/-- All readings of words agree up to the grouping of chains. -/
theorem Reads.regrouped {ts : List Token} {t u : Tree} (ht : Reads ts t) (hu : Reads ts u) :
    Regrouped t u := by
  obtain ⟨x, hx, rfl, rfl⟩ := ht
  obtain ⟨y, hy, htokens, rfl⟩ := hu
  exact agreeBelow _ x y (Nat.lt_succ_self _) hx hy htokens.symm

/-- Words are read as a tree if it is a reading of them and all of their readings say the same. -/
structure ReadAs (ts : List Token) (t : Tree) : Prop where
  reads : Reads ts t
  agrees : ∀ u, Reads ts u → Regrouped u t

theorem readAs_iff (x : Phrase) : ReadAs x.tokens x.tree ↔ x.Fits :=
  ⟨fun h => x.reads_iff.mp h.reads, fun h =>
    ⟨x.reads_iff.mpr h, fun _ hu => hu.regrouped (x.reads_iff.mpr h)⟩⟩

/-! ## Spelling -/

open SqlText

def Operator.gap (o : Operator) : String :=
  if o = separator "," then "" else " "

def text (p : Profile) : Phrase → SqlText
  | word table node => node.toSql p table
  | parens x => (x.text p).parens
  | call f x => raw f ++ (x.text p).parens
  | binary l o r => l.text p ++ raw (o.gap ++ o.sql ++ " ") ++ r.text p
  | not x => raw "NOT " ++ x.text p

namespace Token

def text (p : Profile) : Token → SqlText
  | word table node => node.toSql p table
  | call f => raw f ++ raw "("
  | lparen => raw "("
  | rparen => raw ")"
  | op o => raw o.sql
  | not => raw "NOT"

def gap : Token → String
  | rparen => ""
  | op o => o.gap
  | _ => " "

def attracts : Token → Bool
  | lparen | call _ => true
  | _ => false

end Token

/-- The text of words with blanks between them; `glued` says that there is none before the first. -/
def spell (p : Profile) (glued : Bool) : List Token → SqlText
  | [] => empty
  | t :: ts => (if glued then empty else raw t.gap) ++ t.text p ++ spell p t.attracts ts

theorem spell_tokens_append (p : Profile) (x : Phrase) (glued : Bool) (rest : List Token) :
    spell p glued (x.tokens ++ rest) =
      (if glued then empty else raw " ") ++ x.text p ++ spell p false rest := by
  have hempty : raw "" = empty := rfl
  have hnot : raw "NOT " = raw "NOT" ++ raw " " := by decide
  induction x generalizing glued rest with
  | word => rfl
  | parens x ih =>
    simp [tokens, spell, ih, text, SqlText.parens, Token.gap, Token.text, Token.attracts, append_assoc,
      hempty]
  | call f x ih =>
    simp [tokens, spell, ih, text, SqlText.parens, Token.gap, Token.text, Token.attracts, append_assoc,
      hempty]
  | binary l o r ihl ihr =>
    simp [tokens, spell, ihl, ihr, text, Token.gap, Token.text, Token.attracts, append_assoc,
      raw_append_raw]
  | not x ih => simp [tokens, spell, ih, text, Token.gap, Token.text, Token.attracts, append_assoc, hnot]

/-- The words of a phrase are its text. -/
theorem spell_tokens (p : Profile) (x : Phrase) : spell p true x.tokens = x.text p := by
  have hspell := spell_tokens_append p x true []
  simpa [spell] using hspell

/-! ## Parts of phrases -/

def parensIf (b : Bool) (x : Phrase) : Phrase :=
  if b then parens x else x

def listed : List Phrase → Phrase
  | [] => word none .null
  | x :: xs => xs.foldl (fun l r => binary l (.separator ",") r) x

def Tree.listed : List Tree → Tree
  | [] => word none .null
  | t :: ts => ts.foldl (fun l r => binary l (.separator ",") r) t

@[simp]
theorem parensIf_tree (b : Bool) (x : Phrase) : (parensIf b x).tree = x.tree := by
  cases b <;> rfl

@[simp]
theorem parensIf_text (p : Profile) (b : Bool) (x : Phrase) :
    (parensIf b x).text p = (x.text p).parensIf b := by
  cases b <;> rfl

@[simp]
theorem parensIf_fits (b : Bool) (x : Phrase) : (parensIf b x).Fits ↔ x.Fits := by
  cases b <;> rfl

theorem le_parensIf_level {n : Nat} (hn : n ≤ 7) (b : Bool) (x : Phrase) :
    n ≤ (parensIf b x).level ↔ b ∨ n ≤ x.level := by
  cases b <;> simp [parensIf, level, hn]

/-- Operands of an operator that does not associate. -/
theorem binary_fits (h : o.isAssociative = false) :
    (binary l o r).Fits ↔ l.Fits ∧ r.Fits ∧ o.level ≤ l.level ∧ o.level < r.level := by
  simp only [Fits, h, Bool.false_eq_true, false_or]
  exact and_congr_right fun _ => and_congr_right fun _ => and_congr_right fun _ =>
    and_iff_right_of_imp Nat.le_of_lt

/-- Any phrase stands next to a separator that has an operator or is one word. -/
theorem separated_fits (sep : String) (h : 0 < r.level) :
    (binary l (.separator sep) r).Fits ↔ l.Fits ∧ r.Fits := by
  rw [binary_fits rfl]
  simp [Operator.level, h]

theorem listed_tree (xs : List Phrase) : (listed xs).tree = Tree.listed (xs.map tree) := by
  cases xs with
  | nil => rfl
  | cons x xs =>
    induction xs generalizing x with
    | nil => rfl
    | cons y ys ih => exact ih (binary x (.separator ",") y)

theorem joined_cons_append (sep : String) (a b : SqlText) (ts : List SqlText) :
    joined sep ((a ++ raw sep ++ b) :: ts) = joined sep (a :: b :: ts) := by
  cases ts <;> simp [joined, append_assoc]

theorem listed_text {xs : List Phrase} (hne : xs ≠ []) (p : Profile) :
    (listed xs).text p = joined ", " (xs.map (text p)) := by
  have hsep : (Operator.separator ",").gap ++ "," ++ " " = ", " := by decide
  cases xs with
  | nil => exact absurd rfl hne
  | cons x xs =>
    induction xs generalizing x with
    | nil => rfl
    | cons y ys ih =>
      have htext := ih (binary x (.separator ",") y) (by simp)
      rw [List.map_cons, text, Operator.sql, hsep, joined_cons_append] at htext
      exact htext

/-- Phrases of any operators stand in a list. -/
theorem listed_fits {xs : List Phrase} (hlevel : ∀ x ∈ xs, 0 < x.level) :
    (listed xs).Fits ↔ ∀ x ∈ xs, x.Fits := by
  cases xs with
  | nil => simp [listed, Fits]
  | cons x xs =>
    have hfold : ∀ x : Phrase, (xs.foldl (fun l r => binary l (.separator ",") r) x).Fits ↔
        x.Fits ∧ ∀ y ∈ xs, y.Fits := by
      induction xs with
      | nil => simp
      | cons y ys ih =>
        intro x
        have hy := hlevel y (by simp)
        rw [List.foldl_cons, ih (by simp_all), separated_fits "," hy, List.forall_mem_cons, and_assoc]
    simpa [listed] using hfold x

end Phrase

end ObjectSql
