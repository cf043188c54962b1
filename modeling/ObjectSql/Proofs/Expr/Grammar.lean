import Mathlib.Data.List.Basic
import ObjectSql.Expr.Basic

/-!
# The grammar of conditions

Words of SQL and a parser that reads them by levels: disjunction, conjunction, negation, tests, sums,
products and the words that stand for themselves. An operator applies to what has been read of its
own level, so operators group to the left. Negation binds what follows it of its own level.
-/
namespace ObjectSql.Grammar

/-- A word. Columns, literals, placeholders and subqueries in parentheses are read as one word. -/
inductive Token where
  | column (table : Option TableRef) (name : String)
  | literal (value : Value)
  | parameter (p : BoundParameter)
  | subquery (query : Select)
  /-- The name of a function. -/
  | name (name : String)
  | lparen
  | rparen
  | comma
  | op (op : BinaryOp)
  | not
  | is
  | null
  | in
  | exists

/-- What a text of the grammar says. -/
inductive Tree where
  | column (table : Option TableRef) (name : String)
  | literal (value : Value)
  | parameter (p : BoundParameter)
  | subquery (query : Select)
  | call (name : String) (args : List Tree)
  | binary (left : Tree) (op : BinaryOp) (right : Tree)
  | not (operand : Tree)
  | isNull (operand : Tree) (negated : Bool)
  | inList (operand : Tree) (list : List Tree) (negated : Bool)
  | exists (query : Select) (negated : Bool)

end Grammar

namespace BinaryOp

/-- The level of an operator in the grammar; level 2 is that of negation and 6 that of words. -/
def level : BinaryOp → Nat
  | or => 0
  | and => 1
  | eq | ne | lt | le | gt | ge | like => 3
  | add | sub => 4
  | mul | div => 5

theorem level_lt (o : BinaryOp) : o.level < 6 := by
  cases o <;> decide

theorem associative_iff (o : BinaryOp) : o.isAssociative ↔ o.level < 2 := by
  cases o <;> decide

theorem eq_of_level {o o' : BinaryOp} (ho : o.isAssociative) (h : o'.level = o.level) : o' = o := by
  cases o <;> cases o' <;> simp_all [isAssociative, level]

end BinaryOp

namespace Grammar

/-! ## Reading -/

mutual

def readLevel (n : Nat) (ts : List Token) : Option (Tree × List Token) :=
  match n, ts with
  | 2, .not :: .exists :: .subquery query :: rest => some (.exists query true, rest)
  | 2, .not :: rest => (readLevel 2 rest).map fun r => (.not r.1, r.2)
  | n, ts =>
    if 6 ≤ n then readWord ts
    else
      match readLevel (n + 1) ts with
      | some (t, rest) => if rest.length < ts.length then readOperators n t rest else none
      | none => none
termination_by (ts.length, 7 - n + 1)

/-- Reads what stands for itself: a word, a call, or an expression in parentheses. -/
def readWord (ts : List Token) : Option (Tree × List Token) :=
  match ts with
  | .column table name :: rest => some (.column table name, rest)
  | .literal value :: rest => some (.literal value, rest)
  | .parameter p :: rest => some (.parameter p, rest)
  | .subquery query :: rest => some (.subquery query, rest)
  | .exists :: .subquery query :: rest => some (.exists query false, rest)
  | .name f :: .lparen :: .rparen :: rest => some (.call f [], rest)
  | .name f :: .lparen :: rest => (readList rest).map fun r => (.call f r.1, r.2)
  | .lparen :: rest =>
    match readLevel 0 rest with
    | some (t, .rparen :: rest) => some (t, rest)
    | _ => none
  | _ => none
termination_by (ts.length, 0)

def readOperators (n : Nat) (left : Tree) (ts : List Token) : Option (Tree × List Token) :=
  match ts with
  | .op o :: rest =>
    if o.level = n then
      match readLevel (n + 1) rest with
      | some (right, rest') =>
        if rest'.length < rest.length then readOperators n (.binary left o right) rest' else none
      | none => none
    else some (left, ts)
  | .is :: .null :: rest =>
    if n = 3 then readOperators n (.isNull left false) rest else some (left, ts)
  | .is :: .not :: .null :: rest =>
    if n = 3 then readOperators n (.isNull left true) rest else some (left, ts)
  | .in :: .lparen :: rest =>
    if n = 3 then
      match readList rest with
      | some (list, rest') =>
        if rest'.length < rest.length then readOperators n (.inList left list false) rest' else none
      | none => none
    else some (left, ts)
  | .not :: .in :: .lparen :: rest =>
    if n = 3 then
      match readList rest with
      | some (list, rest') =>
        if rest'.length < rest.length then readOperators n (.inList left list true) rest' else none
      | none => none
    else some (left, ts)
  | _ => some (left, ts)
termination_by (ts.length, 0)

def readList (ts : List Token) : Option (List Tree × List Token) :=
  match readLevel 0 ts with
  | some (t, .comma :: rest) =>
    if rest.length < ts.length then (readList rest).map fun r => (t :: r.1, r.2) else none
  | some (t, .rparen :: rest) => some ([t], rest)
  | _ => none
termination_by (ts.length, 9)

end

def Token.level? : Token → Option Nat
  | .op o => some o.level
  | .is | .in | .not => some 3
  | _ => none

/-- No operator is of the level of negation or of that of words. -/
theorem Token.level?_ne (s : Token) : s.level? ≠ some 2 ∧ s.level? ≠ some 6 := by
  cases s with
  | op o => cases o <;> simp [Token.level?, BinaryOp.level]
  | _ => simp [Token.level?]

/-- What follows an operand has no operator of the level or of a higher one. -/
def Stops (n : Nat) (ts : List Token) : Prop :=
  ∀ s, ts.head? = some s → ∀ m, s.level? = some m → m < n

theorem Stops.mono {m n : Nat} {ts : List Token} (h : Stops m ts) (hmn : m ≤ n) : Stops n ts :=
  fun s hs k hk => Nat.lt_of_lt_of_le (h s hs k hk) hmn

theorem stops_cons {n : Nat} {s : Token} {ts : List Token} (h : ∀ m, s.level? = some m → m < n) :
    Stops n (s :: ts) := by
  intro s' hs
  cases hs
  exact h

theorem stops_op {o : BinaryOp} (rest : List Token) : Stops (o.level + 1) (.op o :: rest) :=
  stops_cons fun m hm => by cases hm; omega

theorem readOperators_stop {n : Nat} {ts : List Token} (left : Tree)
    (h : ∀ s, ts.head? = some s → s.level? ≠ some n) :
    readOperators n left ts = some (left, ts) := by
  unfold readOperators
  split <;> simp_all [Token.level?] <;> omega

theorem Stops.readOperators {n : Nat} {ts : List Token} (left : Tree) (h : Stops n ts) :
    readOperators n left ts = some (left, ts) :=
  readOperators_stop left fun s hs hn => Nat.lt_irrefl n (h s hs n hn)

theorem readLevel_word (ts : List Token) : readLevel 6 ts = readWord ts := by
  rw [readLevel] <;> simp

theorem readLevel_next {n : Nat} {ts : List Token} (hn : n < 6)
    (hnot : n = 2 → ts.head? ≠ some .not) :
    readLevel n ts =
      match readLevel (n + 1) ts with
      | some (t, rest) => if rest.length < ts.length then readOperators n t rest else none
      | none => none := by
  rw [readLevel, if_neg (by omega)]
  · rintro q rest rfl rfl
    exact hnot rfl rfl
  · rintro rest rfl rfl
    exact hnot rfl rfl

/-- Whatever follows the words, reading them at the level is applying the operators of the level that
follow to the tree. No operand begins with a closing parenthesis, nor from tests on with a negation. -/
structure Feeds (n : Nat) (ts : List Token) (t : Tree) : Prop where
  read : ∀ rest, Stops (n + 1) rest → readLevel n (ts ++ rest) = readOperators n t rest
  starts : ∃ s ss, ts = s :: ss ∧ s ≠ .rparen ∧ (3 ≤ n → s ≠ .not)

namespace Feeds

variable {m n : Nat} {ts rest : List Token} {t : Tree}

theorem word {s : Token} {ss : List Token} (hs : s ≠ .rparen ∧ s ≠ .not)
    (h : ∀ rest, readWord (s :: ss ++ rest) = some (t, rest)) : Feeds 6 (s :: ss) t where
  read rest hrest := by
    rw [readLevel_word, h, readOperators_stop t fun s _ => s.level?_ne.2]
  starts := ⟨s, ss, rfl, hs.1, fun _ => hs.2⟩

theorem reads (h : Feeds n ts t) (hrest : Stops n rest) :
    readLevel n (ts ++ rest) = some (t, rest) := by
  rw [h.read rest (hrest.mono (Nat.le_succ n)), hrest.readOperators]

theorem length_lt (h : Feeds n ts t) (rest : List Token) : rest.length < (ts ++ rest).length := by
  obtain ⟨s, ss, rfl, -⟩ := h.starts
  rw [List.cons_append, List.length_cons, List.length_append]
  omega

theorem lower (h : Feeds (n + 1) ts t) (hn : n < 6) : Feeds n ts t where
  read rest hrest := by
    obtain ⟨s, ss, hts, -, hs⟩ := h.starts
    have hnot : n = 2 → (ts ++ rest).head? ≠ some .not := by
      rintro rfl hhead
      rw [hts] at hhead
      exact hs (by omega) (by simpa using hhead)
    rw [readLevel_next hn hnot, h.reads hrest]
    exact if_pos (h.length_lt rest)
  starts := by
    obtain ⟨s, ss, hts, hparen, hnot⟩ := h.starts
    exact ⟨s, ss, hts, hparen, fun hn => hnot (by omega)⟩

theorem lowerTo (h : Feeds m ts t) (hnm : n ≤ m) (hm : m ≤ 6) : Feeds n ts t := by
  induction m with
  | zero => rwa [Nat.le_zero.mp hnm]
  | succ m ih =>
    rcases Nat.lt_or_eq_of_le hnm with hlt | rfl
    · exact ih (h.lower (by omega)) (by omega) (by omega)
    · exact h

theorem parens (h : Feeds n ts t) (hn : n ≤ 6) : Feeds 6 (.lparen :: ts ++ [.rparen]) t := by
  refine word (by simp) fun rest => ?_
  have hstop : Stops 0 (.rparen :: rest) := stops_cons fun m hm => by cases hm
  have hread := (h.lowerTo (Nat.zero_le n) hn).reads hstop
  simp [readWord, hread]

theorem not (h : Feeds 2 ts t) (hexists : ts.head? ≠ some .exists) :
    Feeds 2 (.not :: ts) (.not t) where
  read rest hrest := by
    obtain ⟨s, ss, rfl, -⟩ := h.starts
    have hread := h.read rest hrest
    rw [readOperators_stop t fun s _ => s.level?_ne.1] at hread
    rw [readOperators_stop _ fun s _ => s.level?_ne.1, List.cons_append, readLevel, hread]
    · rfl
    · rintro query rest' hquery
      simp_all
  starts := ⟨.not, ts, rfl, by simp, by omega⟩

theorem notExists (query : Select) :
    Feeds 2 [.not, .exists, .subquery query] (.exists query true) where
  read rest hrest := by
    rw [readOperators_stop _ fun s _ => s.level?_ne.1]
    simp [readLevel]
  starts := ⟨.not, _, rfl, by simp, by omega⟩

/-- An operator of the level and its right operand are applied to the left one. -/
theorem operand {o : BinaryOp} (h : Feeds (o.level + 1) ts t) (left : Tree)
    (hrest : Stops (o.level + 1) rest) :
    readOperators o.level left (.op o :: (ts ++ rest)) =
      readOperators o.level (.binary left o t) rest := by
  rw [readOperators, if_pos rfl, h.reads hrest]
  exact if_pos (h.length_lt rest)

theorem binary {o : BinaryOp} {ls rs : List Token} {l r : Tree} (hl : Feeds o.level ls l)
    (hr : Feeds (o.level + 1) rs r) : Feeds o.level (ls ++ .op o :: rs) (.binary l o r) where
  read rest hrest := by
    rw [List.append_assoc, List.cons_append, hl.read _ (stops_op _), hr.operand l hrest]
  starts := by
    obtain ⟨s, ss, rfl, hs⟩ := hl.starts
    exact ⟨s, ss ++ .op o :: rs, rfl, hs⟩

/-- A test that follows its operand. -/
theorem test {ss : List Token} {t' : Tree} (h : Feeds 3 ts t)
    (hss : ∀ rest, Stops 4 (ss ++ rest))
    (htest : ∀ rest, readOperators 3 t (ss ++ rest) = readOperators 3 t' rest) :
    Feeds 3 (ts ++ ss) t' where
  read rest _ := by rw [List.append_assoc, h.read _ (hss rest), htest]
  starts := by
    obtain ⟨s, ss', rfl, hs⟩ := h.starts
    exact ⟨s, ss' ++ ss, rfl, hs⟩

theorem isNull (h : Feeds 3 ts t) (negated : Bool) :
    Feeds 3 (ts ++ if negated then [.is, .not, .null] else [.is, .null]) (.isNull t negated) := by
  cases negated with
  | false =>
    refine h.test (fun rest => stops_cons fun m hm => by cases hm; omega) fun rest => ?_
    simp [readOperators]
  | true =>
    refine h.test (fun rest => stops_cons fun m hm => by cases hm; omega) fun rest => ?_
    simp [readOperators]

end Feeds

/-! ## Lists -/

def separated : List (List Token) → List Token
  | [] => []
  | [ts] => ts
  | ts :: tss => ts ++ .comma :: separated tss

abbrev FeedsAll (tss : List (List Token)) (trees : List Tree) : Prop :=
  List.Forall₂ (Feeds 0) tss trees

theorem readList_separated {tss : List (List Token)} {trees : List Tree} (h : FeedsAll tss trees)
    (hne : tss ≠ []) (rest : List Token) :
    readList (separated tss ++ .rparen :: rest) = some (trees, rest) := by
  induction h with
  | nil => exact absurd rfl hne
  | @cons ts t tss trees hts htss ih =>
    cases htss with
    | nil =>
      have hstop : Stops 0 (.rparen :: rest) := stops_cons fun m hm => by cases hm
      rw [separated, readList, hts.reads hstop]
    | @cons ts' t' tss trees hts' htss =>
      have hstop : Stops 0 (.comma :: (separated (ts' :: tss) ++ .rparen :: rest)) :=
        stops_cons fun m hm => by cases hm
      have hlength := hts.length_lt (.comma :: (separated (ts' :: tss) ++ .rparen :: rest))
      rw [List.length_cons] at hlength
      rw [separated, List.append_assoc, List.cons_append, readList, hts.reads hstop]
      · exact (if_pos (Nat.lt_of_succ_lt hlength)).trans (by rw [ih (by simp)]; rfl)
      · simp

namespace Feeds

theorem call {tss : List (List Token)} {trees : List Tree} (h : FeedsAll tss trees) (f : String) :
    Feeds 6 (.name f :: .lparen :: separated tss ++ [.rparen]) (.call f trees) := by
  refine word (by simp) fun rest => ?_
  cases h with
  | nil => simp [readWord, separated]
  | @cons ts t tss trees hts htss =>
    have hread := readList_separated (List.Forall₂.cons hts htss) (by simp) rest
    obtain ⟨s, ss, hs, hparen, -⟩ := hts.starts
    have hhead : ∀ rest', separated (ts :: tss) ++ .rparen :: rest ≠ .rparen :: rest' := by
      cases tss <;> simp [separated, hs, hparen]
    simp [readWord, hread]

theorem inList {ts : List Token} {t : Tree} {tss : List (List Token)} {trees : List Tree}
    (h : Feeds 3 ts t) (hlist : FeedsAll tss trees) (hne : tss ≠ []) (negated : Bool) :
    Feeds 3 (ts ++ (if negated then [.not, .in] else [.in]) ++
      .lparen :: separated tss ++ [.rparen]) (.inList t trees negated) := by
  have hread := readList_separated hlist hne
  have hlength (rest : List Token) : rest.length < (separated tss ++ .rparen :: rest).length := by
    rw [List.length_append, List.length_cons]
    omega
  rw [List.append_assoc, List.append_assoc]
  cases negated with
  | false =>
    refine h.test (fun rest => stops_cons fun m hm => by cases hm; omega) fun rest => ?_
    have hwords : (if false then [Token.not, .in] else [.in]) ++
        (.lparen :: separated tss ++ [.rparen]) ++ rest =
          .in :: .lparen :: (separated tss ++ .rparen :: rest) := by simp
    rw [hwords, readOperators, if_pos rfl, hread rest]
    exact if_pos (hlength rest)
  | true =>
    refine h.test (fun rest => stops_cons fun m hm => by cases hm; omega) fun rest => ?_
    have hwords : (if true then [Token.not, .in] else [.in]) ++
        (.lparen :: separated tss ++ [.rparen]) ++ rest =
          .not :: .in :: .lparen :: (separated tss ++ .rparen :: rest) := by simp
    rw [hwords, readOperators, if_pos rfl, hread rest]
    exact if_pos (hlength rest)

end Feeds

/-! ## Grouping -/

/-- Applies an operator to a left operand and a tree as if the operands of the tree followed without
parentheses. -/
def Tree.attach (o : BinaryOp) (left : Tree) : Tree → Tree
  | .binary l o' r =>
    if o' = o then .binary (attach o left l) o r else .binary left o (.binary l o' r)
  | t => .binary left o t

/-- The tree with its chains of conjunctions and of disjunctions grouped to the left. -/
def Tree.grouped : Tree → Tree
  | .binary l o r => if o.isAssociative then l.grouped.attach o r.grouped else .binary l o r
  | .not t => .not t.grouped
  | t => t

theorem Tree.attach_assoc (o : BinaryOp) (a b c : Tree) :
    a.attach o (b.attach o c) = (a.attach o b).attach o c := by
  fun_induction Tree.attach o b c with
  | case1 => simp_all [Tree.attach]
  | case2 => simp_all [Tree.attach]
  | case3 c h =>
    cases c <;> simp_all [Tree.attach]

theorem Tree.attach_root (o : BinaryOp) (left t : Tree) :
    ∃ l r, left.attach o t = .binary l o r := by
  fun_cases Tree.attach o left t <;> exact ⟨_, _, rfl⟩

theorem Tree.attach_of_ne {o : BinaryOp} {t : Tree} (h : ∀ l r, t ≠ .binary l o r) (left : Tree) :
    left.attach o t = .binary left o t := by
  cases t <;> simp_all [Tree.attach]

/-- After the operator, reading the words is attaching the tree. -/
def Joins (o : BinaryOp) (ts : List Token) (t : Tree) : Prop :=
  ∀ left rest, Stops (o.level + 1) rest →
    readOperators o.level left (.op o :: (ts ++ rest)) = readOperators o.level (left.attach o t) rest

section

variable {o : BinaryOp} {ls rs ts : List Token} {l r t : Tree}

theorem Feeds.joins (h : Feeds (o.level + 1) ts t) (hroot : ∀ l r, t ≠ .binary l o r) :
    Joins o ts t := by
  intro left rest hrest
  rw [h.operand left hrest, Tree.attach_of_ne hroot]

theorem Joins.chain (hl : Joins o ls l) (hr : Joins o rs r) :
    Joins o (ls ++ .op o :: rs) (l.attach o r) := by
  intro left rest hrest
  rw [List.append_assoc, List.cons_append, hl left _ (stops_op _), hr _ rest hrest,
    Tree.attach_assoc]

theorem Feeds.join (hl : Feeds o.level ls l) (hr : Joins o rs r) :
    Feeds o.level (ls ++ .op o :: rs) (l.attach o r) where
  read rest hrest := by
    rw [List.append_assoc, List.cons_append, hl.read _ (stops_op _), hr l rest hrest]
  starts := by
    obtain ⟨s, ss, rfl, hs⟩ := hl.starts
    exact ⟨s, ss ++ .op o :: rs, rfl, hs⟩

end

/-- Trees that differ in the grouping of chains of conjunctions or of disjunctions. -/
inductive Regrouped : Tree → Tree → Prop where
  | refl (t : Tree) : Regrouped t t
  | symm {t u : Tree} : Regrouped t u → Regrouped u t
  | trans {t u v : Tree} : Regrouped t u → Regrouped u v → Regrouped t v
  | assoc {o : BinaryOp} (h : o.isAssociative) (a b c : Tree) :
    Regrouped (.binary a o (.binary b o c)) (.binary (.binary a o b) o c)
  | binary {l l' r r' : Tree} (o : BinaryOp) :
    Regrouped l l' → Regrouped r r' → Regrouped (.binary l o r) (.binary l' o r')
  | not {t u : Tree} : Regrouped t u → Regrouped (.not t) (.not u)

end ObjectSql.Grammar
