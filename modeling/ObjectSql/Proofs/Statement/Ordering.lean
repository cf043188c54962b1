import Mathlib.Data.List.Forall2
import ObjectSql.Proofs.Dialect.Pagination
import ObjectSql.Proofs.Statement.Text
import ObjectSql.Expr.Render
import ObjectSql.Statement.Select

/-!
# Orderings of statements

Statements are written in stretches of text: words that are the same wherever they stand, and names, values and
texts that are given. The words tell how deep in parentheses a stretch stands, and so which `ORDER BY` is that of
the statement itself. Expressions have none outside of parentheses. A statement has one if it sorts its rows, or if
its range is of a style that needs sorted rows.
-/
namespace ObjectSql

/-! ## Stretches of text -/

inductive Fragment where
  /-- Words that do not depend on what is given. -/
  | words (s : String)
  /-- A name, a value, a piece of a template or a text that is given. -/
  | given (s : String)
deriving Repr, DecidableEq, Inhabited

namespace Fragment

def text : Fragment → String
  | words s | given s => s

def spell : List Fragment → String
  | [] => ""
  | f :: fs => f.text ++ spell fs

/-- The depth of parentheses after a text, and how often `ORDER BY` stands in it outside of them. -/
def scan : (depth : Nat) → List Char → Nat × Nat
  | depth, [] => (depth, 0)
  | depth, c :: cs =>
    if c = '(' then scan (depth + 1) cs
    else if c = ')' then scan (depth - 1) cs
    else
      let (after, n) := scan depth cs
      (after, if depth = 0 && "ORDER BY".toList.isPrefixOf (c :: cs) then n + 1 else n)

/-- How often `ORDER BY` is written outside of parentheses, from a depth of them on. -/
def orderings : (depth : Nat) → List Fragment → Nat
  | _, [] => 0
  | depth, given _ :: fs => orderings depth fs
  | depth, words s :: fs => (scan depth s.toList).2 + orderings (scan depth s.toList).1 fs

theorem spell_append (fs gs : List Fragment) : spell (fs ++ gs) = spell fs ++ spell gs := by
  induction fs with
  | nil => simp [spell]
  | cons f fs ih => rw [List.cons_append, spell, spell, ih, String.append_assoc]

/-- A character of a text that neither opens nor closes parentheses and does not sort, since no `BY` is in it. -/
def isQuiet (c : Char) : Bool := c != '(' && c != ')' && c != 'B'

def Quiet (s : String) : Prop := s.toList.all isQuiet

instance (s : String) : Decidable (Quiet s) := inferInstanceAs (Decidable (s.toList.all isQuiet = true))

theorem scan_quiet {cs : List Char} (h : cs.all isQuiet) (depth : Nat) : scan depth cs = (depth, 0) := by
  induction cs with
  | nil => rfl
  | cons c cs ih =>
    obtain ⟨hc, hcs⟩ : isQuiet c = true ∧ cs.all isQuiet = true := by simpa using h
    have hopen : c ≠ '(' := by rintro rfl; cases hc
    have hclose : c ≠ ')' := by rintro rfl; cases hc
    have hprefix : "ORDER BY".toList.isPrefixOf (c :: cs) = false := by
      rw [Bool.eq_false_iff]
      intro hprefix
      have hmem : 'B' ∈ c :: cs := (List.isPrefixOf_iff_prefix.mp hprefix).subset (by decide)
      have hquiet := List.all_eq_true.mp h 'B' hmem
      cases hquiet
    rw [scan, if_neg hopen, if_neg hclose, ih hcs, hprefix]
    simp

theorem Quiet.append {s t : String} : Quiet (s ++ t) ↔ Quiet s ∧ Quiet t := by
  simp [Quiet]

theorem Quiet.int (n : Int) : Quiet (toString n) := by
  have hdigit : ∀ c, Text.isDigit c → isQuiet c := fun c hc => by
    have hne : c ≠ '(' ∧ c ≠ ')' ∧ c ≠ 'B' := by
      refine ⟨?_, ?_, ?_⟩ <;> (rintro rfl; cases hc)
    simp [isQuiet, hne]
  have hnat : ∀ m : Nat, Quiet (toString m) := fun m => by
    have hlist : (toString m).toList = Nat.toDigits 10 m := by simp
    rw [Quiet, hlist, List.all_eq_true]
    exact fun c hc => hdigit c (Text.isDigit_of_mem_toDigits hc)
  cases n with
  | ofNat m => exact hnat m
  | negSucc m => exact Quiet.append.mpr ⟨by decide, hnat (m + 1)⟩

/-- What a range says apart from an ordering has no parentheses. -/
theorem Quiet.rangeClause (p : Profile) {ordered : Bool}
    (h : (p.pagination.requiresOrdering && !ordered) = false) (offset count : Int) :
    Quiet (p.rangeClause offset count ordered) :=
  p.rangeClause_holds Quiet.append Quiet.int (by decide) fun hneeds => by simp [h] at hneeds

/-! ### Composing -/

def parens (fs : List Fragment) : List Fragment := words "(" :: fs ++ [words ")"]

def parensIf (b : Bool) (fs : List Fragment) : List Fragment := if b then parens fs else fs

def joined (sep : String) : List (List Fragment) → List Fragment
  | [] => []
  | [fs] => fs
  | fs :: fss => fs ++ words sep :: joined sep fss

/-- A keyword and its parts, or nothing if there are no parts. -/
def clause (keyword sep : String) (parts : List (List Fragment)) : List Fragment :=
  if parts.isEmpty then [] else words keyword :: joined sep parts

def slot (args : List (List Fragment)) (inner : List Char) : List Fragment :=
  match (Text.readIndex inner).bind (args[·]?) with
  | some arg => arg
  | none => [given ("\x7b" ++ String.ofList inner ++ "\x7d")]

def fillFrom (args : List (List Fragment)) : (inner : Option (List Char)) → List Char → List Fragment
  | none, [] => []
  | some inner, [] => [given ("\x7b" ++ String.ofList inner)]
  | none, c :: cs =>
    if c = '\x7b' then fillFrom args (some []) cs
    else given (String.singleton c) :: fillFrom args none cs
  | some inner, c :: cs =>
    if c = '\x7d' then slot args inner ++ fillFrom args none cs
    else fillFrom args (some (inner ++ [c])) cs

end Fragment

/-! ## Rendering -/

open Fragment SqlText

mutual

def Expr.fragments (p : Profile) : Expr → List Fragment
  | ⟨_, _, table, node⟩ => node.fragments p table

def Node.fragments (p : Profile) (table : Option TableRef) : Node → List Fragment
  | .column name => [.given ((table.elim "" fun t => t.aliasName ++ ".") ++ p.identifier .column name)]
  | .literal value => [.given (value.literal (p.supports .booleanLiterals))]
  | .null => [.words "NULL"]
  | .parameter _ => [.words "?"]
  | .function name args => .given name :: Fragment.parens (Fragment.joined ", " (exprsFragments p args))
  | .template text args => Fragment.fillFrom (exprsFragments p args) none text.toList
  | .binary left op right =>
    Fragment.parensIf (left.needsParens op false) (left.fragments p) ++ .words (" " ++ op.sql ++ " ") ::
      Fragment.parensIf (right.needsParens op true) (right.fragments p)
  | .not operand => .words "NOT " :: Fragment.parens (operand.fragments p)
  | .isNull operand negated =>
    Fragment.parensIf operand.isBinary (operand.fragments p) ++
      [.words (if negated then " IS NOT NULL" else " IS NULL")]
  | .inList operand list negated =>
    if list.isEmpty then [.words (if negated then "1 = 1" else "1 = 0")]
    else
      Fragment.parensIf operand.isBinary (operand.fragments p) ++
        .words (if negated then " NOT IN " else " IN ") ::
          Fragment.parens (Fragment.joined ", " (exprsFragments p list))
  | .aggregate function arg => .given function :: Fragment.parens (arg.fragments p)
  | .subquery query => Fragment.parens (query.fragments p .none)
  | .exists query negated =>
    .words (if negated then "NOT EXISTS " else "EXISTS ") :: Fragment.parens (query.fragments p .none)
  | .raw sql => [.given sql]
  | .map binding =>
    [.given (binding.owner.aliasName ++ "." ++ p.identifier .column binding.ownerIdColumn)]

def Join.fragments (p : Profile) : Join → List Fragment
  | ⟨kind, table, on⟩ =>
    .words (" " ++ kind.sql ++ " ") :: .given (table.toSql p) ::
      Fragment.clause " ON " " AND " (conditionsFragments p on)

def OrderItem.fragments (p : Profile) : OrderItem → List Fragment
  | ⟨expr, descending, nulls⟩ =>
    expr.fragments p ++ [.words (if descending then " DESC" else ""),
      .words (if p.supports .nullsOrdering then nulls.elim "" NullsPlacement.clause else "")]

def Select.fragments (p : Profile) (lock : LockStyle) : Select → List Fragment
  | ⟨table, joins, distinct, projection, conditions, groupBy, having, ordering, offset, count, _⟩ =>
    let range := p.rangeClause offset count !ordering.isEmpty
    .words (if distinct then "SELECT DISTINCT " else "SELECT ") ::
      (if projection.isEmpty then [.words "1"] else Fragment.joined ", " (exprsFragments p projection)) ++
      [.words " FROM ", .given (table.toSql p), .words lock.hint] ++ joinsFragments p joins ++
      Fragment.clause " WHERE " " AND " (conditionsFragments p conditions) ++
      Fragment.clause " GROUP BY " ", " (exprsFragments p groupBy) ++
      Fragment.clause " HAVING " " AND " (conditionsFragments p having) ++
      Fragment.clause " ORDER BY " ", " (itemsFragments p ordering) ++
      [.words (if range.isEmpty then "" else " " ++ range)] ++ [.words lock.clause]

def exprsFragments (p : Profile) : List Expr → List (List Fragment)
  | [] => []
  | e :: es => e.fragments p :: exprsFragments p es

def conditionsFragments (p : Profile) : List Expr → List (List Fragment)
  | [] => []
  | e :: es =>
    Fragment.parensIf (e.needsParens .and false) (e.fragments p) :: conditionsFragments p es

def joinsFragments (p : Profile) : List Join → List Fragment
  | [] => []
  | j :: js => j.fragments p ++ joinsFragments p js

def itemsFragments (p : Profile) : List OrderItem → List (List Fragment)
  | [] => []
  | i :: is => i.fragments p :: itemsFragments p is

end

/-- A text is written in stretches with `n` orderings outside of parentheses, all of which are closed. -/
structure Fragment.Renders (fs : List Fragment) (n : Nat) (t : SqlText) : Prop where
  text : spell fs = t.sql
  /-- In front of any other stretches, which are left at the depth at which these begin. -/
  count : ∀ depth rest, orderings depth (fs ++ rest) = (if depth = 0 then n else 0) + orderings depth rest

namespace Fragment.Renders

variable {fs gs : List Fragment} {m n : Nat} {a b t : SqlText}

theorem empty : Renders [] 0 SqlText.empty where
  text := rfl
  count depth rest := by simp

theorem given (s : String) : Renders [.given s] 0 (raw s) where
  text := by simp [spell, Fragment.text, raw]
  count depth rest := by simp [orderings]

/-- Words without parentheses, of which `n` are for sorting. -/
theorem words {s : String} (h : ∀ depth, scan depth s.toList = (depth, if depth = 0 then n else 0)) :
    Renders [.words s] n (raw s) where
  text := by simp [spell, Fragment.text, raw]
  count depth rest := by simp [orderings, h]

theorem quiet {s : String} (h : Quiet s) : Renders [.words s] 0 (raw s) :=
  words fun depth => by simp [scan_quiet h]

theorem placeholder (param : BoundParameter) : Renders [.words "?"] 0 (SqlText.placeholder param) where
  text := rfl
  count := (quiet (s := "?") (by decide)).count

theorem append (hf : Renders fs m a) (hg : Renders gs n b) : Renders (fs ++ gs) (m + n) (a ++ b) where
  text := by rw [spell_append, hf.text, hg.text, append_sql]
  count depth rest := by
    rw [List.append_assoc, hf.count, hg.count]
    split <;> omega

theorem cons {f : Fragment} (hf : Renders [f] m a) (hg : Renders gs n b) :
    Renders (f :: gs) (m + n) (a ++ b) := hf.append hg

theorem parens (h : Renders fs n t) : Renders (Fragment.parens fs) 0 t.parens where
  text := by simp [Fragment.parens, SqlText.parens, spell, spell_append, h.text, Fragment.text, raw,
    String.append_assoc]
  count depth rest := by
    have hinner := h.count (depth + 1) (.words ")" :: rest)
    simp only [orderings] at hinner
    simp [Fragment.parens, orderings, scan, hinner]

theorem parensIf (h : Renders fs 0 t) (b : Bool) : Renders (Fragment.parensIf b fs) 0 (t.parensIf b) := by
  cases b with
  | false => exact h
  | true => exact h.parens

section

variable {fss : List (List Fragment)} {ts : List SqlText}

theorem joined {sep : String} (hsep : Quiet sep) (h : List.Forall₂ (Renders · 0 ·) fss ts) :
    Renders (Fragment.joined sep fss) 0 (SqlText.joined sep ts) := by
  induction h with
  | nil => exact empty
  | cons hfirst hrest ih =>
    cases hrest with
    | nil => exact hfirst
    | cons hsecond hrest =>
      rw [Fragment.joined, SqlText.joined, SqlText.append_assoc]
      · exact hfirst.append ((quiet hsep).cons ih)
      · simp
      · simp

theorem clause (keyword sep : String) (hkeyword : Renders [.words keyword] n (raw keyword))
    (hsep : Quiet sep) (h : List.Forall₂ (Renders · 0 ·) fss ts) :
    Renders (Fragment.clause keyword sep fss) (if fss.isEmpty then 0 else n)
      (SqlText.clause keyword sep ts) := by
  cases h with
  | nil => exact empty
  | cons hfirst hrest => exact hkeyword.cons (joined hsep (.cons hfirst hrest))

theorem slot (h : List.Forall₂ (Renders · 0 ·) fss ts) (inner : List Char) :
    Renders (Fragment.slot fss inner) 0 (Template.slot ts inner) := by
  unfold Fragment.slot Template.slot
  cases Text.readIndex inner with
  | none => exact given _
  | some i =>
    obtain ⟨hlength, hitems⟩ := List.forall₂_iff_get.mp h
    by_cases hi : i < fss.length
    · have hi' : i < ts.length := hlength ▸ hi
      simpa [hi, hi'] using hitems i hi hi'
    · have hi' : ¬i < ts.length := hlength ▸ hi
      simpa [hi, hi'] using given _

theorem fillFrom (h : List.Forall₂ (Renders · 0 ·) fss ts) (inner : Option (List Char)) (cs : List Char) :
    Renders (Fragment.fillFrom fss inner cs) 0 (Template.fillFrom ts inner cs) := by
  induction cs generalizing inner with
  | nil =>
    cases inner with
    | none => exact empty
    | some inner => exact given _
  | cons c cs ih =>
    cases inner with
    | none =>
      rw [Fragment.fillFrom, Template.fillFrom]
      split
      · exact ih (some [])
      · exact (given _).cons (ih none)
    | some inner =>
      rw [Fragment.fillFrom, Template.fillFrom]
      split
      · exact (slot h inner).append (ih none)
      · exact ih (some (inner ++ [c]))

end

end Fragment.Renders

/-! ### Statements -/

section

variable (p : Profile)

theorem LockStyle.hint_renders (lock : LockStyle) : Renders [.words lock.hint] 0 (raw lock.hint) := by
  refine Renders.words fun depth => ?_
  cases lock <;> simp [LockStyle.hint, scan]

/-- The orderings that a range brings with it, where rows have to be sorted and are not. -/
def Profile.rangeOrderings (range : String) (ordered : Bool) : Nat :=
  if p.pagination.requiresOrdering && !ordered && !range.isEmpty then 1 else 0

/-- Where rows have to be sorted and are not, a range begins with an ordering. -/
theorem Profile.rangeClause_unordered {p : Profile} {offset count : Int}
    (h : p.pagination.requiresOrdering = true) (hempty : ¬(p.rangeClause offset count false).isEmpty) :
    ∃ body, Quiet body ∧ p.rangeClause offset count false = "ORDER BY (SELECT NULL) " ++ body := by
  obtain ⟨requireOffset, hstyle⟩ : ∃ requireOffset, p.pagination = .offsetFetch requireOffset true := by
    cases hstyle : p.pagination with
    | offsetFetch requireOffset requireOrdering =>
      rw [hstyle] at h
      exact ⟨requireOffset, congrArg _ h⟩
    | _ =>
      rw [hstyle] at h
      cases h
  by_cases hall : offset ≤ 0 ∧ count ≤ 0
  · simp [rangeClause, PaginationStyle.clause, hall] at hempty
  · refine ⟨PaginationStyle.offsetFetchBody requireOffset offset count,
      PaginationStyle.offsetFetchBody_holds Quiet.append Quiet.int (by decide) requireOffset, ?_⟩
    rw [rangeClause, hstyle, PaginationStyle.clause_offsetFetch (PaginationStyle.given_ofRange hall)]
    rfl

theorem Profile.range_renders (offset count : Int) (ordered : Bool) :
    let range := p.rangeClause offset count ordered
    Renders [.words (if range.isEmpty then "" else " " ++ range)] (p.rangeOrderings range ordered)
      (raw (if range.isEmpty then "" else " " ++ range)) := by
  intro range
  unfold rangeOrderings
  by_cases hempty : range.isEmpty
  · simpa [hempty] using Renders.quiet (s := "") (by decide)
  · by_cases hneeds : p.pagination.requiresOrdering && !ordered
    · obtain ⟨hrequires, rfl⟩ : p.pagination.requiresOrdering = true ∧ ordered = false := by simpa using hneeds
      obtain ⟨body, hbody, hrange⟩ := p.rangeClause_unordered hrequires hempty
      have hscan : ∀ depth, scan depth (" " ++ range).toList = (depth, if depth = 0 then 1 else 0) := by
        intro depth
        simp [range, hrange, scan, scan_quiet hbody]
      simp only [hempty, hneeds]
      exact Renders.words hscan
    · have hquiet : Quiet range := Quiet.rangeClause p (by simpa using hneeds) offset count
      simp only [hempty, hneeds]
      exact Renders.quiet (Quiet.append.mpr ⟨by decide, hquiet⟩)

/-- How often the rows of a statement are sorted. -/
def Select.orderings (s : Select) : Nat :=
  (if s.ordering.isEmpty then 0 else 1) +
    p.rangeOrderings (p.rangeClause s.offset s.count !s.ordering.isEmpty) !s.ordering.isEmpty

mutual

theorem Expr.renders : ∀ e : Expr, Renders (e.fragments p) 0 (e.toSql p)
  | ⟨_, _, table, node⟩ => node.renders table

theorem Node.renders (table : Option TableRef) : ∀ n : Node, Renders (n.fragments p table) 0 (n.toSql p table)
  | .column name => by
    rw [Node.fragments, Node.toSql]
    exact .given _
  | .literal value => by
    rw [Node.fragments, Node.toSql]
    exact .given _
  | .null => by
    rw [Node.fragments, Node.toSql]
    exact .quiet (by decide)
  | .parameter param => by
    rw [Node.fragments, Node.toSql]
    exact .placeholder param
  | .function name args => by
    rw [Node.fragments, Node.toSql]
    exact (Renders.given name).cons (Renders.joined (by decide) (exprs_render args)).parens
  | .template text args => by
    rw [Node.fragments, Node.toSql]
    exact Renders.fillFrom (exprs_render args) none text.toList
  | .binary left op right => by
    have hop : Quiet (" " ++ op.sql ++ " ") := by cases op <;> decide
    rw [Node.fragments, Node.toSql, SqlText.append_assoc]
    exact (left.renders.parensIf _).append ((Renders.quiet hop).cons (right.renders.parensIf _))
  | .not operand => by
    rw [Node.fragments, Node.toSql]
    exact (Renders.quiet (by decide)).cons operand.renders.parens
  | .isNull operand negated => by
    rw [Node.fragments, Node.toSql]
    exact (operand.renders.parensIf _).append (.quiet (by cases negated <;> decide))
  | .inList operand list negated => by
    rw [Node.fragments, Node.toSql]
    split
    · exact .quiet (by cases negated <;> decide)
    · rw [SqlText.append_assoc]
      exact (operand.renders.parensIf _).append ((Renders.quiet (by cases negated <;> decide)).cons
        (Renders.joined (by decide) (exprs_render list)).parens)
  | .aggregate function arg => by
    rw [Node.fragments, Node.toSql]
    exact (Renders.given function).cons arg.renders.parens
  | .subquery query => by
    rw [Node.fragments, Node.toSql]
    exact (query.renders .none).parens
  | .exists query negated => by
    rw [Node.fragments, Node.toSql]
    exact (Renders.quiet (by cases negated <;> decide)).cons (query.renders .none).parens
  | .raw sql => by
    rw [Node.fragments, Node.toSql]
    exact .given _
  | .map binding => by
    rw [Node.fragments, Node.toSql]
    exact .given _

theorem Join.renders : ∀ j : Join, Renders (j.fragments p) 0 (j.toSql p)
  | ⟨kind, table, on⟩ => by
    have hkind : Quiet (" " ++ kind.sql ++ " ") := by cases kind <;> decide
    rw [Join.fragments, Join.toSql, raw_append_raw, SqlText.append_assoc]
    have hon := Renders.clause " ON " " AND " (.quiet (by decide)) (by decide)
      (conditions_render on)
    rw [ite_self] at hon
    exact (Renders.quiet hkind).cons ((Renders.given (table.toSql p)).cons hon)

theorem OrderItem.renders : ∀ i : OrderItem, Renders (i.fragments p) 0 (i.toSql p)
  | ⟨expr, descending, nulls⟩ => by
    have hdescending : Quiet (if descending then " DESC" else "") := by cases descending <;> decide
    have hnulls : Quiet (if p.supports .nullsOrdering then nulls.elim "" NullsPlacement.clause else "") := by
      split
      · cases nulls with
        | none => decide
        | some placement => cases placement <;> decide
      · decide
    rw [OrderItem.fragments, OrderItem.toSql, SqlText.append_assoc]
    exact expr.renders.append ((Renders.quiet hdescending).cons (Renders.quiet hnulls))

theorem Select.renders (lock : LockStyle) :
    ∀ s : Select, Renders (s.fragments p lock) (s.orderings p) (s.toSqlWith p lock)
  | ⟨table, joins, distinct, projection, conditions, groupBy, having, ordering, offset, count, _⟩ => by
    have hselect : Quiet (if distinct then "SELECT DISTINCT " else "SELECT ") := by
      cases distinct <;> decide
    have hcolumns : Renders
        (if projection.isEmpty then [.words "1"] else Fragment.joined ", " (exprsFragments p projection)) 0
        (if projection.isEmpty then raw "1" else SqlText.joined ", " (exprsToSql p projection)) := by
      split
      · exact Renders.quiet (by decide)
      · exact Renders.joined (by decide) (exprs_render projection)
    have hfrom : Renders (.words " FROM " :: .given (table.toSql p) :: [.words lock.hint]) 0
        (raw (" FROM " ++ table.toSql p ++ lock.hint)) := by
      rw [raw_append_raw, raw_append_raw, SqlText.append_assoc]
      exact (Renders.quiet (by decide)).cons ((Renders.given _).cons (lock.hint_renders))
    have hwhere := Renders.clause " WHERE " " AND " (.quiet (by decide)) (by decide)
      (conditions_render conditions)
    have hgroup := Renders.clause " GROUP BY " ", " (n := 0)
      (.words fun depth => by simp [scan]) (by decide) (exprs_render groupBy)
    have hhaving := Renders.clause " HAVING " " AND " (.quiet (by decide)) (by decide)
      (conditions_render having)
    have hordering := Renders.clause " ORDER BY " ", " (n := 1)
      (.words fun depth => by simp [scan]) (by decide) (items_render ordering)
    have hrange := p.range_renders offset count !ordering.isEmpty
    have hlock : Quiet lock.clause := by cases lock <;> decide
    have hitems : (itemsFragments p ordering).isEmpty = ordering.isEmpty := by cases ordering <;> rfl
    rw [ite_self] at hwhere hgroup hhaving
    rw [hitems] at hordering
    have hall := (((((((((Renders.quiet hselect).cons hcolumns).append hfrom).append
      (joins_render joins)).append hwhere).append hgroup).append hhaving).append hordering).append
        hrange).append (Renders.quiet hlock)
    simp only [Nat.zero_add, Nat.add_zero] at hall
    rw [Select.fragments, Select.toSqlWith]
    exact hall

theorem exprs_render : ∀ es : List Expr, List.Forall₂ (Renders · 0 ·) (exprsFragments p es) (exprsToSql p es)
  | [] => .nil
  | e :: es => .cons e.renders (exprs_render es)

theorem conditions_render :
    ∀ es : List Expr, List.Forall₂ (Renders · 0 ·) (conditionsFragments p es) (conditionsToSql p es)
  | [] => .nil
  | e :: es => .cons (e.renders.parensIf _) (conditions_render es)

theorem joins_render : ∀ js : List Join, Renders (joinsFragments p js) 0 (concat (joinsToSql p js))
  | [] => .empty
  | j :: js => j.renders.append (joins_render js)

theorem items_render : ∀ is : List OrderItem, List.Forall₂ (Renders · 0 ·) (itemsFragments p is) (itemsToSql p is)
  | [] => .nil
  | i :: is => .cons i.renders (items_render is)

end

def Profile.lockIf (locked : Bool) : LockStyle := if locked then p.lockStyle else .none

/-- A statement with a range that needs sorted rows sorts them once. -/
theorem Select.orderings_of_range {s : Select} (hrequires : p.pagination.requiresOrdering)
    (hrange : p.rangeClause s.offset s.count s.hasOrdering ≠ "") (lock : LockStyle) :
    Fragment.orderings 0 (s.fragments p lock) = 1 := by
  have hcount : Fragment.orderings 0 (s.fragments p lock) = s.orderings p := by
    simpa [Fragment.orderings] using (s.renders p lock).count 0 []
  rw [hcount, Select.orderings, Profile.rangeOrderings]
  unfold hasOrdering at hrange
  cases hordering : s.ordering.isEmpty with
  | true => simp_all
  | false => simp

end

/-- Clauses are missing only for ranges of all rows and where a style lacks words, and others are read as the
window of their range, so that those of one style tell windows apart. The stretches of a statement spell its
text, and outside of parentheses there is one ordering in it if its range needs one. -/
theorem Profile.ranges_read_and_ordered (p : Profile) :
    (∀ (offset count : Int64) (ordered : Bool),
      (p.rangeClause offset.toInt count.toInt ordered = "" ↔
        (offset.toInt ≤ 0 ∧ count.toInt ≤ 0) ∨ p.pagination.Lacks offset.toInt) ∧
      (p.rangeClause offset.toInt count.toInt ordered ≠ "" →
        p.pagination.read? (p.rangeClause offset.toInt count.toInt ordered) =
          some (.ofRange offset.toInt count.toInt)) ∧
      ∀ (q : Profile) (offset' count' : Int64) (ordered' : Bool), q.pagination = p.pagination →
        p.rangeClause offset.toInt count.toInt ordered ≠ "" →
        q.rangeClause offset'.toInt count'.toInt ordered' = p.rangeClause offset.toInt count.toInt ordered →
        Window.ofRange offset'.toInt count'.toInt = Window.ofRange offset.toInt count.toInt) ∧
    ∀ (s : Select) (locked : Bool),
      spell (s.fragments p (p.lockIf locked)) = (s.toSql p locked).sql ∧
        (p.pagination.requiresOrdering → p.rangeClause s.offset s.count s.hasOrdering ≠ "" →
          Fragment.orderings 0 (s.fragments p (p.lockIf locked)) = 1) := by
  refine ⟨fun offset count ordered => ⟨?_, ?_, ?_⟩, fun s locked => ⟨?_, ?_⟩⟩
  · exact rangeClause_eq_empty_iff count.toInt_lt
  · exact read?_of_ne_empty count.toInt_lt
  · intro q offset' count' ordered' hstyle hne hclause
    have hread := read?_of_ne_empty count.toInt_lt hne
    have hread' := read?_of_ne_empty count'.toInt_lt (hclause ▸ hne)
    rw [hstyle, hclause, hread] at hread'
    exact (Option.some.inj hread').symm
  · exact (s.renders p _).text
  · exact fun hrequires hrange => s.orderings_of_range p hrequires hrange _

def orderPage : Select := (Select.ofName "ORDERS").setRange 5 10

/-- A page of orders on a product whose style needs sorted rows. -/
theorem Profile.ranges_read_and_ordered_orders :
    let p := Profile.ofVendor .sqlserver Vendor.sqlserver.defaultVersion
    p.pagination.read? (p.rangeClause 5 10 false) = some ⟨5, some 10⟩ ∧
      Fragment.orderings 0 (orderPage.fragments p .none) = 1 := by
  intro p
  have hstyle : p.pagination = .offsetFetch true true := by decide
  have hrange : p.rangeClause 5 10 false ≠ "" := by
    simp [rangeClause, hstyle, PaginationStyle.clause]
  obtain ⟨hranges, hordered⟩ := p.ranges_read_and_ordered
  exact ⟨(hranges 5 10 false).2.1 hrange, (hordered orderPage false).2 (by rw [hstyle]; rfl) hrange⟩

end ObjectSql
