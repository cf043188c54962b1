import ObjectSql.Expr.Method
import ObjectSql.Proofs.Statement.Layout
import ObjectSql.Proofs.Statement.Quoting
import ObjectSql.Proofs.Statement.Text

/-!
# Placeholders of rendered statements

A text with its parameters is counted right if scanning it ends outside quotes and finds as many
placeholders as there are parameters. Every part of a statement is, so long as each name in it is
scanned as a whole stretch. A name that is not spoils the count of some statement, which makes the
condition on names exact.
-/
namespace ObjectSql

open Text SqlText

namespace SqlText

/-- Scanning the text finds its parameters and ends outside quotes. -/
def Counted (t : SqlText) : Prop := Scans t.sql.toList t.params.length

namespace Counted

theorem count {t : SqlText} (h : t.Counted) : t.placeholderCount = t.params.length := Scans.count h

theorem raw {s : String} (h : Scans s.toList 0) : (SqlText.raw s).Counted := h

theorem neutral {s : String} (h : Neutral s) : (SqlText.raw s).Counted := raw (Scans.neutral h)

theorem empty : SqlText.empty.Counted := neutral (s := "") (by decide)

theorem placeholder (p : BoundParameter) : (SqlText.placeholder p).Counted := by
  have hscan : Scans "?".toList 1 := ⟨by decide, by decide⟩
  exact hscan

theorem append {a b : SqlText} (ha : a.Counted) (hb : b.Counted) : (a ++ b).Counted := by
  simpa [Counted] using Scans.append ha hb

theorem raw_append {s t : String} (hs : (SqlText.raw s).Counted) (ht : (SqlText.raw t).Counted) :
    (SqlText.raw (s ++ t)).Counted := by
  rw [raw_append_raw]
  exact hs.append ht

theorem parens {t : SqlText} (h : t.Counted) : t.parens.Counted :=
  ((neutral (by decide)).append h).append (neutral (by decide))

theorem parensIf {t : SqlText} (h : t.Counted) (b : Bool) : (t.parensIf b).Counted := by
  unfold SqlText.parensIf
  split
  · exact h.parens
  · exact h

theorem concat {ts : List SqlText} (h : ∀ t ∈ ts, t.Counted) : (SqlText.concat ts).Counted := by
  induction ts with
  | nil => exact empty
  | cons t ts ih =>
    exact (h t (by simp)).append (ih fun t ht => h t (by simp [ht]))

theorem joined {sep : String} (hsep : Neutral sep) {ts : List SqlText} (h : ∀ t ∈ ts, t.Counted) :
    (SqlText.joined sep ts).Counted := by
  fun_induction SqlText.joined sep ts with
  | case1 => exact empty
  | case2 t => exact h t (by simp)
  | case3 t ts _ ih =>
    exact ((h t (by simp)).append (neutral hsep)).append (ih fun t ht => h t (by simp [ht]))

theorem clause {keyword sep : String} (hkeyword : Neutral keyword) (hsep : Neutral sep)
    {ts : List SqlText} (h : ∀ t ∈ ts, t.Counted) : (SqlText.clause keyword sep ts).Counted := by
  unfold SqlText.clause
  split
  · exact empty
  · exact (neutral hkeyword).append (joined hsep h)

end Counted

end SqlText

/-! ## Templates -/

namespace Template

/-- Whether a template that begins inside the given quote, or in a slot, has its slots outside
quotes, no placeholder of its own and no quote open at its end. -/
def isQuiet : (quote : Option Char) → (inSlot : Bool) → List Char → Bool
  | q, false, [] => q.isNone
  | _, true, [] => false
  | q, false, c :: cs =>
    if c = '\x7b' then q.isNone && isQuiet none true cs
    else (q.isSome || c != '?') && isQuiet (quoteAfter q [c]) false cs
  | _, true, c :: cs =>
    if c = '\x7d' then isQuiet none false cs else isNeutral c && isQuiet none true cs

variable {args : List SqlText}

theorem slot_counted (hargs : ∀ t ∈ args, t.Counted) {inner : List Char}
    (h : inner.all isNeutral) : (slot args inner).Counted := by
  unfold slot
  split
  · next arg harg =>
    obtain ⟨i, -, hi⟩ := Option.bind_eq_some_iff.mp harg
    exact hargs arg (List.mem_of_getElem? hi)
  · exact Counted.neutral (by simp [Neutral, h]; decide)

theorem fillFrom_counted (hargs : ∀ t ∈ args, t.Counted) (cs : List Char) :
    (∀ q, isQuiet q false cs → quoteAfter q (fillFrom args none cs).sql.toList = none ∧
      countPlaceholders q (fillFrom args none cs).sql.toList =
        (fillFrom args none cs).params.length) ∧
    ∀ inner, inner.all isNeutral → isQuiet none true cs → (fillFrom args (some inner) cs).Counted := by
  induction cs with
  | nil =>
    refine ⟨fun q hq => ?_, fun inner _ h => by simp [isQuiet] at h⟩
    obtain rfl : q = none := by simpa [isQuiet] using hq
    exact ⟨Counted.empty.closed, Counted.empty.count⟩
  | cons c cs ih =>
    obtain ⟨outside, inSlot⟩ := ih
    constructor
    · intro q h
      by_cases hc : c = '\x7b'
      · obtain ⟨hq, h⟩ : q = none ∧ isQuiet none true cs := by simpa [isQuiet, hc] using h
        have hrest := inSlot [] rfl h
        rw [fillFrom, if_pos hc, hq]
        exact ⟨hrest.closed, hrest.count⟩
      · obtain ⟨hmark, h⟩ : (q.isSome ∨ c ≠ '?') ∧ isQuiet (quoteAfter q [c]) false cs := by
          simpa [isQuiet, hc] using h
        obtain ⟨hclosed, hcount⟩ := outside _ h
        have hc' : countPlaceholders q [c] = 0 := by
          cases q <;> simp_all [countPlaceholders]
        have hsql : (fillFrom args none (c :: cs)).sql.toList =
            [c] ++ (fillFrom args none cs).sql.toList := by
          simp [fillFrom, hc, SqlText.raw]
        have hparams : (fillFrom args none (c :: cs)).params = (fillFrom args none cs).params := by
          simp [fillFrom, hc, SqlText.raw]
        rw [hsql, hparams, quoteAfter_append, countPlaceholders_append, hc', Nat.zero_add]
        exact ⟨hclosed, hcount⟩
    · intro inner hinner h
      by_cases hc : c = '\x7d'
      · have h : isQuiet none false cs := by simpa [isQuiet, hc] using h
        have hrest : (fillFrom args none cs).Counted := ⟨(outside _ h).1, (outside _ h).2⟩
        simpa [fillFrom, hc] using (slot_counted hargs hinner).append hrest
      · obtain ⟨hn, h⟩ : isNeutral c ∧ isQuiet none true cs := by simpa [isQuiet, hc] using h
        simpa [fillFrom, hc] using inSlot (inner ++ [c]) (by simp_all) h

theorem fill_counted (hargs : ∀ t ∈ args, t.Counted) {text : String}
    (h : isQuiet none false text.toList) : (fill text args).Counted :=
  ⟨((fillFrom_counted hargs text.toList).1 none h).1, ((fillFrom_counted hargs text.toList).1 none h).2⟩

end Template

def Method.templates : Method → List (Option String)
  | .template _ templates _ _ => templates
  | _ => []

/-- The templates of the methods and operations of some product. -/
def Template.IsRegistered (text : String) : Prop :=
  ∃ v, (∃ e ∈ MethodEntry.ofVendor v ++ MethodEntry.base, some text ∈ e.method.templates) ∨
    ∃ o ∈ Operation.ofVendor v ++ Operation.base, o.template = text

theorem Template.IsRegistered.quiet {text : String} (h : IsRegistered text) :
    isQuiet none false text.toList := by
  have hmethods : ∀ e ∈ MethodEntry.base,
      e.method.templates.all fun t => t.all fun text => isQuiet none false text.toList := by
    decide
  have hmethodsOf (v : Vendor) : ∀ e ∈ MethodEntry.ofVendor v,
      e.method.templates.all fun t => t.all fun text => isQuiet none false text.toList := by
    cases v <;> decide
  have hoperations : ∀ o ∈ Operation.base, isQuiet none false o.template.toList := by decide
  have hoperationsOf (v : Vendor) : ∀ o ∈ Operation.ofVendor v,
      isQuiet none false o.template.toList := by
    cases v <;> decide
  obtain ⟨v, ⟨e, he, htext⟩ | ⟨o, ho, rfl⟩⟩ := h
  · have hquiet := List.forall_mem_append.mpr ⟨hmethodsOf v, hmethods⟩ e he
    exact List.all_eq_true.mp hquiet (some text) htext
  · exact List.forall_mem_append.mpr ⟨hoperationsOf v, hoperations⟩ o ho

/-! ## Statements over a vocabulary -/

section

variable (names : String → Prop)

mutual

/-- An expression over names of tables and columns. Aliases and functions have neutral names,
templates are registered, and the one verbatim text is the number of entries of a map. -/
def Expr.Over : Expr → Prop
  | ⟨_, _, table, node⟩ => node.Over table

def Node.Over (table : Option TableRef) : Node → Prop
  | .column name => names name ∧ ∀ t, table = some t → Neutral t.aliasName
  | .literal _ | .null | .parameter _ => True
  | .function name args => Neutral name ∧ exprsOver args
  | .template text args => Template.IsRegistered text ∧ exprsOver args
  | .binary left _ right => left.Over ∧ right.Over
  | .not operand | .isNull operand _ => operand.Over
  | .inList operand list _ => operand.Over ∧ exprsOver list
  | .aggregate function arg => Neutral function ∧ arg.Over
  | .subquery query | .exists query _ => query.Over
  | .raw sql => sql = "COUNT(*)"
  | .map binding => names binding.ownerIdColumn ∧ Neutral binding.owner.aliasName

def Join.Over : Join → Prop
  | ⟨_, table, on⟩ => names table.name ∧ Neutral table.aliasName ∧ exprsOver on

def OrderItem.Over : OrderItem → Prop
  | ⟨expr, _, _⟩ => expr.Over

def Select.Over : Select → Prop
  | ⟨table, joins, _, projection, conditions, groupBy, having, ordering, _, _, _⟩ =>
    names table.name ∧ Neutral table.aliasName ∧ joinsOver joins ∧ exprsOver projection ∧
      exprsOver conditions ∧ exprsOver groupBy ∧ exprsOver having ∧ itemsOver ordering

def exprsOver : List Expr → Prop
  | [] => True
  | e :: es => e.Over ∧ exprsOver es

def joinsOver : List Join → Prop
  | [] => True
  | j :: js => j.Over ∧ joinsOver js

def itemsOver : List OrderItem → Prop
  | [] => True
  | i :: is => i.Over ∧ itemsOver is

end

end

section

variable {p : Profile} {names : String → Prop}

theorem identifier_counted (hp : ∀ name, names name → p.ScansName name) {name : String}
    (h : names name) (kind : IdentifierKind) : (SqlText.raw (p.identifier kind name)).Counted :=
  Counted.raw ((scans_identifier_iff p kind name).mpr (hp name h))

theorem tableRef_counted (hp : ∀ name, names name → p.ScansName name) {t : TableRef}
    (hname : names t.name) (halias : Neutral t.aliasName) :
    (SqlText.raw (t.toSql p)).Counted :=
  ((identifier_counted hp hname .table).raw_append (Counted.neutral (by decide))).raw_append
    (Counted.neutral halias)

mutual

theorem Expr.toSql_counted (hp : ∀ name, names name → p.ScansName name) :
    ∀ e : Expr, e.Over names → (e.toSql p).Counted
  | ⟨_, _, table, node⟩, h => node.toSql_counted hp table h

theorem Node.toSql_counted (hp : ∀ name, names name → p.ScansName name)
    (table : Option TableRef) : ∀ n : Node, n.Over names table → (n.toSql p table).Counted
  | .column name, h => by
    rw [Node.toSql]
    obtain ⟨hname, halias⟩ := h
    have hqualifier : Neutral (table.elim "" fun t => t.aliasName ++ ".") := by
      cases table with
      | none => decide
      | some t => exact Neutral.append.mpr ⟨halias t rfl, by decide⟩
    exact (Counted.neutral hqualifier).raw_append (identifier_counted hp hname .column)
  | .literal value, _ => by
    rw [Node.toSql]
    exact Counted.raw (Scans.literal _ value)
  | .null, _ => by
    rw [Node.toSql]
    exact Counted.neutral (by decide)
  | .parameter param, _ => by
    rw [Node.toSql]
    exact Counted.placeholder param
  | .function name args, h => by
    rw [Node.toSql]
    exact (Counted.neutral h.1).append
      (Counted.joined (by decide) (exprsToSql_counted hp args h.2)).parens
  | .template text args, h => by
    rw [Node.toSql]
    exact Template.fill_counted (exprsToSql_counted hp args h.2) h.1.quiet
  | .binary left op right, h => by
    have hop : Neutral (" " ++ op.sql ++ " ") := by cases op <;> decide
    rw [Node.toSql]
    exact (((left.toSql_counted hp h.1).parensIf _).append (Counted.neutral hop)).append
      ((right.toSql_counted hp h.2).parensIf _)
  | .not operand, h => by
    rw [Node.toSql]
    exact (Counted.neutral (by decide)).append (operand.toSql_counted hp h).parens
  | .isNull operand negated, h => by
    rw [Node.toSql]
    exact ((operand.toSql_counted hp h).parensIf _).append
      (Counted.neutral (by cases negated <;> decide))
  | .inList operand list negated, h => by
    rw [Node.toSql]
    split
    · exact Counted.neutral (by cases negated <;> decide)
    · exact (((operand.toSql_counted hp h.1).parensIf _).append
        (Counted.neutral (by cases negated <;> decide))).append
          (Counted.joined (by decide) (exprsToSql_counted hp list h.2)).parens
  | .aggregate function arg, h => by
    rw [Node.toSql]
    exact (Counted.neutral h.1).append (arg.toSql_counted hp h.2).parens
  | .subquery query, h => by
    rw [Node.toSql]
    exact (query.toSqlWith_counted hp .none h).parens
  | .exists query negated, h => by
    rw [Node.toSql]
    exact (Counted.neutral (by cases negated <;> decide)).append
      (query.toSqlWith_counted hp .none h).parens
  | .raw sql, h => by
    rw [Node.toSql, show sql = "COUNT(*)" from h]
    exact Counted.neutral (by decide)
  | .map binding, h => by
    rw [Node.toSql]
    exact ((Counted.neutral h.2).raw_append (Counted.neutral (by decide))).raw_append
      (identifier_counted hp h.1 .column)

theorem Join.toSql_counted (hp : ∀ name, names name → p.ScansName name) :
    ∀ j : Join, j.Over names → (j.toSql p).Counted
  | ⟨kind, table, on⟩, ⟨hname, halias, hon⟩ => by
    have hkind : Neutral (" " ++ kind.sql ++ " ") := by cases kind <;> decide
    exact ((Counted.neutral hkind).raw_append (tableRef_counted hp hname halias)).append
      (Counted.clause (by decide) (by decide) (conditionsToSql_counted hp on hon))

theorem OrderItem.toSql_counted (hp : ∀ name, names name → p.ScansName name) :
    ∀ i : OrderItem, i.Over names → (i.toSql p).Counted
  | ⟨expr, descending, nulls⟩, h => by
    have hnulls : Neutral (nulls.elim "" NullsPlacement.clause) := by
      cases nulls with
      | none => decide
      | some placement => cases placement <;> decide
    refine ((expr.toSql_counted hp h).append (Counted.neutral ?_)).append (Counted.neutral ?_)
    · cases descending <;> decide
    · split
      · exact hnulls
      · decide

theorem Select.toSqlWith_counted (hp : ∀ name, names name → p.ScansName name)
    (lock : LockStyle) : ∀ s : Select, s.Over names → (s.toSqlWith p lock).Counted
  | ⟨table, joins, distinct, projection, conditions, groupBy, having, ordering, offset, count, _⟩,
    ⟨hname, halias, hjoins, hprojection, hconditions, hgroupBy, hhaving, hordering⟩ => by
    have hselect : Neutral (if distinct then "SELECT DISTINCT " else "SELECT ") := by
      cases distinct <;> decide
    have hcolumns : (if projection.isEmpty then SqlText.raw "1"
        else SqlText.joined ", " (exprsToSql p projection)).Counted := by
      split
      · exact Counted.neutral (by decide)
      · exact Counted.joined (by decide) (exprsToSql_counted hp projection hprojection)
    have hhint : Neutral lock.hint := by cases lock <;> decide
    have hfrom : (SqlText.raw (" FROM " ++ table.toSql p ++ lock.hint)).Counted :=
      ((Counted.neutral (by decide)).raw_append (tableRef_counted hp hname halias)).raw_append
        (Counted.neutral hhint)
    have hrange : Neutral (if (p.rangeClause offset count !ordering.isEmpty).isEmpty then ""
        else " " ++ p.rangeClause offset count !ordering.isEmpty) := by
      split
      · decide
      · exact Neutral.append.mpr ⟨by decide, Neutral.rangeClause p offset count _⟩
    have hlock : Neutral lock.clause := by cases lock <;> decide
    exact (((((((((Counted.neutral hselect).append hcolumns).append hfrom).append
      (Counted.concat (joinsToSql_counted hp joins hjoins))).append
      (Counted.clause (by decide) (by decide) (conditionsToSql_counted hp conditions hconditions))).append
      (Counted.clause (by decide) (by decide) (exprsToSql_counted hp groupBy hgroupBy))).append
      (Counted.clause (by decide) (by decide) (conditionsToSql_counted hp having hhaving))).append
      (Counted.clause (by decide) (by decide) (itemsToSql_counted hp ordering hordering))).append
      (Counted.neutral hrange)).append (Counted.neutral hlock)

theorem exprsToSql_counted (hp : ∀ name, names name → p.ScansName name) :
    ∀ es : List Expr, exprsOver names es → ∀ t ∈ exprsToSql p es, t.Counted
  | [], _, t, ht => by cases ht
  | e :: es, ⟨he, hes⟩, t, ht => by
    rcases List.mem_cons.mp ht with rfl | ht
    · exact e.toSql_counted hp he
    · exact exprsToSql_counted hp es hes t ht

theorem conditionsToSql_counted (hp : ∀ name, names name → p.ScansName name) :
    ∀ es : List Expr, exprsOver names es → ∀ t ∈ conditionsToSql p es, t.Counted
  | [], _, t, ht => by cases ht
  | e :: es, ⟨he, hes⟩, t, ht => by
    rcases List.mem_cons.mp ht with rfl | ht
    · exact (e.toSql_counted hp he).parensIf _
    · exact conditionsToSql_counted hp es hes t ht

theorem joinsToSql_counted (hp : ∀ name, names name → p.ScansName name) :
    ∀ js : List Join, joinsOver names js → ∀ t ∈ joinsToSql p js, t.Counted
  | [], _, t, ht => by cases ht
  | j :: js, ⟨hj, hjs⟩, t, ht => by
    rcases List.mem_cons.mp ht with rfl | ht
    · exact j.toSql_counted hp hj
    · exact joinsToSql_counted hp js hjs t ht

theorem itemsToSql_counted (hp : ∀ name, names name → p.ScansName name) :
    ∀ is : List OrderItem, itemsOver names is → ∀ t ∈ itemsToSql p is, t.Counted
  | [], _, t, ht => by cases ht
  | i :: is, ⟨hi, his⟩, t, ht => by
    rcases List.mem_cons.mp ht with rfl | ht
    · exact i.toSql_counted hp hi
    · exact itemsToSql_counted hp is his t ht

end

end

/-! ## The condition on names -/

/-- A quote that is open after a text has been opened in it. -/
theorem SqlText.quoteAfter_opened {cs : List Char} {inside : Option Char} {q : Char}
    (hinside : ∀ d, inside = some d → ∃ c, closingQuote? c = some d)
    (h : quoteAfter inside cs = some q) : ∃ c, closingQuote? c = some q := by
  induction cs generalizing inside with
  | nil => exact hinside q (by simpa using h)
  | cons c cs ih =>
    cases inside with
    | none => exact ih (fun d hd => ⟨c, hd⟩) h
    | some d =>
      refine ih (fun e he => hinside e ?_) h
      split at he
      · cases he
      · exact he

namespace Select

def rowsOf (name : String) : Select := fromTable ⟨name, "A0"⟩

def rowsWhere (name : String) (param : BoundParameter) : Select :=
  (rowsOf name).addCondition (Expr.ofType "bool" (.parameter param))

theorem rowsOf_toSql (p : Profile) (name : String) :
    ((rowsOf name).toSql p false).sql.toList =
        "SELECT 1 FROM ".toList ++ ((p.identifier .table name).toList ++ " A0".toList) ∧
      ((rowsOf name).toSql p false).params = [] := by
  simp [rowsOf, fromTable, toSql, toSqlWith, joinsToSql, conditionsToSql, exprsToSql, itemsToSql,
    clause, concat, SqlText.raw, SqlText.empty, LockStyle.hint, LockStyle.clause,
    Profile.rangeClause, PaginationStyle.clause, TableRef.toSql]

theorem rowsWhere_toSql (p : Profile) (name : String) (param : BoundParameter) :
    ((rowsWhere name param).toSql p false).sql.toList =
        "SELECT 1 FROM ".toList ++ ((p.identifier .table name).toList ++ " A0 WHERE ?".toList) ∧
      ((rowsWhere name param).toSql p false).params = [param] := by
  simp [rowsWhere, addCondition, rowsOf, fromTable, Expr.ofType, Expr.typed, Expr.needsParens,
    Expr.toSql, Node.toSql, toSql, toSqlWith, joinsToSql, conditionsToSql, exprsToSql, itemsToSql,
    clause, concat, SqlText.joined, parensIf, placeholder, SqlText.raw, SqlText.empty, LockStyle.hint,
    LockStyle.clause, Profile.rangeClause, PaginationStyle.clause, TableRef.toSql]

end Select

/-- A name that spoils no count is scanned as a whole stretch: otherwise it leaves a placeholder to
count where there is no parameter, or a quote open that hides the placeholder of a condition. -/
theorem scansName_of_counts {p : Profile} {name : String} (param : BoundParameter)
    (hrows : ((Select.rowsOf name).toSql p false).placeholderCount =
      ((Select.rowsOf name).toSql p false).params.length)
    (hwhere : ((Select.rowsWhere name param).toSql p false).placeholderCount =
      ((Select.rowsWhere name param).toSql p false).params.length) : p.ScansName name := by
  obtain ⟨hrowsSql, hrowsParams⟩ := Select.rowsOf_toSql p name
  obtain ⟨hwhereSql, hwhereParams⟩ := Select.rowsWhere_toSql p name param
  have hselect : Scans "SELECT 1 FROM ".toList 0 := Scans.neutral (by decide)
  rw [SqlText.placeholderCount, hrowsSql, hrowsParams, countPlaceholders_append, hselect.count,
    hselect.closed, countPlaceholders_append] at hrows
  rw [SqlText.placeholderCount, hwhereSql, hwhereParams, countPlaceholders_append, hselect.count,
    hselect.closed, countPlaceholders_append] at hwhere
  have hcount : countPlaceholders none (p.identifier .table name).toList = 0 := by
    simp only [List.length_nil] at hrows
    omega
  rw [← scans_identifier_iff p .table name]
  refine ⟨?_, hcount⟩
  cases hopen : quoteAfter none (p.identifier .table name).toList with
  | none => rfl
  | some q =>
    obtain ⟨c, hc⟩ := quoteAfter_opened (by simp) hopen
    have houtside : q ∉ " A0 WHERE ?".toList := by
      unfold closingQuote? at hc
      split at hc <;> cases hc <;> decide
    rw [hopen, hcount, (scan_inside houtside).2] at hwhere
    simp at hwhere

/-- Every statement over the names has as many placeholders as parameters, and a layout that notes
the parameters is as wide, exactly if every name is scanned as a whole stretch. -/
theorem placeholderCount_toSql_iff (p : Profile) (names : String → Prop) :
    (∀ s : Select, s.Over names → ∀ locked,
      (s.toSql p locked).placeholderCount = (s.toSql p locked).params.length ∧
        (s.toSql p locked).placeholderCount =
          (Layout.empty.recordParameters (s.toSql p locked).params).paramWidth) ↔
      ∀ name, names name → p.ScansName name := by
  constructor
  · intro hcounts name hname
    have halias : Neutral "A0" := by decide
    refine scansName_of_counts (.deferred .version 0)
      (hcounts (Select.rowsOf name) ?_ false).1 (hcounts (Select.rowsWhere name _) ?_ false).1
    · exact ⟨hname, halias, trivial, trivial, trivial, trivial, trivial, trivial⟩
    · exact ⟨hname, halias, trivial, trivial, ⟨trivial, trivial⟩, trivial, trivial, trivial⟩
  · intro hnames s hs locked
    have hcount := (s.toSqlWith_counted hnames (if locked then p.lockStyle else .none) hs).count
    refine ⟨hcount, ?_⟩
    rw [Layout.recordParameters_width]
    exact hcount

/-- The doubled closing bracket of a name ends its quotes for the scanner, and a question mark
behind it is counted. -/
theorem placeholderCount_bracketed_name :
    let p := Profile.ofVendor .sqlserver ⟨16, 0, 0⟩
    let s := { Select.rowsOf "T" with projection := [Expr.column ⟨"T", "A0"⟩ "a]?b" "string"] }
    s.Over (fun name => name = "T" ∨ name = "a]?b") ∧
      (s.toSql p false).sql = "SELECT A0.[a]]?b] FROM T A0" ∧
      (s.toSql p false).placeholderCount = 1 ∧ (s.toSql p false).params.length = 0 := by
  intro p s
  refine ⟨?_, ?_, ?_, ?_⟩
  · exact ⟨.inl rfl, by decide, trivial, ⟨⟨.inr rfl, by rintro t ⟨rfl⟩; decide⟩, trivial⟩, trivial,
      trivial, trivial, trivial⟩
  · decide +kernel
  · decide +kernel
  · decide +kernel

end ObjectSql
