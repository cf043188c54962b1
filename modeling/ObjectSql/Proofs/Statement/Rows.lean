import Mathlib.Data.List.Pairwise
import Mathlib.Logic.Function.Basic
import ObjectSql.Expr.Basic

/-!
# Rows of a statement

A datastore holds the rows of each table and compares values. Statements are read as nested loops:
every row of the primary table is extended by the rows of the joined tables in their order, the
conditions are tested and the projection is taken. Comparisons with `NULL` are unknown, and a
condition keeps a row only if it is true.
-/
namespace ObjectSql

/-- The values of a row by column. -/
abbrev Row := String → Value

/-- The rows at hand by alias. -/
abbrev RowScope := String → Row

namespace Row

def null : Row := fun _ => .null

end Row

structure Datastore where
  rows : (table : String) → List Row
  /-- Whether two values that are not null are equal. -/
  equal : Value → Value → Bool
  equal_symm : ∀ {v w}, equal v w → equal w v
  equal_trans : ∀ {u v w}, equal u v → equal v w → equal u w
  /-- What the product computes for other nodes than those interpreted here. -/
  compute : (BoundParameter → Value) → RowScope → Node → Value
  /-- Other conditions than those interpreted here. -/
  test : (BoundParameter → Value) → RowScope → Node → Option Bool

namespace Datastore

variable (db : Datastore)

/-! ## Comparing -/

/-- Equality of values, which is unknown if one of them is null. -/
def compare (v w : Value) : Option Bool :=
  if v.isNull || w.isNull then none else some (db.equal v w)

/-- Whether a value is among others; unknown if it may be equal to a null. -/
def isAmong (v : Value) (ws : List Value) : Option Bool :=
  if ws.any fun w => db.compare v w = some true then some true
  else if ws.any fun w => db.compare v w = none then none
  else some false

theorem compare_symm {v w : Value} (h : db.compare v w = some true) :
    db.compare w v = some true := by
  unfold compare at *
  split at h
  · cases h
  · next hnull =>
    rw [if_neg (by simpa [and_comm] using hnull)]
    exact congrArg some (db.equal_symm (by simpa using h))

theorem compare_trans {u v w : Value} (huv : db.compare u v = some true)
    (hvw : db.compare v w = some true) : db.compare u w = some true := by
  unfold compare at *
  split at huv
  · cases huv
  · split at hvw
    · cases hvw
    · rw [if_neg (by simp_all)]
      exact congrArg some (db.equal_trans (by simpa using huv) (by simpa using hvw))

theorem isAmong_eq_true {v : Value} {ws : List Value} :
    db.isAmong v ws = some true ↔ ∃ w ∈ ws, db.compare v w = some true := by
  unfold isAmong
  split
  · simp_all
  · split <;> simp_all

/-! ## Evaluating -/

section

variable (val : BoundParameter → Value)

def value (env : RowScope) (e : Expr) : Value :=
  match e.node with
  | .column name => e.table.elim .null fun t => env t.aliasName name
  | .literal v => v
  | .null => .null
  | .parameter p => val p
  | node => db.compute val env node

def truth (env : RowScope) (e : Expr) : Option Bool :=
  match e.node with
  | .binary left .eq right => db.compare (db.value val env left) (db.value val env right)
  | .inList operand list false =>
    db.isAmong (db.value val env operand) (list.map (db.value val env))
  | node => db.test val env node

def holds (env : RowScope) (conditions : List Expr) : Bool :=
  conditions.all fun e => db.truth val env e = some true

def matching (j : Join) (env : RowScope) : List Row :=
  (db.rows j.table.name).filter fun row =>
    db.holds val (Function.update env j.table.aliasName row) j.on

/-- Extends rows by those of a joined table; an outer join keeps them without one. -/
def extend (j : Join) (env : RowScope) : List RowScope :=
  let rows := db.matching val j env
  let rows :=
    match j.kind with
    | .inner => rows
    | .leftOuter => if rows.isEmpty then [Row.null] else rows
  rows.map (Function.update env j.table.aliasName)

def extendAll : List Join → RowScope → List RowScope
  | [], env => [env]
  | j :: js, env => (db.extend val j env).flatMap (extendAll js)

def scopeOf (table : TableRef) (row : Row) : RowScope :=
  Function.update (fun _ => Row.null) table.aliasName row

/-- The result rows of a statement without grouping, ordering and range. -/
def result (s : Select) : List (List Value) :=
  let scopes := (db.rows s.table.name).flatMap fun row =>
    db.extendAll val s.joins (scopeOf s.table row)
  (scopes.filter fun env => db.holds val env s.conditions).map fun env =>
    s.projection.map (db.value val env)

theorem extendAll_append (js ks : List Join) (env : RowScope) :
    db.extendAll val (js ++ ks) env =
      (db.extendAll val js env).flatMap (db.extendAll val ks) := by
  induction js generalizing env with
  | nil => simp [extendAll]
  | cons j js ih =>
    have hjs := funext ih
    simp [extendAll, hjs, List.flatMap_assoc]

theorem extendAll_snoc (js : List Join) (j : Join) (env : RowScope) :
    db.extendAll val (js ++ [j]) env =
      (db.extendAll val js env).flatMap (db.extend val j) := by
  rw [extendAll_append]
  congr 1
  funext env
  simp [extendAll]

variable {db val} in
/-- A join changes the row of its own alias only. -/
theorem extend_other {j : Join} {env env' : RowScope} (h : env' ∈ db.extend val j env) {a : String}
    (ha : a ≠ j.table.aliasName) : env' a = env a := by
  obtain ⟨row, -, rfl⟩ := List.mem_map.mp h
  exact Function.update_of_ne ha row env

theorem holds_append (env : RowScope) (es fs : List Expr) :
    db.holds val env (es ++ fs) ↔ db.holds val env es ∧ db.holds val env fs := by
  simp [holds]

end

end Datastore

namespace Datastore

variable (db : Datastore)

def Agree (columns : List String) (row row' : Row) : Prop :=
  ∀ c ∈ columns, db.compare (row c) (row' c) = some true

def Unique (table : String) (columns : List String) : Prop :=
  (db.rows table).Pairwise fun row row' => ¬db.Agree columns row row'

def HasIdentity (columns : List String) (values : List Value) (row : Row) : Prop :=
  List.Forall₂ (fun c v => db.compare (row c) v = some true) columns values

variable {db} {columns : List String} {values : List Value} {row row' : Row} {table : String}

theorem Agree.symm (h : db.Agree columns row row') : db.Agree columns row' row :=
  fun c hc => db.compare_symm (h c hc)

theorem HasIdentity.agree (h : db.HasIdentity columns values row)
    (h' : db.HasIdentity columns values row') : db.Agree columns row row' := by
  induction h with
  | nil => intro c hc; cases hc
  | cons hc _ ih =>
    cases h' with
    | cons hc' htail =>
      intro c hmem
      rcases List.mem_cons.mp hmem with rfl | hmem
      · exact db.compare_trans hc (db.compare_symm hc')
      · exact ih htail c hmem

theorem Agree.hasIdentity (h : db.Agree columns row row')
    (hrow : db.HasIdentity columns values row) : db.HasIdentity columns values row' := by
  induction hrow with
  | nil => exact .nil
  | cons hc _ ih =>
    have htail := ih fun c hc => h c (List.mem_cons_of_mem _ hc)
    exact .cons (db.compare_trans (db.compare_symm (h _ List.mem_cons_self)) hc) htail

/-- Of the rows that agree with each other a table with unique columns has one at most. -/
theorem Unique.filter_eq (h : db.Unique table columns) {p : Row → Bool}
    (hp : ∀ row row', p row → p row' → db.Agree columns row row') :
    (db.rows table).filter p = [] ∨ ∃ row, (db.rows table).filter p = [row] := by
  have hpairs := h.filter p
  match hrows : (db.rows table).filter p with
  | [] => exact .inl rfl
  | [row] => exact .inr ⟨row, rfl⟩
  | row :: row' :: rest =>
    have hmem : ∀ x ∈ row :: row' :: rest, p x := fun x hx =>
      (List.mem_filter.mp (hrows ▸ hx)).2
    rw [hrows] at hpairs
    have hne := (List.pairwise_cons.mp hpairs).1 row' List.mem_cons_self
    exact absurd (hp row row' (hmem _ List.mem_cons_self) (hmem _ (by simp))) hne

end Datastore

end ObjectSql
