import Mathlib.Data.List.Nodup
import ObjectSql.Proofs.Text.Digits
import ObjectSql.Statement.Select

/-!
# Statements while they are built

A selection finds an expression or appends it. A statement numbers the aliases that it allocates, whatever
else is done to it in between, so that no two of them are equal. The alias of its primary table is not looked
at. A table by its name has the alias of number 0, which is never allocated; a table under an alias of its
caller's may have one that is.
-/
namespace ObjectSql.Select

open Text

inductive Operation where
  | newTableAlias (name : String)
  | join (kind : JoinKind) (table : TableRef) (on : List Expr)
  | setDistinct (distinct : Bool)
  | select (e : Expr)
  | addCondition (e : Expr)
  | addGroup (e : Expr)
  | addHaving (e : Expr)
  | addOrdering (item : OrderItem)
  | setRange (offset count : Int)

def Operation.allocates : Operation → Bool
  | newTableAlias _ => true
  | _ => false

/-- The table reference that an operation returns. -/
def Operation.reference? (s : Select) : Operation → Option TableRef
  | newTableAlias name => some (s.newTableAlias name).1
  | _ => none

/-- The statement after an operation. A projection that is refused leaves it as it is. -/
def perform (s : Select) : Operation → Select
  | .newTableAlias name => (s.newTableAlias name).2
  | .join kind table on => s.join kind table on
  | .setDistinct distinct => s.setDistinct distinct
  | .select e =>
    match s.select e with
    | .ok (_, next) => next
    | .error _ => s
  | .addCondition e => s.addCondition e
  | .addGroup e => s.addGroup e
  | .addHaving e => s.addHaving e
  | .addOrdering item => s.addOrdering item
  | .setRange offset count => s.setRange offset count

def performAll (s : Select) (ops : List Operation) : Select := ops.foldl perform s

def allocated (s : Select) : List Operation → List TableRef
  | [] => []
  | op :: ops => (op.reference? s).toList ++ (s.perform op).allocated ops

variable {s next : Select} {e : Expr} {position : Nat} {op : Operation} {ops : List Operation}

/-! ## Selections -/

/-- What the selection of an expression comes to: the position of the first one that is the same, or a new
position at the end. -/
inductive Selected (s : Select) (e : Expr) : Nat → Select → Prop
  | found {before after : List Expr} {x : Expr} (hsplit : s.projection = before ++ x :: after)
    (hsame : x.same e) (hfirst : ∀ y ∈ before, ¬y.same e) : Selected s e (before.length + 1) s
  | added (hnone : ∀ y ∈ s.projection, ¬y.same e) :
    Selected s e (s.projection.length + 1) { s with projection := s.projection ++ [e] }

theorem exists_selected (s : Select) (e : Expr) : ∃ position next, s.Selected e position next := by
  cases hfind : s.projection.find? (·.same e) with
  | some x =>
    obtain ⟨hsame, before, after, hsplit, hfirst⟩ := List.find?_eq_some_iff_append.mp hfind
    exact ⟨_, _, .found hsplit hsame (by simpa using hfirst)⟩
  | none => exact ⟨_, _, .added (by simpa using hfind)⟩

theorem select_map (h : e.category = .map) :
    s.select e = .error (.invalidCall "select" .mapProjected) := by rw [select, if_pos h]

theorem Selected.select_eq (h : s.Selected e position next) (hcategory : e.category ≠ .map) :
    s.select e = .ok (position, next) := by
  cases h with
  | @found before after x hsplit hsame hfirst =>
    have hindex : s.projection.findIdx? (·.same e) = some before.length := by
      rw [hsplit, List.findIdx?_append, List.findIdx?_eq_none_iff.mpr (by simpa using hfirst),
        List.findIdx?_cons, if_pos hsame]
      simp
    rw [select, if_neg hcategory, hindex]
  | added hnone =>
    rw [select, if_neg hcategory, List.findIdx?_eq_none_iff.mpr (by simpa using hnone)]

/-- A selection that is not refused has one of the two outcomes. -/
theorem select_eq_ok_iff :
    s.select e = .ok (position, next) ↔ e.category ≠ .map ∧ s.Selected e position next := by
  constructor
  · intro h
    have hcategory : e.category ≠ .map := by
      intro hmap
      rw [select_map hmap] at h
      cases h
    obtain ⟨position', next', hselected⟩ := s.exists_selected e
    have heq := h.symm.trans (hselected.select_eq hcategory)
    cases heq
    exact ⟨hcategory, hselected⟩
  · rintro ⟨hcategory, h⟩
    exact h.select_eq hcategory

/-! ## Single operations -/

theorem select_ok (h : s.select e = .ok (position, next)) :
    next.table = s.table ∧ next.nextAlias = s.nextAlias := by
  cases (select_eq_ok_iff.mp h).2 <;> exact ⟨rfl, rfl⟩

/-- A projection leaves the table and the next alias, be it refused or not. -/
theorem perform_select : (s.perform (.select e)).table = s.table ∧
    (s.perform (.select e)).nextAlias = s.nextAlias := by
  rw [perform]
  split
  · next h => exact select_ok h
  · exact ⟨rfl, rfl⟩

theorem perform_table : (s.perform op).table = s.table := by
  cases op with
  | select e => exact perform_select.1
  | _ => rfl

theorem perform_nextAlias : (s.perform op).nextAlias = s.nextAlias + op.allocates.toNat := by
  cases op with
  | select e => exact perform_select.2
  | _ => rfl

/-! ## Numbered aliases -/

def numberedAlias (n : Nat) : String := "A" ++ toString n

theorem numberedAlias_injective : Function.Injective numberedAlias := by
  intro m n h
  exact repr_injective ((String.append_right_inj "A").mp h)

theorem map_aliasName_reference? : (op.reference? s).toList.map TableRef.aliasName =
    (List.range' s.nextAlias op.allocates.toNat).map numberedAlias := by
  cases op <;> rfl

/-! ## Runs of operations -/

theorem performAll_table : (s.performAll ops).table = s.table := by
  induction ops generalizing s with
  | nil => rfl
  | cons op ops ih => exact ih.trans perform_table

/-- The aliases have consecutive numbers. -/
theorem map_aliasName_allocated : (s.allocated ops).map TableRef.aliasName =
    (List.range' s.nextAlias (ops.countP Operation.allocates)).map numberedAlias := by
  induction ops generalizing s with
  | nil => rfl
  | cons op ops ih =>
    have hcount : (op :: ops).countP Operation.allocates =
        op.allocates.toNat + ops.countP Operation.allocates := by
      rw [List.countP_cons, Nat.add_comm]
      cases op.allocates <;> rfl
    -- the numbers of the other operations begin where those of this one end
    rw [allocated, List.map_append, map_aliasName_reference?, ih, perform_nextAlias, ← List.map_append,
      List.range'_append_1, hcount]

/-- The aliases that the operations allocate differ from each other and from that of the primary table. -/
def AllocatesFresh (s : Select) (ops : List Operation) : Prop :=
  ((s.performAll ops).table.aliasName :: (s.allocated ops).map TableRef.aliasName).Nodup

theorem allocatesFresh_iff : s.AllocatesFresh ops ↔
    ∀ n, s.nextAlias ≤ n → n < s.nextAlias + ops.countP Operation.allocates →
      s.table.aliasName ≠ numberedAlias n := by
  have hnodup : ((List.range' s.nextAlias (ops.countP Operation.allocates)).map numberedAlias).Nodup :=
    (List.nodup_range' 1).map numberedAlias_injective
  rw [AllocatesFresh, performAll_table, map_aliasName_allocated, List.nodup_cons,
    and_iff_left hnodup]
  simp only [List.mem_map, List.mem_range'_1]
  grind

/-- The number 0 is not allocated. -/
theorem allocatesFresh_ofName (name : String) (ops : List Operation) :
    (ofName name).AllocatesFresh ops := by
  refine allocatesFresh_iff.mpr fun n hn _ heq => ?_
  have hzero : 0 = n := numberedAlias_injective heq
  have hpositive : 1 ≤ n := hn
  omega

/-- Allocated aliases are fresh exactly if that of the primary table is none with their numbers. -/
theorem newTableAlias_fresh_iff (ops : List Operation) :
    (∀ table, (fromTable table).AllocatesFresh ops ↔
      ∀ n, 1 ≤ n → n ≤ ops.countP Operation.allocates → table.aliasName ≠ "A" ++ toString n) ∧
    ∀ name, (ofName name).AllocatesFresh ops := by
  refine ⟨fun table => allocatesFresh_iff.trans ?_, fun name => allocatesFresh_ofName name ops⟩
  simp only [fromTable, numberedAlias]
  grind

/-- A table under the alias of number 1 shares it with the first one that is allocated. -/
theorem newTableAlias_taken :
    ¬(fromTable ⟨"ORDERS", "A1"⟩).AllocatesFresh [.newTableAlias "CUSTOMER"] := by
  rw [AllocatesFresh]
  decide

end ObjectSql.Select
