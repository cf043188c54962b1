import ObjectSql.Proofs.Statement.Rows

/-!
# Statements over restricted rows

A statement tells two datastores apart by the rows that it reads. Where its conditions let through
some rows of one table only, and that table is not joined from outside, the other rows of the table
make no difference to the result.
-/
namespace ObjectSql

namespace Datastore

def withRows (db : Datastore) (rows : String → List Row) : Datastore := { db with rows := rows }

variable {db : Datastore} {rows : String → List Row} {val : BoundParameter → Value} {a : String}
  {P : Row → Bool}

def Admitted (a : String) (P : Row → Bool) (env : RowScope) : Bool := P (env a)

/-! ## Joins -/

theorem extend_withRows {j : Join} (h : rows j.table.name = db.rows j.table.name) :
    (db.withRows rows).extend val j = db.extend val j := by
  funext env
  have hmatching : (db.withRows rows).matching val j env = db.matching val j env :=
    congrArg (List.filter _) h
  unfold extend
  rw [hmatching]

theorem extendAll_withRows {js : List Join}
    (h : ∀ j ∈ js, rows j.table.name = db.rows j.table.name) :
    (db.withRows rows).extendAll val js = db.extendAll val js := by
  induction js with
  | nil => rfl
  | cons j js ih =>
    obtain ⟨hj, hjs⟩ := List.forall_mem_cons.mp h
    funext env
    rw [extendAll, extendAll, extend_withRows hj, ih hjs]

/-- Joins of other aliases leave the row of an alias. -/
theorem extendAll_eq_of_ne {js : List Join} (hjs : ∀ j ∈ js, j.table.aliasName ≠ a)
    {env env' : RowScope} (h : env' ∈ db.extendAll val js env) : env' a = env a := by
  induction js generalizing env with
  | nil => rw [List.mem_singleton.mp h]
  | cons j js ih =>
    obtain ⟨hj, hjs⟩ := List.forall_mem_cons.mp hjs
    obtain ⟨env₁, hfirst, hrest⟩ := List.mem_flatMap.mp h
    rw [ih hjs hrest, extend_other hfirst hj.symm]

/-- What is let through after joins of other aliases has been let through before. -/
theorem filter_flatMap_extendAll {js : List Join} (hjs : ∀ j ∈ js, j.table.aliasName ≠ a)
    (envs : List RowScope) :
    (envs.flatMap (db.extendAll val js)).filter (Admitted a P) =
      (envs.filter (Admitted a P)).flatMap (db.extendAll val js) := by
  induction envs with
  | nil => rfl
  | cons env envs ih =>
    have hsame : ∀ env' ∈ db.extendAll val js env, Admitted a P env' = Admitted a P env :=
      fun env' h => congrArg P (extendAll_eq_of_ne hjs h)
    rw [List.flatMap_cons, List.filter_append, ih, List.filter_cons]
    cases hadmitted : Admitted a P env with
    | true =>
      rw [if_pos rfl, List.flatMap_cons, List.filter_eq_self.mpr fun env' h =>
        (hsame env' h).trans hadmitted]
    | false =>
      have hnone : (db.extendAll val js env).filter (Admitted a P) = [] :=
        List.filter_eq_nil_iff.mpr fun env' h => by simp [hsame env' h, hadmitted]
      rw [hnone, List.nil_append, if_neg Bool.false_ne_true]

/-- An inner join lets through what comes of the rows that are let through. -/
theorem filter_extend {j : Join} (hj : j.table.aliasName = a) (hkind : j.kind = .inner)
    (env : RowScope) : (db.extend val j env).filter (Admitted a P) =
      (((db.rows j.table.name).filter P).filter fun row =>
        db.holds val (Function.update env a row) j.on).map (Function.update env a) := by
  have hadmitted (row : Row) : Admitted a P (Function.update env a row) = P row := by
    rw [Admitted, Function.update_self]
  unfold extend matching
  simp only [hkind, hj, List.filter_map, Function.comp_def, hadmitted, List.filter_filter,
    Bool.and_comm]

/-- Where an inner join reads the rows that are let through from either datastore, what comes of it
and of joins of other aliases is the same. -/
theorem filter_extendAll_withRows {before after : List Join} {j : Join} (hj : j.table.aliasName = a)
    (hkind : j.kind = .inner)
    (hothers : ∀ k ∈ before ++ after,
      k.table.aliasName ≠ a ∧ rows k.table.name = db.rows k.table.name)
    (hrows : (rows j.table.name).filter P = (db.rows j.table.name).filter P) (env : RowScope) :
    ((db.withRows rows).extendAll val (before ++ j :: after) env).filter (Admitted a P) =
      (db.extendAll val (before ++ j :: after) env).filter (Admitted a P) := by
  obtain ⟨hbefore, hafter⟩ := List.forall_mem_append.mp hothers
  have hjoin (env : RowScope) : ((db.withRows rows).extend val j env).filter (Admitted a P) =
      (db.extend val j env).filter (Admitted a P) := by
    rw [filter_extend hj hkind, filter_extend hj hkind]
    exact congrArg (fun admitted : List Row => (admitted.filter fun row =>
      db.holds val (Function.update env a row) j.on).map (Function.update env a)) hrows
  rw [extendAll_append, extendAll_append, extendAll_withRows fun k hk => (hbefore k hk).2,
    List.filter_flatMap, List.filter_flatMap]
  congr 1
  funext env
  rw [extendAll, extendAll, filter_flatMap_extendAll fun k hk => (hafter k hk).1,
    filter_flatMap_extendAll fun k hk => (hafter k hk).1, hjoin,
    extendAll_withRows fun k hk => (hafter k hk).2]

/-! ## Results -/

section

variable (db val) (s : Select)

/-- The rows at hand after the joins of a statement. -/
def scopes : List RowScope :=
  (db.rows s.table.name).flatMap fun row => db.extendAll val s.joins (scopeOf s.table row)

theorem result_eq_scopes : db.result val s =
    ((db.scopes val s).filter fun env => db.holds val env s.conditions).map
      fun env => s.projection.map (db.value val env) := rfl

/-- What is let through of the rows at hand comes of the rows of the primary table that are. -/
theorem filter_scopes (P : Row → Bool)
    (hjoins : ∀ j ∈ s.joins, j.table.aliasName ≠ s.table.aliasName) :
    (db.scopes val s).filter (Admitted s.table.aliasName P) =
      ((db.rows s.table.name).filter P).flatMap fun row =>
        db.extendAll val s.joins (scopeOf s.table row) := by
  have hadmitted (row : Row) : Admitted s.table.aliasName P (scopeOf s.table row) = P row := by
    rw [Admitted, scopeOf, Function.update_self]
  calc (db.scopes val s).filter (Admitted s.table.aliasName P)
      = (((db.rows s.table.name).map (scopeOf s.table)).flatMap (db.extendAll val s.joins)).filter
          (Admitted s.table.aliasName P) := by rw [scopes, List.flatMap_map]
    _ = (((db.rows s.table.name).map (scopeOf s.table)).filter
          (Admitted s.table.aliasName P)).flatMap (db.extendAll val s.joins) :=
        filter_flatMap_extendAll hjoins _
    _ = _ := by simp only [List.filter_map, List.flatMap_map, Function.comp_def, hadmitted]

variable {db val s}

/-- Datastores with the same rows in every table of a statement have the same rows at hand. -/
theorem scopes_withRows (hprimary : rows s.table.name = db.rows s.table.name)
    (hjoins : ∀ j ∈ s.joins, rows j.table.name = db.rows j.table.name) :
    (db.withRows rows).scopes val s = db.scopes val s := by
  unfold scopes
  rw [extendAll_withRows hjoins]
  exact congrArg (List.flatMap _) hprimary

theorem result_withRows_of_scopes (h : (db.withRows rows).scopes val s = db.scopes val s) :
    (db.withRows rows).result val s = db.result val s := by
  rw [result_eq_scopes, result_eq_scopes, h]
  rfl

theorem filter_scopes_of_primary
    (hprimary : (rows s.table.name).filter P = (db.rows s.table.name).filter P)
    (hjoins : ∀ j ∈ s.joins, j.table.aliasName ≠ s.table.aliasName ∧
      rows j.table.name = db.rows j.table.name) :
    ((db.withRows rows).scopes val s).filter (Admitted s.table.aliasName P) =
      (db.scopes val s).filter (Admitted s.table.aliasName P) := by
  rw [filter_scopes _ _ _ _ fun j hj => (hjoins j hj).1,
    filter_scopes _ _ _ _ fun j hj => (hjoins j hj).1,
    extendAll_withRows fun j hj => (hjoins j hj).2]
  exact congrArg (List.flatMap _) hprimary

theorem filter_scopes_of_joined {before after : List Join} {j : Join}
    (hsplit : s.joins = before ++ j :: after) (hj : j.table.aliasName = a) (hkind : j.kind = .inner)
    (hprimary : rows s.table.name = db.rows s.table.name)
    (hothers : ∀ k ∈ before ++ after,
      k.table.aliasName ≠ a ∧ rows k.table.name = db.rows k.table.name)
    (hrows : (rows j.table.name).filter P = (db.rows j.table.name).filter P) :
    ((db.withRows rows).scopes val s).filter (Admitted a P) =
      (db.scopes val s).filter (Admitted a P) := by
  have hrow (row : Row) : ((db.withRows rows).extendAll val (before ++ j :: after)
      (scopeOf s.table row)).filter (Admitted a P) =
      (db.extendAll val (before ++ j :: after) (scopeOf s.table row)).filter (Admitted a P) :=
    filter_extendAll_withRows hj hkind hothers hrows _
  rw [scopes, scopes, List.filter_flatMap, List.filter_flatMap, hsplit]
  simp only [hrow]
  exact congrArg (List.flatMap _) hprimary

/-- Where the conditions let through some rows of an alias only, a result comes of these. -/
theorem result_withRows_of_admitted (h : ∀ env, db.holds val env s.conditions → P (env a))
    (hscopes : ((db.withRows rows).scopes val s).filter (Admitted a P) =
      (db.scopes val s).filter (Admitted a P)) :
    (db.withRows rows).result val s = db.result val s := by
  have hholds (envs : List RowScope) : (envs.filter fun env => db.holds val env s.conditions) =
      (envs.filter (Admitted a P)).filter fun env => db.holds val env s.conditions := by
    rw [List.filter_filter]
    refine List.filter_congr fun env _ => ?_
    cases henv : db.holds val env s.conditions with
    | true => exact (h env henv).symm
    | false => rfl
  have hselected := congrArg (List.filter fun env => db.holds val env s.conditions) hscopes
  rw [← hholds, ← hholds] at hselected
  exact congrArg (List.map fun env => s.projection.map (db.value val env)) hselected

end

end Datastore

end ObjectSql
