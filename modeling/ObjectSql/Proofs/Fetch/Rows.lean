import ObjectSql.Fetch.Execute
import ObjectSql.Proofs.Fetch.Compile
import ObjectSql.Proofs.Statement.Rows
import ObjectSql.Proofs.Text.Digits

/-!
# The row of a compiled fetch

A datastore that has no two rows with the same identity in one table answers a compiled statement
with one row at most. The tables of the chain are joined on identity, so the row puts together the
rows with the requested identity; tables of relations add columns and never rows.
-/
namespace ObjectSql

namespace FetchScope

theorem aliasAt_injective {m n : Nat} (h : aliasAt m = aliasAt n) : m = n :=
  Text.repr_injective ((String.append_right_inj "A").mp h)

def columns (s : FetchScope) : List String := s.identity.map IdentityColumn.column

variable {s : FetchScope} {primary : TableRef} {js : List Join} {n : Nat}
  {joined : List (Nat × TableRef)}

/-- The aliases of a draft are numbered from that of the primary table on. -/
theorem Joins.alias_lt (h : s.Joins primary js n joined) :
    1 ≤ n ∧ ∀ e ∈ joined, ∃ i, 1 ≤ i ∧ i < n ∧ e.2.aliasName = aliasAt i := by
  induction h with
  | nil => simp
  | @chain js n joined depth _ _ _ ih =>
    refine ⟨by omega, fun e he => ?_⟩
    rcases List.mem_cons.mp he with rfl | he
    · exact ⟨n, ih.1, by omega, rfl⟩
    · obtain ⟨i, hi, hlt, ha⟩ := ih.2 e he
      exact ⟨i, hi, by omega, ha⟩
  | related _ _ _ _ _ ih =>
    refine ⟨by omega, fun e he => ?_⟩
    obtain ⟨i, hi, hlt, ha⟩ := ih.2 e he
    exact ⟨i, hi, by omega, ha⟩

/-- So are the aliases of the joins. -/
theorem Joins.join_alias (h : s.Joins primary js n joined) :
    ∀ j ∈ js, ∃ i, 1 ≤ i ∧ i < n ∧ j.table.aliasName = aliasAt i := by
  induction h with
  | nil => simp
  | chain h _ _ ih | related h _ _ _ _ ih =>
    refine List.forall_mem_append.mpr ⟨fun j hj => ?_,
      List.forall_mem_singleton.mpr ⟨_, h.alias_lt.1, Nat.lt_succ_self _, rfl⟩⟩
    obtain ⟨i, hi, hlt, ha⟩ := ih j hj
    exact ⟨i, hi, Nat.lt_succ_of_lt hlt, ha⟩

/-- The alias of the next table belongs to no other table of the chain. -/
theorem Joins.joined_ne (h : s.Joins primary js n joined) {e : Nat × TableRef} (he : e ∈ joined) :
    e.2.aliasName ≠ aliasAt n := by
  intro heq
  obtain ⟨i, -, hlt, ha⟩ := h.alias_lt.2 e he
  have hn := aliasAt_injective (ha.symm.trans heq)
  omega

theorem Joins.join_alias_ne (h : s.Joins primary js n joined) {j : Join} (hj : j ∈ js) {i : Nat}
    (hi : i = 0 ∨ n ≤ i) : j.table.aliasName ≠ aliasAt i := by
  intro heq
  obtain ⟨k, hk, hlt, ha⟩ := h.join_alias j hj
  have hsame := aliasAt_injective (ha.symm.trans heq)
  omega

/-- Whether a join is that of a relation, or that of a table at a place of the chain. -/
def JoinsAt (s : FetchScope) (joined : List (Nat × TableRef)) (places : Nat → Prop) (j : Join) : Prop :=
  j.kind = .leftOuter ∨ ∃ depth, places depth ∧ (depth, j.table) ∈ joined ∧
    j.table.name = s.tableAt depth

theorem JoinsAt.cons {places : Nat → Prop} {j : Join} (h : s.JoinsAt joined places j)
    (e : Nat × TableRef) : s.JoinsAt (e :: joined) places j :=
  h.imp id fun ⟨depth, hdepth, hmem, hname⟩ =>
    ⟨depth, hdepth, List.mem_cons_of_mem _ hmem, hname⟩

theorem Joins.joinsAt (h : s.Joins primary js n joined) :
    ∀ j ∈ js, s.JoinsAt joined (· ≠ s.primary) j := by
  induction h with
  | nil => simp
  | @chain js n joined depth h hprimary _ ih =>
    refine List.forall_mem_append.mpr ⟨fun j hj => (ih j hj).cons _,
      List.forall_mem_singleton.mpr (.inr ⟨depth, hprimary, List.mem_cons_self, rfl⟩)⟩
  | related _ _ _ _ _ ih =>
    exact List.forall_mem_append.mpr ⟨ih, List.forall_mem_singleton.mpr (.inl rfl)⟩

theorem Joins.place_ne (h : s.Joins primary js n joined) : ∀ e ∈ joined, e.1 ≠ s.primary := by
  induction h with
  | nil => simp
  | chain _ hprimary _ ih => exact List.forall_mem_cons.mpr ⟨hprimary, ih⟩
  | related _ _ _ _ _ ih => exact ih

/-- A table of the chain has one join, under an alias of its own; the other joins are of relations and
of tables at other places. -/
theorem Joins.split (h : s.Joins primary js n joined) {depth : Nat} {t : TableRef}
    (ht : (depth, t) ∈ joined) : ∃ before j after, js = before ++ j :: after ∧ j.table = t ∧
      j.kind = .inner ∧ t.name = s.tableAt depth ∧
      ∀ k ∈ before ++ after, k.table.aliasName ≠ t.aliasName ∧ s.JoinsAt joined (· ≠ depth) k := by
  induction h with
  | nil => cases ht
  | @chain js n joined depth' h hprimary hnew ih =>
    rcases List.mem_cons.mp ht with heq | ht
    · cases heq
      refine ⟨js, _, [], rfl, rfl, rfl, rfl, fun k hk => ?_⟩
      rw [List.append_nil] at hk
      refine ⟨h.join_alias_ne hk (.inr (Nat.le_refl n)), (h.joinsAt k hk).imp id ?_⟩
      rintro ⟨other, -, hmem, hname⟩
      exact ⟨other, hnew _ hmem, List.mem_cons_of_mem _ hmem, hname⟩
    · obtain ⟨before, j, after, rfl, hj, hkind, hname, hothers⟩ := ih ht
      refine ⟨before, j, after ++ [_], List.append_assoc before (j :: after) _, hj, hkind, hname, ?_⟩
      rw [← List.append_assoc]
      refine List.forall_mem_append.mpr ⟨fun k hk => ⟨(hothers k hk).1, (hothers k hk).2.cons _⟩,
        List.forall_mem_singleton.mpr ⟨(h.joined_ne ht).symm, .inr ?_⟩⟩
      exact ⟨depth', (hnew _ ht).symm, List.mem_cons_self, rfl⟩
  | related h _ _ _ _ ih =>
    obtain ⟨before, j, after, rfl, hj, hkind, hname, hothers⟩ := ih ht
    refine ⟨before, j, after ++ [_], List.append_assoc before (j :: after) _, hj, hkind, hname, ?_⟩
    rw [← List.append_assoc]
    exact List.forall_mem_append.mpr ⟨hothers,
      List.forall_mem_singleton.mpr ⟨(h.joined_ne ht).symm, .inl rfl⟩⟩

end FetchScope

namespace Datastore

open FetchScope

variable {db : Datastore} {val : BoundParameter → Value} {env env' : RowScope}

/-! ## Joins -/

theorem holds_columnsEq {left right : TableRef} {columns : List (String × String × String)} :
    db.holds val env (Expr.columnsEq left right columns) ↔ ∀ x ∈ columns,
      db.compare (env left.aliasName x.1) (env right.aliasName x.2.1) = some true := by
  simp only [holds, Expr.columnsEq, List.all_map, List.all_eq_true, Function.comp_apply,
    decide_eq_true_eq]
  rfl

variable {s : FetchScope} {primary owner t : TableRef} {values : List Value}

variable (val)

/-- A table of the chain adds its row with the identity, or takes the row away. -/
theorem extend_chain (hfresh : primary.aliasName ≠ t.aliasName)
    (hrow : db.HasIdentity s.columns values (env primary.aliasName))
    (hunique : db.Unique t.name s.columns) :
    (∃ row ∈ db.rows t.name, db.HasIdentity s.columns values row ∧
      db.extend val (s.chainJoin primary t) env = [Function.update env t.aliasName row]) ∨
      (∀ row ∈ db.rows t.name, ¬db.HasIdentity s.columns values row) ∧
        db.extend val (s.chainJoin primary t) env = [] := by
  have hfits (row : Row) : db.holds val (Function.update env t.aliasName row)
      (s.chainJoin primary t).on ↔ db.HasIdentity s.columns values row := by
    have hagree : db.holds val (Function.update env t.aliasName row)
        (s.chainJoin primary t).on ↔ db.Agree s.columns (env primary.aliasName) row := by
      simp [chainJoin, holds_columnsEq, identityPairs, columns, Agree, hfresh]
    rw [hagree]
    exact ⟨fun h => h.hasIdentity hrow, fun h => hrow.agree h⟩
  have hmatching : db.matching val (s.chainJoin primary t) env = [] ∨
      ∃ row, db.matching val (s.chainJoin primary t) env = [row] :=
    hunique.filter_eq fun row row' h h' => ((hfits row).mp h).agree ((hfits row').mp h')
  rcases hmatching with hnone | ⟨row, hone⟩
  · refine .inr ⟨fun row hmem hidentity => ?_, by rw [extend, hnone]; rfl⟩
    have hin : row ∈ db.matching val (s.chainJoin primary t) env :=
      List.mem_filter.mpr ⟨hmem, (hfits row).mpr hidentity⟩
    rw [hnone] at hin
    exact List.not_mem_nil hin
  · have hin : row ∈ db.matching val (s.chainJoin primary t) env := hone ▸ List.mem_singleton_self row
    obtain ⟨hmem, hrow⟩ := List.mem_filter.mp hin
    exact .inl ⟨row, hmem, (hfits row).mp hrow, by rw [extend, hone]; rfl⟩

/-- The table of a relation adds one row, which may be null. -/
theorem extend_related (env : RowScope) {identity : List IdentityColumn} {columns : List String}
    (hfresh : owner.aliasName ≠ t.aliasName) (hlength : identity.length = columns.length)
    (hunique : db.Unique t.name (identity.map IdentityColumn.column)) :
    ∃ row, db.extend val (relatedJoin owner t columns identity) env =
      [Function.update env t.aliasName row] := by
  have hfits {row : Row} (h : db.holds val (Function.update env t.aliasName row)
      (relatedJoin owner t columns identity).on) {column : String} {c : IdentityColumn}
      (hc : (column, c) ∈ columns.zip identity) :
      db.compare (env owner.aliasName column) (row c.column) = some true := by
    have hpair := holds_columnsEq.mp h _ (List.mem_map_of_mem hc)
    simpa [hfresh] using hpair
  have hmatching : db.matching val (relatedJoin owner t columns identity) env = [] ∨
      ∃ row, db.matching val (relatedJoin owner t columns identity) env = [row] := by
    refine hunique.filter_eq fun row row' h h' name hname => ?_
    obtain ⟨c, hc, rfl⟩ := List.mem_map.mp hname
    obtain ⟨i, hi, rfl⟩ := List.getElem_of_mem hc
    have hlt : i < (columns.zip identity).length := by
      rw [List.length_zip]
      omega
    have hpair := List.getElem_mem hlt
    rw [List.getElem_zip] at hpair
    exact db.compare_trans (db.compare_symm (hfits h hpair)) (hfits h' hpair)
  rcases hmatching with hnone | ⟨row, hone⟩
  · exact ⟨Row.null, by rw [extend, hnone]; rfl⟩
  · exact ⟨row, by rw [extend, hone]; rfl⟩

end Datastore

namespace FetchScope

variable {s : FetchScope} {primary : TableRef} {js : List Join} {n : Nat}
  {joined : List (Nat × TableRef)} {db : Datastore} {val : BoundParameter → Value}
  {values : List Value}

theorem Joins.primary_ne (h : s.Joins primary js n joined) (hprimary : primary.aliasName = aliasAt 0) :
    primary.aliasName ≠ aliasAt n := by
  intro heq
  have hn := aliasAt_injective (hprimary.symm.trans heq)
  have hle := h.alias_lt.1
  omega

/-- The rows at hand after the joins, from a row of the primary table with the identity. -/
theorem Joins.extendAll (val : BoundParameter → Value) (h : s.Joins primary js n joined)
    (hprimary : primary.aliasName = aliasAt 0)
    (hkeyed : ∀ target k identity, s.catalog.getClass target = .ok k →
      s.catalog.identityColumns target = .ok identity →
        db.Unique k.table.name (identity.map IdentityColumn.column))
    (hunique : ∀ e ∈ joined, db.Unique (s.tableAt e.1) s.columns) {row : Row}
    (hrow : db.HasIdentity s.columns values row) :
    (∃ env, db.extendAll val js (Datastore.scopeOf primary row) = [env] ∧
      env primary.aliasName = row ∧ ∀ e ∈ joined,
        env e.2.aliasName ∈ db.rows (s.tableAt e.1) ∧
          db.HasIdentity s.columns values (env e.2.aliasName)) ∨
      db.extendAll val js (Datastore.scopeOf primary row) = [] ∧
        ∃ e ∈ joined, ∀ row ∈ db.rows (s.tableAt e.1), ¬db.HasIdentity s.columns values row := by
  induction h with
  | nil => exact .inl ⟨_, rfl, Function.update_self .., by simp⟩
  | @chain js n joined depth h _ _ ih =>
    rw [Datastore.extendAll_snoc]
    rcases ih fun e he => hunique e (List.mem_cons_of_mem _ he) with
      ⟨env, henv, hprimaryRow, hrows⟩ | ⟨hnone, e, he, hmissing⟩
    · have hext := Datastore.extend_chain val (t := ⟨s.tableAt depth, aliasAt n⟩)
        (h.primary_ne hprimary) (hprimaryRow ▸ hrow) (hunique _ List.mem_cons_self)
      rw [henv, List.flatMap_singleton]
      rcases hext with ⟨row', hmem, hrow', hext⟩ | ⟨hmissing, hext⟩
      · refine .inl ⟨_, hext, ?_, fun e he => ?_⟩
        · rw [Function.update_of_ne (h.primary_ne hprimary), hprimaryRow]
        · rcases List.mem_cons.mp he with rfl | he
          · simpa using ⟨hmem, hrow'⟩
          · rw [Function.update_of_ne (h.joined_ne he)]
            exact hrows e he
      · exact .inr ⟨hext, _, List.mem_cons_self, hmissing⟩
    · exact .inr ⟨by simp [hnone], e, List.mem_cons_of_mem _ he, hmissing⟩
  | @related js n joined owner target k identity columns h howner hk hidentity hlength ih =>
    rw [Datastore.extendAll_snoc]
    rcases ih hunique with ⟨env, henv, hprimaryRow, hrows⟩ | ⟨hnone, e, he, hmissing⟩
    · have howner : owner.aliasName ≠ aliasAt n := by
        rcases howner with rfl | ⟨depth, hmem⟩
        · exact h.primary_ne hprimary
        · exact h.joined_ne hmem
      obtain ⟨row', hext⟩ := Datastore.extend_related val env
        (t := ⟨k.table.name, aliasAt n⟩) howner hlength (hkeyed target k identity hk hidentity)
      rw [henv, List.flatMap_singleton]
      refine .inl ⟨_, hext, ?_, fun e he => ?_⟩
      · rw [Function.update_of_ne (h.primary_ne hprimary), hprimaryRow]
      · rw [Function.update_of_ne (h.joined_ne he)]
        exact hrows e he
    · exact .inr ⟨by simp [hnone], e, he, hmissing⟩

end FetchScope

/-! ## Conditions -/

/-- What a placeholder stands for at an execution; one that cannot be bound stands for null. -/
def FetchRequest.valuation (r : FetchRequest) (values : List Value) (tenant : Option String)
    (p : BoundParameter) : Value :=
  match r.bindParameter values tenant p with
  | .ok v => v
  | .error _ => .null

/-- Whether a row belongs to the tenants that are let through. -/
def TenancyMapping.Admits (tenancy : TenancyMapping) (db : Datastore) (tenant : Option String)
    (row : Row) : Prop :=
  match tenancy.allowed with
  | some allowed => ∃ name ∈ allowed, db.compare (row tenancy.column) (.text name) = some true
  | none => ∃ name, tenant = some name ∧ db.compare (row tenancy.column) (.text name) = some true

section

variable {s : FetchScope} {db : Datastore} {r : FetchRequest} {values : List Value}
  {tenant : Option String} {env : RowScope} {t : TableRef}

theorem IdentityColumn.key_injective {c c' : IdentityColumn} (h : c.key = c'.key) :
    c.member = c'.member := by
  cases hc : c.member <;> cases hc' : c'.member <;> simp_all [IdentityColumn.key]

/-- The placeholder of an identity column takes the value at the place of that column. -/
theorem FetchRequest.bindParameter_slot {identity : List IdentityColumn}
    (hr : r.identity = identity.map fun x => (x.key, x.position))
    (hnodup : (identity.map fun x => (x.member, x.position)).Nodup) {i : Nat}
    (hi : i < identity.length) {p : BoundParameter} (hvalue : p.value = none)
    (hkey : p.key = identity[i].key) (hcolumn : p.column = identity[i].position) :
    r.bindParameter values tenant p =
      match values[i]? with
      | some v => .ok v
      | none =>
        .error (.metadata (.identityTooShort r.className r.identity.length values.length)) := by
  have htenant : p.key ≠ .tenant := by
    rw [hkey]
    cases hmember : identity[i].member <;> simp [IdentityColumn.key, hmember]
  have hslot : r.identity.findIdx? (fun e => e = (p.key, p.column)) = some i := by
    rw [hr, hkey, hcolumn, List.findIdx?_eq_some_iff_getElem]
    refine ⟨by simpa using hi, by simp, fun j hj => ?_⟩
    have hne := List.pairwise_iff_getElem.mp hnodup j i (by simp; omega) (by simpa using hi) hj
    simp only [List.getElem_map, Prod.mk.injEq, not_and, decide_eq_true_eq, ne_eq] at hne ⊢
    exact fun hsame => hne (IdentityColumn.key_injective hsame)
  cases hvalues : values[i]? <;> simp [bindParameter, hvalue, htenant, hslot, hvalues]

theorem Datastore.holds_columnEq {val : BoundParameter → Value} {column logicalType : String}
    {e : Expr} : db.holds val env [Expr.columnEq t column logicalType e] ↔
      db.compare (env t.aliasName column) (db.value val env e) = some true := by
  simp only [Datastore.holds, List.all_cons, List.all_nil, Bool.and_true, decide_eq_true_eq]
  rfl

theorem FetchDraft.holds_tenancy {tenancy : TenancyMapping} :
    db.holds (r.valuation values tenant) env [tenancyCondition t tenancy] ↔
      tenancy.Admits db tenant (env t.aliasName) := by
  unfold tenancyCondition TenancyMapping.Admits
  cases tenancy.allowed with
  | some allowed =>
    have hvalues : (allowed.map fun name => Expr.literal (.text name)).map
        (db.value (r.valuation values tenant) env) = allowed.map Value.text := by
      rw [List.map_map]
      rfl
    have htruth : db.truth (r.valuation values tenant) env
        ((Expr.column t tenancy.column "string").inList
          (allowed.map fun name => .literal (.text name))) =
        db.isAmong (env t.aliasName tenancy.column) (allowed.map Value.text) := by
      rw [← hvalues]
      rfl
    simp [Datastore.holds, htruth, Datastore.isAmong_eq_true]
  | none =>
    have hvalue : db.value (r.valuation values tenant) env (.parameter .tenant 0 "string") =
        tenant.elim .null Value.text := by
      cases tenant <;> rfl
    dsimp only
    rw [Datastore.holds_columnEq, hvalue]
    cases tenant with
    | none => simp [Datastore.compare, Value.isNull]
    | some name => simp

end

end ObjectSql
