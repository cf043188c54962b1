import ObjectSql.Proofs.Fetch.Execute
import ObjectSql.Proofs.Fetch.Plan
import ObjectSql.Proofs.Fetch.Result
import ObjectSql.Proofs.Statement.Restriction

/-!
# Rows of other tenants

A statement is restricted to a tenant in one table, that of the nearest class with a tenancy. What
other tenants have in that table makes no difference to a fetch. The tables of relations and the other
tables of the chain are read without such a restriction.
-/
namespace ObjectSql

/-! ## Rows of a tenant -/

/-- Whether a table is mapped with a column for a tenant that is told at every execution. -/
def Catalog.TellsTenant (c : Catalog) (table column : String) : Prop :=
  ∃ k ∈ c.classes, k.table.name = table ∧ k.table.tenancy = some ⟨column, none⟩

def Datastore.isOf (db : Datastore) (column tenant : String) (row : Row) : Bool :=
  db.compare (row column) (.text tenant) = some true

/-- Whether two datastores agree on the rows of a tenant, and on all rows of tables without tenants. -/
structure Catalog.AgreeFor (c : Catalog) (tenant : String) (db : Datastore)
    (rows : String → List Row) : Prop where
  shared : ∀ table, (∀ column, ¬c.TellsTenant table column) → rows table = db.rows table
  owned : ∀ table column, c.TellsTenant table column →
    (rows table).filter (db.isOf column tenant) = (db.rows table).filter (db.isOf column tenant)

/-- The tables that are read without a restriction to the tenant: those of the other classes of the
chain, and those of relations that are read with their row. -/
inductive FetchScope.ReadsFreely (s : FetchScope) (requested : List RequestedMember) :
    String → Prop where
  | chain {depth : Nat} (h : s.Uses requested depth)
    (hfree : ∀ column, s.nearest 0 (·.table.tenancy) ≠ some (depth, ⟨column, none⟩)) :
    s.ReadsFreely requested (s.tableAt depth)
  | related {r : RequestedMember} {target : String} {k : ClassMapping} (h : r ∈ requested)
    (hrow : r.ReadsRow s target) (hk : s.catalog.getClass target = .ok k) :
    s.ReadsFreely requested k.table.name

/-- Whether a datastore answers the statement of a fetch. -/
def FetchRequest.ServedBy (r : FetchRequest) (env : FetchEnvironment) (o : FetchedObject)
    (db : Datastore) : Prop :=
  ∀ q params, r.Binds env o q (.ok params) →
    env.query (q.text (env.locks o.identity)).sql params q.resultTypes =
      .ok (db.result (r.valuation o.identity env.tenant) q.query).head?

def Datastore.serving (db : Datastore) (p : Profile) (tenant : String) (r : FetchRequest)
    (o : FetchedObject) : FetchEnvironment where
  profile := p
  locks _ := false
  tenant := some tenant
  acquireFault := none
  query _ _ _ :=
    .ok (r.statement.bind fun q => (db.result (r.valuation o.identity (some tenant)) q.query).head?)

theorem Datastore.serving_servedBy (db : Datastore) (p : Profile) (tenant : String)
    (r : FetchRequest) (o : FetchedObject) : r.ServedBy (db.serving p tenant r o) o db := by
  intro q params hbinds
  simp only [serving, hbinds.1, Option.bind_some]

/-! ## Results for a tenant -/

section

variable {s : FetchScope} {requested : List RequestedMember} {d : FetchDraft} {db : Datastore}
  {rows : String → List Row} {val : BoundParameter → Value}

/-- The joins of a draft read tables of the chain and of relations. -/
theorem FetchDraft.IsCompiled.join_rows (hd : d.IsCompiled s requested)
    (hrelated : ∀ j ∈ d.query.joins, j.kind = .leftOuter → s.ReadsFreely requested j.table.name)
    (hfree : ∀ table, s.ReadsFreely requested table → rows table = db.rows table)
    {places : Nat → Prop} (hplaces : ∀ depth, places depth → ∀ column,
      s.nearest 0 (·.table.tenancy) ≠ some (depth, ⟨column, none⟩))
    {j : Join} (hj : j ∈ d.query.joins) (hat : s.JoinsAt d.joined places j) :
    rows j.table.name = db.rows j.table.name := by
  rcases hat with houter | ⟨depth, hdepth, hmem, hname⟩
  · exact hfree _ (hrelated j hj houter)
  · have huses : s.Uses requested depth := (hd.uses depth).mp ⟨j.table, .inr hmem⟩
    exact hname ▸ hfree _ (.chain huses (hplaces depth hdepth))

/-- Where all tables but that of one class are read the same, so are the rows of that table that are
let through. -/
theorem FetchDraft.IsCompiled.filter_scopes_withRows (hd : d.IsCompiled s requested)
    (hrelated : ∀ j ∈ d.query.joins, j.kind = .leftOuter → s.ReadsFreely requested j.table.name)
    (hfree : ∀ table, s.ReadsFreely requested table → rows table = db.rows table)
    {depth : Nat} {t : TableRef} (ht : d.HasTable s depth t)
    (hothers : ∀ other, other ≠ depth → ∀ column,
      s.nearest 0 (·.table.tenancy) ≠ some (other, ⟨column, none⟩))
    {P : Row → Bool}
    (howned : (rows (s.tableAt depth)).filter P = (db.rows (s.tableAt depth)).filter P) :
    ((db.withRows rows).scopes val d.query).filter (Datastore.Admitted t.aliasName P) =
      (db.scopes val d.query).filter (Datastore.Admitted t.aliasName P) := by
  have htable := hd.table
  rcases ht with ⟨rfl, rfl⟩ | ht
  · refine Datastore.filter_scopes_of_primary ?_ fun j hj => ⟨?_, ?_⟩
    · rw [htable]
      exact howned
    · rw [htable]
      exact hd.joins.join_alias_ne hj (.inl rfl)
    · exact hd.join_rows hrelated hfree hothers hj (hd.joins.joinsAt j hj)
  · obtain ⟨before, j, after, hsplit, rfl, hkind, hname, hrest⟩ := hd.joins.split ht
    refine Datastore.filter_scopes_of_joined hsplit rfl hkind ?_
      (fun k hk => ⟨(hrest k hk).1, ?_⟩) ?_
    · rw [htable]
      exact hfree _ (.chain .primary (hothers _ (hd.joins.place_ne _ ht).symm))
    · have hmem : k ∈ d.query.joins := by
        rw [hsplit]
        exact ((List.sublist_cons_self j after).append_left before).subset hk
      exact hd.join_rows hrelated hfree hothers hmem (hrest k hk).2
    · rw [hname]
      exact howned

/-- A statement that binds a tenant holds of rows of this tenant only. -/
theorem FetchDraft.IsCompiled.isOf_of_holds (hd : d.IsCompiled s requested) {depth : Nat}
    {column : String} (hnearest : s.nearest 0 (·.table.tenancy) = some (depth, ⟨column, none⟩)) :
    ∃ t, d.HasTable s depth t ∧ ∀ (db : Datastore) (r : FetchRequest) values tenant env,
      db.holds (r.valuation values (some tenant)) env d.query.conditions →
        db.isOf column tenant (env t.aliasName) := by
  obtain ⟨tenancy, deleted, hconditions, htenancy, -⟩ := hd.conditions
  rw [hnearest] at htenancy
  cases htenancy with
  | @restricted _ t _ ht =>
    refine ⟨t, ht, fun db r values tenant env h => ?_⟩
    rw [hconditions, Datastore.holds_append, Datastore.holds_append,
      FetchDraft.holds_tenancy] at h
    obtain ⟨name, ⟨⟩, hname⟩ := h.1.2
    exact decide_eq_true hname

/-- The rows of other tenants in the table that is restricted make no difference to the result. -/
theorem FetchDraft.IsCompiled.result_withRows (hd : d.IsCompiled s requested)
    (hrelated : ∀ j ∈ d.query.joins, j.kind = .leftOuter → s.ReadsFreely requested j.table.name)
    (hfree : ∀ table, s.ReadsFreely requested table → rows table = db.rows table) {tenant : String}
    (howned : ∀ depth column, s.nearest 0 (·.table.tenancy) = some (depth, ⟨column, none⟩) →
      (rows (s.tableAt depth)).filter (db.isOf column tenant) =
        (db.rows (s.tableAt depth)).filter (db.isOf column tenant))
    (r : FetchRequest) (values : List Value) :
    (db.withRows rows).result (r.valuation values (some tenant)) d.query =
      db.result (r.valuation values (some tenant)) d.query := by
  by_cases hbound : ∃ depth column, s.nearest 0 (·.table.tenancy) = some (depth, ⟨column, none⟩)
  · obtain ⟨depth, column, hnearest⟩ := hbound
    have hothers (other : Nat) (hne : other ≠ depth) (column' : String) :
        s.nearest 0 (·.table.tenancy) ≠ some (other, ⟨column', none⟩) := by
      rw [hnearest]
      rintro ⟨⟩
      exact hne rfl
    obtain ⟨t, ht, hadmits⟩ := hd.isOf_of_holds hnearest
    exact Datastore.result_withRows_of_admitted (hadmits db r values tenant)
      (hd.filter_scopes_withRows hrelated hfree ht hothers (howned _ _ hnearest))
  · -- no table is restricted, so all of them are read freely
    have hnone (depth : Nat) (column : String) :
        s.nearest 0 (·.table.tenancy) ≠ some (depth, ⟨column, none⟩) :=
      fun hnearest => hbound ⟨depth, column, hnearest⟩
    refine Datastore.result_withRows_of_scopes (Datastore.scopes_withRows ?_ fun j hj =>
      hd.join_rows hrelated hfree (fun depth _ => hnone depth) hj (hd.joins.joinsAt j hj))
    rw [hd.table]
    exact hfree _ (.chain .primary (hnone _))

end

/-! ## Compiled statements -/

section

variable {c : Catalog} {p : Profile} {className : String} {fetch store : List Nat}
  {r : FetchRequest} {q : CompiledFetch} {s : FetchScope} {requested : List RequestedMember}

theorem FetchScope.IsOf.tellsTenant {key : FetchKey} (h : s.IsOf c key requested) {depth : Nat}
    {column : String} (hnearest : s.nearest 0 (·.table.tenancy) = some (depth, ⟨column, none⟩)) :
    c.TellsTenant (s.tableAt depth) column := by
  obtain ⟨-, k, hk, htenancy, -⟩ :=
    exists_of_findSome?_zipIdx (f := fun k : ClassMapping => k.table.tenancy) hnearest
  obtain ⟨-, -, -, -, hclasses⟩ := Catalog.chain_spec h.chain
  refine ⟨k, hclasses k (List.mem_of_getElem? hk), ?_, htenancy⟩
  rw [tableAt, classAt, List.getD_eq_getElem?_getD, hk, Option.getD_some]

/-- The outer joins of a compiled statement are those of relations that are read with their row. -/
theorem FetchRequest.Stages.readsFreely_of_outer {version : Option VersionMapping} {plan : FetchPlan}
    {d d' : FetchDraft} (h : r.Stages c p (.ofLists className fetch store) s requested version plan d)
    (hrestrict : FetchDraft.restrict s d = .ok d') :
    ∀ j ∈ d'.query.joins, j.kind = .leftOuter → s.ReadsFreely requested j.table.name := by
  intro j hj hkind
  obtain ⟨name, hsteps⟩ := h.planned.steps (fun target => ∃ r ∈ requested, r.ReadsRow s target)
    fun r hr target hrow => ⟨r, hr, hrow⟩
  rcases (hsteps.trans (FetchDraft.restrict_steps hrestrict)).leftOuter hj hkind with
    hstart | ⟨target, k, ⟨r, hr, hrow⟩, hk, hname⟩
  · cases hstart
  · exact hname ▸ .related hr hrow hk

/-- What comes of a statement follows from the rows of the tenant and from those that are read
freely. -/
theorem FetchRequest.compile_withRows (hr : compile c p (.ofLists className fetch store) = .ok r)
    (hq : r.statement = some q) {tenant : String} {db : Datastore} {rows : String → List Row}
    (hagree : c.AgreeFor tenant db rows)
    (hfree : ∀ s requested, FetchScope.ofKey c (.ofLists className fetch store) = .ok (s, requested) →
      ∀ table column, c.TellsTenant table column → s.ReadsFreely requested table →
        rows table = db.rows table) (values : List Value) :
    (db.withRows rows).result (r.valuation values (some tenant)) q.query =
      db.result (r.valuation values (some tenant)) q.query := by
  obtain ⟨s, requested, version, plan, d, hstages⟩ := compile_stages hr
  obtain ⟨d', hrestrict, rfl, hcompiled⟩ := hstages.restricted hq
  have hscope := FetchScope.ofKey_spec hstages.scope
  refine hcompiled.result_withRows (hstages.readsFreely_of_outer hrestrict) (fun table hreads => ?_)
    (fun depth column hnearest => hagree.owned _ _ (hscope.tellsTenant hnearest)) r values
  by_cases htells : ∃ column, c.TellsTenant table column
  · obtain ⟨column, htells⟩ := htells
    exact hfree s requested hstages.scope table column htells hreads
  · exact hagree.shared table fun column h => htells ⟨column, h⟩

end

/-! ## Executions for a tenant -/

namespace FetchRequest

variable {r : FetchRequest} {env : FetchEnvironment} {o : FetchedObject}

/-- An execution depends on the datastore by the answer to its statement. -/
theorem execute_congr {query : String → List Value → List String →
      Except DatastoreError (Option (List Value))}
    (h : ∀ q params, r.Binds env o q (.ok params) →
      query (q.text (env.locks o.identity)).sql params q.resultTypes =
        env.query (q.text (env.locks o.identity)).sql params q.resultTypes) :
    r.execute { env with query := query } o = r.execute env o := by
  unfold execute
  split
  · rfl
  · next q hq =>
    split
    · rfl
    · next hcached =>
      have hasked : ¬(r.isVersionOnly ∧ o.cachedVersion.isSome) := by simpa using hcached
      have hrow : r.queryRow q { env with query := query } o.identity =
          r.queryRow q env o.identity := by
        cases hbind : r.bindAll (q.text (env.locks o.identity)) o.identity env.tenant with
        | error e =>
          exact (r.queryRow_unbound { env with query := query } hbind).trans
            (r.queryRow_unbound env hbind).symm
        | ok params =>
          obtain hfault | ⟨e, hfault⟩ := Option.eq_none_or_eq_some env.acquireFault
          · have hanswer := h q params ⟨hq, hasked, hbind⟩
            rw [r.queryRow_answered env hbind hfault, ← hanswer]
            exact r.queryRow_answered { env with query := query } hbind hfault
          · exact (r.queryRow_refused { env with query := query } hbind hfault).trans
              (r.queryRow_refused env hbind hfault).symm
      rw [hrow]

/-- A fetch for a tenant is the same in two datastores that agree on the rows of the tenant, on the
tables without tenants, and on the tables with tenants that the statement reads freely. -/
theorem execute_for_tenant {c : Catalog} {p : Profile} {className : String} {fetch store : List Nat}
    (hr : compile c p (.ofLists className fetch store) = .ok r) {tenant : String}
    (htenant : env.tenant = some tenant) {db : Datastore} {rows : String → List Row}
    (hagree : c.AgreeFor tenant db rows)
    (hfree : ∀ s requested, FetchScope.ofKey c (.ofLists className fetch store) = .ok (s, requested) →
      ∀ table column, c.TellsTenant table column → s.ReadsFreely requested table →
        rows table = db.rows table)
    {query : String → List Value → List String → Except DatastoreError (Option (List Value))}
    (hserved : r.ServedBy env o db)
    (hserved' : r.ServedBy { env with query := query } o (db.withRows rows)) :
    r.execute { env with query := query } o = r.execute env o := by
  refine execute_congr fun q params hbinds => ?_
  have hresult := compile_withRows hr hbinds.1 hagree hfree o.identity
  rw [hserved q params hbinds, htenant, ← hresult, ← htenant]
  exact hserved' q params hbinds

end FetchRequest

/-! ## Tables that are read freely -/

/-- Invoices are documents of a customer; the rows of each of these classes belong to tenants. -/
def invoices : Catalog where
  classes := [
    { name := "Customer", table := ⟨"CUSTOMER", none, some ⟨"TENANT", none⟩, none, none⟩
      superclass := none, isAbstract := false, identity := some (.surrogate "ID" "long")
      members := [⟨5, "name", ["NAME"], "string", .scalar, none⟩] },
    { name := "Document", table := ⟨"DOCUMENT", none, some ⟨"TENANT", none⟩, none, none⟩
      superclass := none, isAbstract := false, identity := some (.surrogate "ID" "long")
      members := [⟨1, "title", ["TITLE"], "string", .scalar, none⟩] },
    { name := "Invoice", table := ⟨"INVOICE", none, some ⟨"TENANT", none⟩, none, none⟩
      superclass := some "Document", isAbstract := false, identity := none
      members := [⟨2, "customer", ["CUSTOMER_ID"], "long", .relation "Customer", none⟩] }]

def invoiceRow (tenant : String) : Row
  | "ID" => .int 1
  | "CUSTOMER_ID" => .int 1
  | "TENANT" => .text tenant
  | _ => .null

def documentRow (tenant : String) : Row
  | "ID" => .int 1
  | "TITLE" => .text "Secret"
  | "NAME" => .text "Ann"
  | "TENANT" => .text tenant
  | _ => .null

/-- An invoice of the north, for which there are neither a document nor a customer. -/
def northern : Datastore where
  rows table := if table = "INVOICE" then [invoiceRow "north"] else []
  equal v w := v == w
  equal_symm h := beq_iff_eq.mpr (beq_iff_eq.mp h).symm
  equal_trans h h' := beq_iff_eq.mpr ((beq_iff_eq.mp h).trans (beq_iff_eq.mp h'))
  compute _ _ _ := .null
  test _ _ _ := none

def withSouthern (table : String) : List Row :=
  northern.rows table ++ if table = "INVOICE" then [invoiceRow "south"]
    else if table = "DOCUMENT" ∨ table = "CUSTOMER" then [documentRow "south"] else []

theorem southern_agree : invoices.AgreeFor "north" northern withSouthern where
  shared table h := by
    have hmapped (name : String) (hname : ∃ k ∈ invoices.classes, k.table.name = name ∧
        k.table.tenancy = some ⟨"TENANT", none⟩) : table ≠ name := by
      rintro rfl
      exact h "TENANT" hname
    have hcustomer := hmapped "CUSTOMER" ⟨_, List.mem_cons_self, rfl, rfl⟩
    have hdocument := hmapped "DOCUMENT" ⟨_, .tail _ List.mem_cons_self, rfl, rfl⟩
    have hinvoice := hmapped "INVOICE" ⟨_, .tail _ (.tail _ List.mem_cons_self), rfl, rfl⟩
    simp [withSouthern, hcustomer, hdocument, hinvoice]
  owned table column h := by
    obtain ⟨k, hk, rfl, htenancy⟩ := h
    simp only [invoices, List.mem_cons, List.not_mem_nil, or_false] at hk
    rcases hk with rfl | rfl | rfl <;> cases htenancy <;> rfl

def invoice : FetchedObject := ⟨[.int 1], none, fun _ => .ok ()⟩

/-- A document of the south is read for its title, and a customer of the south for its name: both
belong to tables with tenants that the statement reads freely. -/
theorem FetchRequest.execute_sees_others : ∃ r env o query,
    compile invoices (Profile.ofVendor .mysql ⟨8, 0, 0⟩) (.ofLists "Invoice" [1, 2] []) = .ok r ∧
      env.tenant = some "north" ∧ invoices.AgreeFor "north" northern withSouthern ∧
      r.ServedBy env o northern ∧
      r.ServedBy { env with query := query } o (northern.withRows withSouthern) ∧
      ∀ e ∈ [FetchEvent.replaceField 1 (.scalar (.text "Secret")),
          .replaceField 2 (.object ⟨⟨"Customer", .surrogate (.int 1)⟩, none, [(5, .text "Ann")]⟩)],
        e ∈ (r.execute { env with query := query } o).events ∧ e ∉ (r.execute env o).events := by
  have hseen : (compile invoices (Profile.ofVendor .mysql ⟨8, 0, 0⟩)
      (.ofLists "Invoice" [1, 2] [])).toOption.any fun r =>
        ∀ e ∈ [FetchEvent.replaceField 1 (.scalar (.text "Secret")),
            .replaceField 2 (.object ⟨⟨"Customer", .surrogate (.int 1)⟩, none, [(5, .text "Ann")]⟩)],
          e ∈ (r.execute ((northern.withRows withSouthern).serving
            (Profile.ofVendor .mysql ⟨8, 0, 0⟩) "north" r invoice) invoice).events ∧
          e ∉ (r.execute (northern.serving
            (Profile.ofVendor .mysql ⟨8, 0, 0⟩) "north" r invoice) invoice).events := by
    decide +kernel
  obtain ⟨r, hr, hevents⟩ := Except.exists_of_any hseen
  exact ⟨r, northern.serving _ "north" r invoice, invoice, _, hr, rfl, southern_agree,
    northern.serving_servedBy _ _ r invoice,
    (northern.withRows withSouthern).serving_servedBy _ _ r invoice, of_decide_eq_true hevents⟩

def withSouthernInvoice (table : String) : List Row :=
  if table = "INVOICE" then [invoiceRow "south", invoiceRow "north"] else northern.rows table

/-- The invoice of the north is fetched with its customer whether there is one of the south or not. -/
theorem FetchRequest.execute_for_tenant_north : ∃ r,
    compile invoices (Profile.ofVendor .mysql ⟨8, 0, 0⟩) (.ofLists "Invoice" [2] []) = .ok r ∧
      r.execute ((northern.withRows withSouthernInvoice).serving
        (Profile.ofVendor .mysql ⟨8, 0, 0⟩) "north" r invoice) invoice =
      r.execute (northern.serving (Profile.ofVendor .mysql ⟨8, 0, 0⟩) "north" r invoice) invoice := by
  have hcompiled : (compile invoices (Profile.ofVendor .mysql ⟨8, 0, 0⟩)
      (.ofLists "Invoice" [2] [])).toOption.any fun _ => true := by decide +kernel
  obtain ⟨r, hr, -⟩ := Except.exists_of_any hcompiled
  have hagree : invoices.AgreeFor "north" northern withSouthernInvoice := by
    refine ⟨fun table h => if_neg ?_, fun table column h => ?_⟩
    · rintro rfl
      exact h "TENANT" ⟨_, .tail _ (.tail _ List.mem_cons_self), rfl, rfl⟩
    · obtain ⟨k, hk, rfl, htenancy⟩ := h
      simp only [invoices, List.mem_cons, List.not_mem_nil, or_false] at hk
      rcases hk with rfl | rfl | rfl <;> cases htenancy <;> rfl
  have hscope : FetchScope.ofKey invoices (.ofLists "Invoice" [2] []) = .ok
      (⟨invoices, (invoices.classes.drop 1).reverse, 0, [⟨none, 0, "ID", "long"⟩]⟩,
        [⟨0, ⟨2, "customer", ["CUSTOMER_ID"], "long", .relation "Customer", none⟩, false⟩]) := rfl
  have hfree : ∀ s requested,
      FetchScope.ofKey invoices (.ofLists "Invoice" [2] []) = .ok (s, requested) →
      ∀ table column, invoices.TellsTenant table column → s.ReadsFreely requested table →
        withSouthernInvoice table = northern.rows table := by
    intro s requested h table column _ hreads
    rw [hscope] at h
    cases h
    refine if_neg ?_
    cases hreads with
    | @chain depth _ hother =>
      match depth with
      | 0 => exact absurd rfl (hother "TENANT")
      | 1 => decide
      | _ + 2 =>
        have hempty : ("" : String) ≠ "INVOICE" := by decide
        exact hempty
    | related hr hrow hk =>
      obtain rfl := List.mem_singleton.mp hr
      cases hrow.1
      cases hk
      decide
  let env := northern.serving (Profile.ofVendor .mysql ⟨8, 0, 0⟩) "north" r invoice
  let query := ((northern.withRows withSouthernInvoice).serving
    (Profile.ofVendor .mysql ⟨8, 0, 0⟩) "north" r invoice).query
  have hsame : r.execute { env with query := query } invoice = r.execute env invoice :=
    execute_for_tenant hr rfl hagree hfree (northern.serving_servedBy _ _ r invoice)
      ((northern.withRows withSouthernInvoice).serving_servedBy _ _ r invoice)
  exact ⟨r, hr, hsame⟩

end ObjectSql
