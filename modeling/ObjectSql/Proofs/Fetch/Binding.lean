import ObjectSql.Proofs.Fetch.Execute
import ObjectSql.Proofs.Fetch.Plan
import ObjectSql.Proofs.Fetch.Rows
import ObjectSql.Proofs.Statement.Parameters

/-!
# Binding placeholders

The projection and the joins of a compiled statement have no placeholders. Its conditions have one for
every identity column in the order of the identity, one for the tenant if that is told at every
execution, and one with a fixed value for the mark of deleted rows.
-/
namespace ObjectSql

/-! ## Placeholders of columns -/

namespace Expr

theorem column_params (t : TableRef) (name logicalType : String) :
    (column t name logicalType).params = [] := rfl

theorem columnEq_params (t : TableRef) (name logicalType : String) (e : Expr) :
    (columnEq t name logicalType e).params = e.params := List.nil_append _

end Expr

theorem flatten_exprsParams_eq_nil {es : List Expr} (h : ∀ e ∈ es, e.params = []) :
    (exprsParams es).flatten = [] := by
  rw [exprsParams_eq_map, List.flatten_eq_nil_iff]
  intro params hparams
  obtain ⟨e, he, rfl⟩ := List.mem_map.mp hparams
  exact h e he

theorem flatten_columnsEq_params (left right : TableRef) (columns : List (String × String × String)) :
    (exprsParams (Expr.columnsEq left right columns)).flatten = [] := by
  refine flatten_exprsParams_eq_nil fun e he => ?_
  obtain ⟨⟨l, r, logicalType⟩, -, rfl⟩ := List.mem_map.mp he
  exact Expr.columnEq_params left l logicalType _

namespace FetchScope

variable {s : FetchScope}

theorem Joins.flatten_params {primary : TableRef} {js : List Join} {n : Nat}
    {joined : List (Nat × TableRef)} (h : s.Joins primary js n joined) :
    (joinsParams js).flatten = [] := by
  rw [joinsParams_eq_map]
  induction h with
  | nil => rfl
  | chain _ _ _ ih | related _ _ _ _ _ ih =>
    rw [List.map_append, List.flatten_append, ih, List.nil_append, List.map_singleton,
      List.flatten_singleton]
    exact flatten_columnsEq_params _ _ _

/-! ## Placeholders of a statement -/

def bindsTenant (s : FetchScope) : Bool :=
  (s.nearest 0 (·.table.tenancy)).any fun found => found.2.allowed.isNone

def marksDeleted (s : FetchScope) : Bool := (s.nearest 0 (·.table.softDelete)).isSome

def placeholders (s : FetchScope) : List BoundParameter :=
  s.identity.map (fun c => .deferred c.key c.position) ++
    (if s.bindsTenant then [.deferred .tenant 0] else []) ++
    (if s.marksDeleted then [.fixed .softDelete (.bool false)] else [])

theorem placeholders_ne_version : ∀ param ∈ s.placeholders, param.key ≠ .version := by
  have hidentity (c : IdentityColumn) : c.key ≠ .version := by
    cases hmember : c.member <;> simp [IdentityColumn.key, hmember]
  refine List.forall_mem_append.mpr ⟨List.forall_mem_append.mpr ⟨?_, ?_⟩, ?_⟩
  · exact List.forall_mem_map.mpr fun c _ => hidentity c
  · cases s.bindsTenant <;> simp [BoundParameter.deferred]
  · cases s.marksDeleted <;> simp [BoundParameter.fixed]

/-- Whether there is a value for every placeholder. -/
def CanBind (s : FetchScope) (values : List Value) (tenant : Option String) : Prop :=
  s.identity.length ≤ values.length ∧ (s.bindsTenant → tenant.isSome)

def boundValues (s : FetchScope) (values : List Value) (tenant : Option String) : List Value :=
  values.take s.identity.length ++ (if s.bindsTenant then (tenant.map Value.text).toList else []) ++
    (if s.marksDeleted then [.bool false] else [])

end FetchScope

namespace FetchDraft

variable {s : FetchScope} {d : FetchDraft}

theorem flatten_identityCondition_params (t : TableRef) (identity : List IdentityColumn) :
    (exprsParams (identity.map (identityCondition t))).flatten =
      identity.map fun c => .deferred c.key c.position := by
  rw [exprsParams_eq_map]
  induction identity with
  | nil => rfl
  | cons c identity ih =>
    rw [List.map_cons, List.map_cons, List.flatten_cons, ih, identityCondition,
      Expr.columnEq_params]
    rfl

theorem tenancyCondition_params (t : TableRef) (tenancy : TenancyMapping) :
    (tenancyCondition t tenancy).params =
      if tenancy.allowed.isNone then [.deferred .tenant 0] else [] := by
  unfold tenancyCondition
  cases tenancy.allowed with
  | none => exact Expr.columnEq_params t _ _ _
  | some allowed =>
    have hnames : (exprsParams (allowed.map fun name => Expr.literal (.text name))).flatten = [] := by
      refine flatten_exprsParams_eq_nil fun e he => ?_
      obtain ⟨name, -, rfl⟩ := List.mem_map.mp he
      rfl
    have hlist : ((Expr.column t tenancy.column "string").inList
        (allowed.map fun name => .literal (.text name))).params =
        if (allowed.map fun name => Expr.literal (.text name)).isEmpty then []
        else (Expr.column t tenancy.column "string").params ++
          (exprsParams (allowed.map fun name => Expr.literal (.text name))).flatten := rfl
    rw [hlist, hnames]
    split <;> rfl

theorem Restricts.flatten_tenancy_params {found : Option (Nat × TenancyMapping)}
    {added : List Expr} (h : d.Restricts s tenancyCondition found added) :
    (exprsParams added).flatten =
      if found.any fun found => found.2.allowed.isNone then [.deferred .tenant 0] else [] := by
  cases h with
  | unrestricted => rfl
  | restricted => exact (List.append_nil _).trans (tenancyCondition_params _ _)

theorem Restricts.flatten_deleted_params {found : Option (Nat × String)} {added : List Expr}
    (h : d.Restricts s deletedCondition found added) : (exprsParams added).flatten =
      if found.isSome then [.fixed .softDelete (.bool false)] else [] := by
  cases h with
  | unrestricted => rfl
  | restricted => exact (List.append_nil _).trans (Expr.columnEq_params _ _ _ _)

/-- Clauses that no step of the compiler changes have no placeholders. -/
theorem params_of_frame {q : Select} {table : String} (h : q.frame = (Select.ofName table).frame) :
    q.params = (exprsParams q.projection).flatten ++ (joinsParams q.joins).flatten ++
      (exprsParams q.conditions).flatten := by
  have hgroupBy : q.groupBy = [] := congrArg Select.groupBy h
  have hhaving : q.having = [] := congrArg Select.having h
  have hordering : q.ordering = [] := congrArg Select.ordering h
  cases q
  subst hgroupBy hhaving hordering
  simp [Select.params, exprsParams, itemsParams]

theorem IsCompiled.params {requested : List RequestedMember} (h : IsCompiled s requested d)
    (hd : d.Placed) : d.query.params = s.placeholders := by
  obtain ⟨tenancy, deleted, hconditions, htenancy, hdeleted⟩ := h.conditions
  have hprojection : (exprsParams d.query.projection).flatten = [] := by
    refine flatten_exprsParams_eq_nil fun e he => ?_
    obtain ⟨t, column, logicalType, rfl⟩ := hd.columns e he
    exact Expr.column_params t column logicalType
  rw [params_of_frame h.frame, hprojection, FetchScope.Joins.flatten_params h.joins, hconditions,
    exprsParams_append, exprsParams_append, List.flatten_append, List.flatten_append,
    flatten_identityCondition_params, htenancy.flatten_tenancy_params,
    hdeleted.flatten_deleted_params]
  rfl

end FetchDraft

/-! ## Values of placeholders -/

namespace FetchRequest

variable {r : FetchRequest} {s : FetchScope} {values : List Value} {tenant : Option String}

/-- Identity columns take the first values, one each. -/
theorem bind_identity {identity : List IdentityColumn}
    (hr : r.identity = identity.map fun x => (x.key, x.position))
    (hnodup : (identity.map fun x => (x.member, x.position)).Nodup) {bound : List Value} :
    (identity.map fun c => BoundParameter.deferred c.key c.position).mapM
        (r.bindParameter values tenant) = .ok bound ↔
      identity.length ≤ values.length ∧ bound = values.take identity.length := by
  have hslot (i : Nat) (hi : i < identity.length) (v : Value) :
      r.bindParameter values tenant (.deferred identity[i].key identity[i].position) = .ok v ↔
        values[i]? = some v := by
    rw [bindParameter_slot hr hnodup hi rfl rfl rfl]
    cases values[i]? <;> simp
  rw [mapM_eq_ok_iff, List.forall₂_map_left_iff, List.forall₂_iff_get]
  simp only [List.get_eq_getElem]
  constructor
  · rintro ⟨hlength, hbound⟩
    have hget (i : Nat) (hi : i < identity.length) : values[i]? = some bound[i] :=
      (hslot i hi _).mp (hbound i hi (hlength ▸ hi))
    have hle : identity.length ≤ values.length := by
      by_contra hlt
      have hlast := hget values.length (by omega)
      simp at hlast
    refine ⟨hle, List.ext_getElem (by simp; omega) fun i hi hi' => ?_⟩
    have hvalue := hget i (hlength ▸ hi)
    rw [List.getElem?_eq_getElem (by omega), Option.some_inj] at hvalue
    rw [List.getElem_take, hvalue]
  · rintro ⟨hle, rfl⟩
    refine ⟨by simp; omega, fun i hi hi' => (hslot i hi _).mpr ?_⟩
    rw [List.getElem_take, List.getElem?_eq_getElem (by omega)]

/-- The tenant is taken where it is told at every execution. -/
theorem bind_tenant {binds : Bool} {bound : List Value} :
    (if binds then [BoundParameter.deferred .tenant 0] else []).mapM
        (r.bindParameter values tenant) = .ok bound ↔
      (binds → tenant.isSome) ∧ bound = if binds then (tenant.map Value.text).toList else [] := by
  rw [mapM_eq_ok_iff]
  cases binds with
  | false => simp
  | true =>
    cases tenant <;> simp [List.forall₂_cons_left_iff, bindParameter, BoundParameter.deferred]

theorem bind_deleted {marks : Bool} {bound : List Value} :
    (if marks then [BoundParameter.fixed .softDelete (.bool false)] else []).mapM
        (r.bindParameter values tenant) = .ok bound ↔
      bound = if marks then [.bool false] else [] := by
  rw [mapM_eq_ok_iff]
  cases marks <;> simp [List.forall₂_cons_left_iff, bindParameter, BoundParameter.fixed]

/-- The placeholders of a statement can be bound just if there are enough values and a tenant where it
is needed. -/
theorem bind_placeholders (hr : r.identity = s.identity.map fun x => (x.key, x.position))
    (hnodup : (s.identity.map fun x => (x.member, x.position)).Nodup) {bound : List Value} :
    s.placeholders.mapM (r.bindParameter values tenant) = .ok bound ↔
      s.CanBind values tenant ∧ bound = s.boundValues values tenant := by
  rw [FetchScope.placeholders, List.mapM_append, List.mapM_append]
  constructor
  · intro h
    obtain ⟨front, hfront, h⟩ := Except.bind_eq_ok.mp h
    obtain ⟨mark, hmark, h⟩ := Except.bind_eq_ok.mp h
    obtain ⟨key, hkey, hfront⟩ := Except.bind_eq_ok.mp hfront
    obtain ⟨name, hname, hfront⟩ := Except.bind_eq_ok.mp hfront
    cases hfront
    cases h
    obtain ⟨hlength, rfl⟩ := (bind_identity hr hnodup).mp hkey
    obtain ⟨htenant, rfl⟩ := bind_tenant.mp hname
    obtain rfl := bind_deleted.mp hmark
    exact ⟨⟨hlength, htenant⟩, rfl⟩
  · rintro ⟨⟨hlength, htenant⟩, rfl⟩
    rw [(bind_identity hr hnodup).mpr ⟨hlength, rfl⟩, bind_tenant.mpr ⟨htenant, rfl⟩,
      bind_deleted.mpr rfl]
    rfl

/-! ## Bound statements -/

/-- A statement runs with the values that its placeholders are bound to. -/
theorem Ends.binds_of_query {env : FetchEnvironment} {o : FetchedObject} {events : List FetchEvent}
    {result : Except FetchError FetchOutcome} (h : r.Ends env o events result) {sql : String}
    {params : List Value} {types : List String} (hquery : .query sql params types ∈ events) :
    ∃ q, r.Binds env o q (.ok params) := by
  cases h with
  | unasked _ hwrites _ => exact absurd hquery (not_mem_of_writes hwrites.events rfl)
  | unbound | refused => simp at hquery
  | @answered q params' sql' events' _ hbinds _ hfollows =>
    have hnot : .query sql params types ∉ events' := not_mem_of_writes hfollows.writes rfl
    simp only [List.mem_cons, reduceCtorEq, FetchEvent.query.injEq, hnot, or_false,
      false_or] at hquery
    exact ⟨q, hquery.2.1 ▸ hbinds⟩

/-- Both texts of a compiled statement bind the identity in the order of its columns, then the tenant
if it is told at every execution, then the mark of deleted rows. Nothing else can happen than that a
value is missing, which is a fault of metadata, and an execution passes no other values. -/
theorem bindAll_in_order {c : Catalog} (hc : c.DistinctKeys) {p : Profile} {className : String}
    {fetch store : List Nat} {r : FetchRequest} {q : CompiledFetch}
    (hr : compile c p (.ofLists className fetch store) = .ok r) (hq : r.statement = some q) :
    ∃ s requested, FetchScope.ofKey c (.ofLists className fetch store) = .ok (s, requested) ∧
      (∀ lock values tenant,
        (s.CanBind values tenant →
          r.bindAll (q.text lock) values tenant = .ok (s.boundValues values tenant)) ∧
        (¬s.CanBind values tenant →
          ∃ fault, r.bindAll (q.text lock) values tenant = .error (.metadata fault))) ∧
      ∀ env o,
        (∀ sql params types, .query sql params types ∈ (r.execute env o).events →
          s.CanBind o.identity env.tenant ∧ params = s.boundValues o.identity env.tenant) ∧
        (¬s.CanBind o.identity env.tenant → ¬(r.isVersionOnly ∧ o.cachedVersion.isSome) →
          ∃ fault, (r.execute env o).result = .error (.metadata fault)) := by
  obtain ⟨s, requested, version, plan, d, hstages⟩ := compile_stages hr
  obtain ⟨d', hrestrict, rfl, hcompiled⟩ := hstages.restricted hq
  have hscope := FetchScope.ofKey_spec hstages.scope
  have hplaced : d'.Placed := (FetchDraft.restrict_steps (K := fun _ => True)
    (T := fun _ => True) hrestrict).placed hstages.planned.placed
  have hnodup := Catalog.identityColumns_nodup hc hscope.identity
  have hbound (lock : Bool) (values : List Value) (tenant : Option String) (bound : List Value) :
      r.bindAll ((d'.finish p).text lock) values tenant = .ok bound ↔
        s.CanBind values tenant ∧ bound = s.boundValues values tenant := by
    have hparams : ((d'.finish p).text lock).params = s.placeholders := by
      cases lock <;> exact (Select.toSql_params p _ d'.query).trans (hcompiled.params hplaced)
    rw [bindAll, hparams, bind_placeholders hstages.identity hnodup]
  have hunbound (lock : Bool) (values : List Value) (tenant : Option String)
      (hcan : ¬s.CanBind values tenant) :
      ∃ fault, r.bindAll ((d'.finish p).text lock) values tenant = .error (.metadata fault) := by
    cases hbind : r.bindAll ((d'.finish p).text lock) values tenant with
    | ok bound => exact absurd ((hbound lock values tenant bound).mp hbind).1 hcan
    | error e =>
      obtain ⟨fault, rfl⟩ := r.bindAll_onlyFaults _ values tenant e hbind
      exact ⟨fault, rfl⟩
  refine ⟨s, requested, hstages.scope, fun lock values tenant =>
    ⟨fun hcan => (hbound lock values tenant _).mpr ⟨hcan, rfl⟩, hunbound lock values tenant⟩,
    fun env o => ⟨fun sql params types hquery => ?_, fun hcan hasked => ?_⟩⟩
  · obtain ⟨q, hstatement, -, hbind⟩ := (r.execute_ends env o).binds_of_query hquery
    cases hq.symm.trans hstatement
    exact (hbound _ o.identity env.tenant params).mp hbind
  · obtain ⟨fault, hfault⟩ := hunbound (env.locks o.identity) o.identity env.tenant hcan
    have hbinds : r.Binds env o (d'.finish p) (.error (.metadata fault)) := ⟨hq, hasked, hfault⟩
    exact ⟨fault, ((r.execute_ends env o).unbound_events hbinds).2⟩

end FetchRequest

/-- Entries of accounts, whose key is that of the account, in two columns, and a number. -/
def ledger : Catalog where
  classes := [
    { name := "Entry", table := ⟨"ENTRY", none, some ⟨"TENANT", none⟩, some "DELETED", none⟩
      superclass := none, isAbstract := false, identity := some (.application [2, 1])
      members := [⟨1, "number", ["NUMBER"], "long", .scalar, none⟩,
        ⟨2, "account", ["BANK", "ACCOUNT"], "string", .scalar, none⟩,
        ⟨3, "amount", ["AMOUNT"], "decimal", .scalar, none⟩] }]

theorem FetchRequest.bindAll_in_order_entry :
    ∃ r q, compile ledger (Profile.ofVendor .mysql ⟨8, 0, 0⟩) (.ofLists "Entry" [3] []) = .ok r ∧
      r.statement = some q ∧
      r.bindAll (q.text true) [.text "b", .text "a", .int 7] (some "north") =
        .ok [.text "b", .text "a", .int 7, .text "north", .bool false] := by
  have hdistinct : ledger.DistinctKeys := by
    intro k hk members hmembers
    obtain rfl := List.mem_singleton.mp hk
    cases hmembers
    decide
  have hcompiled : (compile ledger (Profile.ofVendor .mysql ⟨8, 0, 0⟩)
      (.ofLists "Entry" [3] [])).toOption.any (·.statement.isSome) := by decide +kernel
  obtain ⟨r, hr, hstatement⟩ := Except.exists_of_any hcompiled
  obtain ⟨q, hq⟩ := Option.isSome_iff_exists.mp hstatement
  have hscope : FetchScope.ofKey ledger (.ofLists "Entry" [3] []) = .ok
      (⟨ledger, ledger.classes, 0, [⟨some 2, 0, "BANK", "string"⟩,
        ⟨some 2, 1, "ACCOUNT", "string"⟩, ⟨some 1, 0, "NUMBER", "long"⟩]⟩,
        [⟨0, ⟨3, "amount", ["AMOUNT"], "decimal", .scalar, none⟩, false⟩]) := rfl
  obtain ⟨s, requested, hscope', hbind, -⟩ := bindAll_in_order hdistinct hr hq
  rw [hscope] at hscope'
  cases hscope'
  exact ⟨r, q, hr, hq, (hbind true _ (some "north")).1 ⟨by decide, fun _ => rfl⟩⟩

end ObjectSql
