import ObjectSql.Proofs.Fetch.Calls
import ObjectSql.Proofs.Fetch.Placement
import ObjectSql.Proofs.Fetch.Result
import ObjectSql.Proofs.Statement.Restriction

/-!
# Readings of a relation

A relation is read in three ways: as a reference by its foreign key, as an object with the row that
it refers to, and as a reference to store. The first and the last read the columns of the foreign
key in their order. The other one reads the identity of the related row key by key, which is the
same as long as the columns of one key stand side by side. So the three agree on every row whose
foreign key is the identity of the row that is joined to it.
-/
namespace ObjectSql

open FetchError FetchDraft

/-! ## Relations and rows -/

structure Relation where
  number : Nat
  /-- The foreign key. -/
  columns : List String
  target : String
  identity : List IdentityColumn

namespace Relation

def reference (rel : Relation) (row : Row) : Option ObjectReference :=
  (IdentityValue.ofColumns (rel.columns.map row) (isSurrogate rel.identity)).map (⟨rel.target, ·⟩)

/-- Whether a row refers to another one, or to none if that is the row of nulls of an outer join. -/
def Fits (rel : Relation) (row related : Row) : Prop :=
  (∀ column ∈ rel.columns, row column = .null) ∧ related = Row.null ∨
    rel.columns.map row = rel.identity.map fun x => related x.column

/-- Only the foreign key of a row counts. -/
theorem reference_congr {rel : Relation} {row row' : Row}
    (h : ∀ column ∈ rel.columns, row column = row' column) :
    rel.reference row = rel.reference row' := by
  rw [reference, reference, List.map_congr_left h]

end Relation

/-! ## Identities of rows -/

theorem IdentityValue.ofColumns_eq_none {values : List Value} (h : values.all Value.isNull)
    (surrogate : Bool) : ofColumns values surrogate = none := by
  unfold ofColumns
  exact if_pos h

theorem Relation.Fits.ofColumns_eq {rel : Relation} {row related : Row} (h : rel.Fits row related)
    (surrogate : Bool) :
    IdentityValue.ofColumns (rel.identity.map fun x => related x.column) surrogate =
      IdentityValue.ofColumns (rel.columns.map row) surrogate := by
  rcases h with ⟨hnull, rfl⟩ | heq
  · have hrow : (rel.columns.map row).all Value.isNull := by
      rw [List.all_map, List.all_eq_true]
      intro column hcolumn
      rw [Function.comp_apply, hnull column hcolumn]
      rfl
    have hrelated : (rel.identity.map fun x => Row.null x.column).all Value.isNull := by
      rw [List.all_map, List.all_eq_true]
      exact fun x _ => rfl
    rw [IdentityValue.ofColumns_eq_none hrow, IdentityValue.ofColumns_eq_none hrelated]
  · rw [heq]

theorem readRelated_reference {row : List Value} {child : ClassLayout} {target : String}
    {identity : IdentityValue} {keys : List MappingKey} {o : LoadedObject}
    (h : readRelated row child target identity keys = .ok o) :
    o.reference = ⟨target, identity⟩ := by
  obtain ⟨discriminator, -, h⟩ := Except.bind_eq_ok.mp h
  obtain ⟨fields, -, h⟩ := Except.bind_eq_ok.mp h
  cases h
  rfl

section

variable {s : FetchScope} {q : Select} {l : Layout} {cl child : ClassLayout} {depth number : Nat}
  {columns : List String} {identity : List IdentityColumn} {owner related : TableRef}

theorem FetchDraft.HasForeignKeyAt.readIdentity
    (h : HasForeignKeyAt s q l depth number columns owner) (db : Datastore)
    (val : BoundParameter → Value) (rows : RowScope) (surrogate : Bool) :
    readIdentity (q.projection.map (db.value val rows)) l [.member number] surrogate =
      .ok (IdentityValue.ofColumns (columns.map (rows owner.aliasName)) surrogate) := by
  have hread := h.stands.readAll db val rows
  simp only [ObjectSql.readIdentity, List.mapM_cons, List.mapM_nil, hread]
  simp [bind, Except.bind, pure, Except.pure, Except.map]

/-- The columns of the keys in turn are the columns of the identity in their order. -/
theorem readIdentity_of_keys {projection : List Expr} {t : TableRef}
    (hgrouped : Catalog.Grouped identity)
    (h : ∀ key ∈ identity.map IdentityColumn.key, StandsAt projection t
      ((identity.filter fun x => x.key = key).map IdentityColumn.column) (l.positions key))
    (db : Datastore) (val : BoundParameter → Value) (rows : RowScope) (surrogate : Bool) :
    readIdentity (projection.map (db.value val rows)) l
        (distinctKeys (identity.map IdentityColumn.key)) surrogate =
      .ok (IdentityValue.ofColumns (identity.map fun x => rows t.aliasName x.column)
        surrogate) := by
  have hkeys : (distinctKeys (identity.map IdentityColumn.key)).mapM
      (fun key => readAll (projection.map (db.value val rows)) (l.positions key)) =
        .ok ((distinctKeys (identity.map IdentityColumn.key)).map fun key =>
          (identity.filter fun x => x.key = key).map fun x => rows t.aliasName x.column) := by
    rw [mapM_eq_ok_iff, List.forall₂_map_right_iff, List.forall₂_same]
    intro key hkey
    rw [(h key (mem_distinctKeys.mp hkey)).readAll db val rows, List.map_map]
    rfl
  have hflatten : ((distinctKeys (identity.map IdentityColumn.key)).map fun key =>
      (identity.filter fun x => x.key = key).map fun x => rows t.aliasName x.column).flatten =
        identity.map fun x => rows t.aliasName x.column := by
    rw [← List.flatMap_def, ← List.map_flatMap, flatMap_distinctKeys hgrouped]
  rw [ObjectSql.readIdentity, hkeys, Except.map, hflatten]

end

/-! ## Fetches that read a relation -/

/-- A compiled fetch of a class that declares a relation. -/
structure RelationFetch (rel : Relation) where
  catalog : Catalog
  profile : Profile
  className : String
  fetch : List Nat
  store : List Nat
  scope : FetchScope
  requested : List RequestedMember
  depth : Nat
  member : MemberMapping
  request : FetchRequest
  ofKey : FetchScope.ofKey catalog (.ofLists className fetch store) = .ok (scope, requested)
  declares : Catalog.Declares scope.chain rel.number depth member
  kind : member.kind = .relation rel.target
  columns : member.columns = rel.columns
  identity : catalog.identityColumns rel.target = .ok rel.identity
  compiled : FetchRequest.compile catalog profile (.ofLists className fetch store) = .ok request

namespace RelationFetch

variable {rel : Relation}

def FetchesReference (f : RelationFetch rel) : Prop :=
  rel.number ∈ f.fetch ∧ readsRelatedRow f.scope f.member rel.target = .ok false

def FetchesObject (f : RelationFetch rel) : Prop :=
  rel.number ∈ f.fetch ∧ readsRelatedRow f.scope f.member rel.target = .ok true

def Stores (f : RelationFetch rel) : Prop := rel.number ∈ f.store ∧ rel.number ∉ f.fetch

/-- The statement of a fetch, and the table in it of the class that declares the relation. -/
def ReadsFrom (f : RelationFetch rel) (q : CompiledFetch) (owner : TableRef) : Prop :=
  f.request.statement = some q ∧ f.scope.Owns q.query f.depth owner

/-- The table of the target is joined to that of the owner on the identity of the target. -/
def JoinsTarget (f : RelationFetch rel) (q : CompiledFetch) (owner related : TableRef) : Prop :=
  FetchScope.relatedJoin owner related rel.columns rel.identity ∈ q.query.joins ∧
    ∃ k, f.catalog.getClass rel.target = .ok k ∧ related.name = k.table.name

variable {f : RelationFetch rel}

/-! ### Requested relations -/

theorem mem_requested_of_fetch (f : RelationFetch rel) (h : rel.number ∈ f.fetch) :
    (⟨f.depth, f.member, false⟩ : RequestedMember) ∈ f.requested := by
  obtain ⟨depth, m, hdeclares, hmem⟩ := (FetchScope.ofKey_spec f.ofKey).fetched rel.number
    (FetchKey.mem_memberSet.mpr h)
  obtain ⟨rfl, rfl⟩ := f.declares.unique hdeclares
  exact hmem

theorem mem_requested_of_store (f : RelationFetch rel) (h : f.Stores) :
    (⟨f.depth, f.member, true⟩ : RequestedMember) ∈ f.requested := by
  obtain ⟨fetched, stored, hrequested, -, hstored⟩ := FetchScope.ofKey_listings f.ofKey
  obtain ⟨r, hr, hnumber⟩ := List.mem_map.mp ((hstored.mem_iff rel.number).mpr h)
  have hmem : r ∈ f.requested := hrequested ▸ List.mem_append_right _ hr
  have hdeclares := (FetchScope.ofKey_spec f.ofKey).declared r hmem
  rw [hnumber] at hdeclares
  obtain ⟨hdepth, hm⟩ := f.declares.unique hdeclares
  have hstoreOnly := hstored.storeOnly r hr
  cases r
  simp_all

/-- How a requested member is planned, and what its draft leads to. -/
theorem exists_planned (f : RelationFetch rel) {r : RequestedMember} (hr : r ∈ f.requested) :
    ∃ (plan₁ plan₂ : FetchPlan) (d₁ d₂ d : FetchDraft),
      plan₁.addMember f.scope d₁ r = .ok (plan₂, d₂) ∧ d₁.Placed ∧ d₁.WellJoined f.scope ∧
        d₂.Placed ∧ plan₂.fields ⊆ f.request.fields ∧ plan₂.store ⊆ f.request.store ∧
        Steps f.scope (· ≠ .member r.member.number) (fun _ => True) d₂ d ∧
        (d.query.projection ≠ [] → ∃ d', restrict f.scope d = .ok d' ∧
          f.request.statement = some (d'.finish f.profile)) := by
  obtain ⟨s, requested, version, plan, d, h⟩ := FetchRequest.compile_stages f.compiled
  obtain ⟨hscope, hrequested⟩ := Prod.mk.inj (Except.ok.inj (h.scope.symm.trans f.ofKey))
  subst hscope hrequested
  obtain ⟨d₀, hversion, hmembers⟩ := h.selected
  have hstart := start_placed f.className (f.scope.tableAt f.scope.primary)
  have hd₀ := (selectVersion_steps (K := fun _ => True) (T := fun _ => True) hstart trivial
    hversion).1.placed hstart
  obtain ⟨plan₁, plan₂, d₁, d₂, hmember, hd₁, hjoined, hd₂, hfields, hstore, hsteps⟩ :=
    FetchPlan.addMembers_split hd₀ ((selectVersion_grows hversion).joins .nil)
      (FetchScope.nodup_requested h.scope) hr hmembers
  refine ⟨plan₁, plan₂, d₁, d₂, d, hmember, hd₁, hjoined, hd₂, h.fields ▸ hfields.subset,
    h.store ▸ hstore.subset, hsteps, fun hne => ?_⟩
  rcases h.statement with ⟨hempty, -⟩ | ⟨-, hstatement⟩
  · exact absurd hempty hne
  · exact hstatement

/-- A relation that is not fetched with its row is read by its foreign key. -/
theorem exists_foreignKey (f : RelationFetch rel) (hidentity : rel.identity ≠ []) {storeOnly : Bool}
    (hr : (⟨f.depth, f.member, storeOnly⟩ : RequestedMember) ∈ f.requested)
    (hway : storeOnly = true ∨ readsRelatedRow f.scope f.member rel.target = .ok false) :
    ∃ q owner, f.request.statement = some q ∧
      HasForeignKeyAt f.scope q.query q.layout.layout f.depth rel.number rel.columns owner ∧
      if storeOnly then ⟨rel.number, rel.target, isSurrogate rel.identity⟩ ∈ f.request.store
      else .reference rel.number rel.target (isSurrogate rel.identity) ∈ f.request.fields := by
  obtain ⟨plan₁, plan₂, d₁, d₂, d, hmember, hd₁, hjoined, hd₂, hfields, hstore, hsteps,
    hstatement⟩ := f.exists_planned hr
  obtain ⟨surrogate, hforeign, hplan⟩ := FetchPlan.addMember_foreignKey f.kind hway hmember
  obtain ⟨identity, owner, hcolumns, hwidth, rfl, hat⟩ := selectForeignKey_at hd₁ hjoined hforeign
  rw [(FetchScope.ofKey_spec f.ofKey).catalog, f.identity] at hcolumns
  cases hcolumns
  dsimp only at hat hplan hsteps hwidth
  rw [f.declares.number_eq] at hat hplan hsteps
  rw [f.columns] at hat hwidth
  have hd := hsteps.placed hd₂
  have hat := hat.steps hd₂ hsteps (by simp)
  have hne : rel.columns ≠ [] := by
    rintro heq
    rw [heq] at hwidth
    exact hidentity (List.eq_nil_of_length_eq_zero hwidth)
  obtain ⟨d', hrestrict, hq⟩ := hstatement (hat.stands.ne_nil hne)
  have hlast := restrict_steps (K := fun _ => False) (T := fun _ => True) hrestrict
  refine ⟨_, owner, hq, (hat.steps hd hlast not_false).finish (hlast.placed hd) f.profile, ?_⟩
  cases storeOnly with
  | true => exact hstore hplan
  | false => exact hfields hplan

/-- A relation that is fetched with its row is read from the table of its target. -/
theorem exists_related (f : RelationFetch rel) (hidentity : rel.identity ≠ [])
    (h : f.FetchesObject) :
    ∃ q owner related, f.request.statement = some q ∧
      HasRelatedAt f.scope q.query q.layout f.depth rel.number rel.columns rel.identity owner
        related ∧ (∃ k, f.catalog.getClass rel.target = .ok k ∧ related.name = k.table.name) ∧
      .object rel.number rel.target (isSurrogate rel.identity)
        (distinctKeys (rel.identity.map IdentityColumn.key)) ∈ f.request.fields := by
  obtain ⟨plan₁, plan₂, d₁, d₂, d, hmember, hd₁, hjoined, hd₂, hfields, -, hsteps, hstatement⟩ :=
    f.exists_planned (f.mem_requested_of_fetch h.1)
  obtain ⟨surrogate, keys, hrelated, hplan⟩ :=
    FetchPlan.addMember_related f.kind rfl h.2 hmember
  obtain ⟨identity, k, owner, related, hcolumns, hk, hname, rfl, rfl, hat⟩ :=
    selectRelated_at hjoined hrelated
  rw [(FetchScope.ofKey_spec f.ofKey).catalog] at hcolumns hk
  rw [f.identity] at hcolumns
  cases hcolumns
  dsimp only at hat hplan hsteps
  rw [f.declares.number_eq] at hat hplan hsteps
  rw [f.columns] at hat
  have hat := hat.steps hsteps (by simp)
  obtain ⟨d', hrestrict, hq⟩ := hstatement (hat.projection_ne_nil hidentity)
  have hlast := restrict_steps (K := fun _ => False) (T := fun _ => True) hrestrict
  exact ⟨_, owner, related, hq, (hat.steps hlast not_false).finish f.profile, ⟨k, hk, hname⟩,
    hfields hplan⟩

end RelationFetch

/-! ## What is set -/

def FetchEvent.valueOf (n : Nat) : FetchEvent → Option FieldValue
  | .replaceField m v => if m = n then some v else none
  | _ => none

def FetchEvent.referenceOf (n : Nat) : FetchEvent → Option (Option ObjectReference)
  | .storeReference m reference => if m = n then some reference else none
  | _ => none

/-- Of the events for a list of plans one is about the member of a plan. -/
theorem filterMap_reads {α β : Type} {read : α → Except FetchError β} {member : α → Nat}
    (event : Nat → β → FetchEvent) (get : FetchEvent → Option β) {n : Nat}
    (hget : ∀ m b, get (event m b) = if m = n then some b else none) {as : List α} {bs : List β}
    (h : as.mapM read = .ok bs) (hnodup : (as.map member).Nodup) {a : α} (ha : a ∈ as)
    (hn : member a = n) :
    ∃ b, read a = .ok b ∧
      (List.zipWith (fun a b => event (member a) b) as bs).filterMap get = [b] := by
  have hall := mapM_eq_ok h
  clear h
  have hother {as : List α} {bs : List β} (hall : List.Forall₂ (fun a b => read a = .ok b) as bs)
      (hnot : n ∉ as.map member) :
      (List.zipWith (fun a b => event (member a) b) as bs).filterMap get = [] := by
    induction hall with
    | nil => rfl
    | cons _ _ ih =>
      rw [List.map_cons, List.mem_cons, not_or] at hnot
      rw [List.zipWith_cons_cons, List.filterMap_cons, hget, if_neg (Ne.symm hnot.1)]
      exact ih hnot.2
  induction hall with
  | nil => cases ha
  | @cons a' b as bs hb hall ih =>
    obtain ⟨hnot, hnodup⟩ := List.nodup_cons.mp hnodup
    rw [List.zipWith_cons_cons, List.filterMap_cons, hget]
    rcases List.mem_cons.mp ha with rfl | ha
    · rw [if_pos hn]
      exact ⟨b, hb, by rw [hother hall (hn ▸ hnot)]⟩
    · have hne : member a' ≠ n := by
        rintro heq
        exact hnot (List.mem_map.mpr ⟨a, ha, hn.trans heq.symm⟩)
      rw [if_neg hne]
      exact ih hnodup ha

namespace RelationFetch

variable {rel : Relation} {f : RelationFetch rel} {q : CompiledFetch} {rows : RowScope}

structure Run (f : RelationFetch rel) (q : CompiledFetch) (rows : RowScope) where
  db : Datastore
  val : BoundParameter → Value
  env : FetchEnvironment
  object : FetchedObject
  answered : f.request.Answered env object q (q.query.projection.map (db.value val rows))

namespace Run

def events (run : f.Run q rows) : List FetchEvent :=
  (f.request.execute run.env run.object).events

/-- What the relation is set to last. -/
def field (run : f.Run q rows) : Option FieldValue :=
  (run.events.filterMap (·.valueOf rel.number)).getLast?

def stored (run : f.Run q rows) : Option (Option ObjectReference) :=
  (run.events.filterMap (·.referenceOf rel.number)).getLast?

def row (run : f.Run q rows) : List Value := q.query.projection.map (run.db.value run.val rows)

end Run

/-- No member is read twice. -/
theorem nodup_members (f : RelationFetch rel) (u : MemberUse) : (f.request.members u).Nodup := by
  obtain ⟨s, requested, version, plan, d, h⟩ := FetchRequest.compile_stages f.compiled
  rw [h.members_eq u]
  exact (FetchScope.members_of_use h.scope u).1.imp Nat.ne_of_lt

theorem loadDeferred_events (r : FetchRequest) (o : FetchedObject) :
    ∀ e ∈ (r.loadDeferred o).events, ∃ n, e = .loadDeferred n := by
  unfold FetchRequest.loadDeferred
  induction r.deferred with
  | nil => simp [FetchRun.forEach, FetchRun.done]
  | cons n ns ih =>
    cases hload : o.loadDeferred n with
    | error _ =>
      simp only [FetchRun.forEach, hload]
      intro e he
      exact ⟨n, List.mem_singleton.mp he⟩
    | ok _ =>
      simp only [FetchRun.forEach, hload]
      intro e he
      rcases List.mem_cons.mp he with rfl | he
      · exact ⟨n, rfl⟩
      · exact ih e he

/-- An answered execution sets what its plans read, each list in its order; after that there are
only members that the object loads. -/
theorem Run.exists_reads (run : f.Run q rows) (hq : f.request.statement = some q)
    (hread : f.request.fields ≠ [] ∨ f.request.store ≠ []) :
    ∃ before values references deferred,
      f.request.fields.mapM (·.read f.request.className q.layout run.row) = .ok values ∧
      f.request.store.mapM (·.read q.layout.layout run.row) = .ok references ∧
      (∀ e ∈ deferred, ∃ n, e = .loadDeferred n) ∧
      run.events = before ++
        List.zipWith (fun plan v => .replaceField plan.member v) f.request.fields values ++
          List.zipWith (fun plan v => .storeReference plan.member v) f.request.store references ++
            deferred := by
  obtain ⟨s, requested, version, plan, d, hstages⟩ := FetchRequest.compile_stages f.compiled
  have hrow : q.query.projection.length ≤ run.row.length :=
    Nat.le_of_eq (List.length_map _).symm
  obtain ⟨v, values, references, hvalues, hreferences, happlied⟩ :=
    (hstages.laidOut hq).applyRow hrow
  have hasked : ¬(f.request.isVersionOnly ∧ run.object.cachedVersion.isSome) := by
    rintro ⟨honly, -⟩
    simp only [FetchRequest.isVersionOnly, Bool.and_eq_true, List.isEmpty_iff] at honly
    exact hread.elim (· honly.1.1.2) (· honly.1.2)
  obtain ⟨sql, params, hrun⟩ := run.answered.execute hq hasked happlied
  refine ⟨[.lockMode run.object.identity, .acquire, .query sql params q.resultTypes, .release] ++
    f.request.versionCalls v, values, references, _, hvalues, hreferences,
    loadDeferred_events f.request run.object, ?_⟩
  rw [Run.events, hrun]
  simp only [List.append_assoc]

theorem Run.field_eq (run : f.Run q rows) (hq : f.request.statement = some q) {plan : FieldPlan}
    (hplan : plan ∈ f.request.fields) (hn : plan.member = rel.number) :
    ∃ v, plan.read f.request.className q.layout run.row = .ok v ∧ run.field = some v := by
  obtain ⟨before, values, references, deferred, hvalues, -, hdeferred, hevents⟩ :=
    run.exists_reads hq (.inl (List.ne_nil_of_mem hplan))
  obtain ⟨v, hv, hset⟩ := filterMap_reads .replaceField
    (FetchEvent.valueOf rel.number) (fun _ _ => rfl) hvalues (f.nodup_members .field) hplan hn
  have hstored : (List.zipWith (fun plan v => FetchEvent.storeReference plan.member v)
      f.request.store references).filterMap (FetchEvent.valueOf rel.number) = [] := by
    refine List.filterMap_eq_nil_iff.mpr fun e he => ?_
    obtain ⟨i, hi, rfl⟩ := List.getElem_of_mem he
    rw [List.getElem_zipWith]
    rfl
  have hloaded : deferred.filterMap (FetchEvent.valueOf rel.number) = [] := by
    refine List.filterMap_eq_nil_iff.mpr fun e he => ?_
    obtain ⟨n, rfl⟩ := hdeferred e he
    rfl
  refine ⟨v, hv, ?_⟩
  rw [field, hevents, List.filterMap_append, List.filterMap_append, List.filterMap_append, hset,
    hstored, hloaded, List.append_nil, List.append_nil, List.getLast?_concat]

theorem Run.stored_eq (run : f.Run q rows) (hq : f.request.statement = some q) {plan : StorePlan}
    (hplan : plan ∈ f.request.store) (hn : plan.member = rel.number) :
    ∃ reference, plan.read q.layout.layout run.row = .ok reference ∧
      run.stored = some reference := by
  obtain ⟨before, values, references, deferred, -, hreferences, hdeferred, hevents⟩ :=
    run.exists_reads hq (.inr (List.ne_nil_of_mem hplan))
  obtain ⟨reference, hreference, hset⟩ := filterMap_reads .storeReference
    (FetchEvent.referenceOf rel.number) (fun _ _ => rfl) hreferences
    (f.nodup_members .stored) hplan hn
  have hloaded : deferred.filterMap (FetchEvent.referenceOf rel.number) = [] := by
    refine List.filterMap_eq_nil_iff.mpr fun e he => ?_
    obtain ⟨n, rfl⟩ := hdeferred e he
    rfl
  refine ⟨reference, hreference, ?_⟩
  rw [stored, hevents, List.filterMap_append, List.filterMap_append, hset, hloaded, List.append_nil,
    List.getLast?_concat]

/-! ### Readings -/

variable {owner related : TableRef}

theorem Run.field_reference (run : f.Run q rows) (hq : f.request.statement = some q)
    (hat : HasForeignKeyAt f.scope q.query q.layout.layout f.depth rel.number rel.columns owner)
    (hplan : .reference rel.number rel.target (isSurrogate rel.identity) ∈ f.request.fields) :
    run.field = some ((rel.reference (rows owner.aliasName)).elim .null .reference) := by
  obtain ⟨v, hv, hfield⟩ := run.field_eq hq hplan rfl
  rw [FieldPlan.read, Run.row, hat.readIdentity] at hv
  cases hv
  rw [hfield, Relation.reference]
  cases IdentityValue.ofColumns (rel.columns.map (rows owner.aliasName))
    (isSurrogate rel.identity) <;> rfl

theorem Run.stored_reference (run : f.Run q rows) (hq : f.request.statement = some q)
    (hat : HasForeignKeyAt f.scope q.query q.layout.layout f.depth rel.number rel.columns owner)
    (hplan : ⟨rel.number, rel.target, isSurrogate rel.identity⟩ ∈ f.request.store) :
    run.stored = some (rel.reference (rows owner.aliasName)) := by
  obtain ⟨reference, hreference, hstored⟩ := run.stored_eq hq hplan rfl
  rw [StorePlan.read, Run.row, hat.readIdentity] at hreference
  cases hreference
  exact hstored

theorem Run.field_object (run : f.Run q rows) (hkeys : f.catalog.DistinctKeys)
    (hq : f.request.statement = some q)
    (hat : HasRelatedAt f.scope q.query q.layout f.depth rel.number rel.columns rel.identity owner
      related)
    (hplan : .object rel.number rel.target (isSurrogate rel.identity)
      (distinctKeys (rel.identity.map IdentityColumn.key)) ∈ f.request.fields)
    (hfits : rel.Fits (rows owner.aliasName) (rows related.aliasName)) :
    match rel.reference (rows owner.aliasName) with
    | none => run.field = some .null
    | some reference => ∃ o, run.field = some (.object o) ∧ o.reference = reference := by
  obtain ⟨v, hv, hfield⟩ := run.field_eq hq hplan rfl
  obtain ⟨child, hchild, hstands⟩ := hat.stands
  simp only [FieldPlan.read, hchild, Run.row,
    readIdentity_of_keys (Catalog.identityColumns_grouped hkeys f.identity) hstands,
    hfits.ofColumns_eq] at hv
  rw [Relation.reference]
  cases hid : IdentityValue.ofColumns (rel.columns.map (rows owner.aliasName))
    (isSurrogate rel.identity) with
  | none =>
    rw [hid] at hv
    cases hv
    exact hfield
  | some id =>
    rw [hid] at hv
    obtain ⟨o, ho, rfl⟩ := Except.map_eq_ok.mp hv
    exact ⟨o, hfield, readRelated_reference ho⟩

/-- The reference that a relation is fetched as, the reference in the object that it is fetched as
and the reference that is stored for it are the same, or there is none of them, on every row whose
foreign key is the identity of the row that is joined to it, or null where there is none. -/
theorem readings_agree {rel : Relation} (hidentity : rel.identity ≠ [])
    (f₀ f₁ f₂ : RelationFetch rel) (hreference : f₀.FetchesReference)
    (hobject : f₁.FetchesObject) (hstore : f₂.Stores) (hkeys : f₁.catalog.DistinctKeys) :
    ∃ q₀ q₁ q₂ owner₀ owner₁ owner₂ related,
      f₀.ReadsFrom q₀ owner₀ ∧ f₁.ReadsFrom q₁ owner₁ ∧ f₂.ReadsFrom q₂ owner₂ ∧
      f₁.JoinsTarget q₁ owner₁ related ∧
      ∀ {rows₀ rows₁ rows₂ : RowScope} (run₀ : f₀.Run q₀ rows₀) (run₁ : f₁.Run q₁ rows₁)
        (run₂ : f₂.Run q₂ rows₂),
        (∀ column ∈ rel.columns,
          rows₀ owner₀.aliasName column = rows₁ owner₁.aliasName column ∧
            rows₂ owner₂.aliasName column = rows₁ owner₁.aliasName column) →
        rel.Fits (rows₁ owner₁.aliasName) (rows₁ related.aliasName) →
        match rel.reference (rows₁ owner₁.aliasName) with
        | none => run₀.field = some .null ∧ run₁.field = some .null ∧ run₂.stored = some none
        | some reference => run₀.field = some (.reference reference) ∧
            (∃ o, run₁.field = some (.object o) ∧ o.reference = reference) ∧
              run₂.stored = some (some reference) := by
  obtain ⟨q₀, owner₀, hq₀, hat₀, hplan₀⟩ := f₀.exists_foreignKey hidentity
    (f₀.mem_requested_of_fetch hreference.1) (.inr hreference.2)
  obtain ⟨q₁, owner₁, related, hq₁, hat₁, htarget, hplan₁⟩ := f₁.exists_related hidentity hobject
  obtain ⟨q₂, owner₂, hq₂, hat₂, hplan₂⟩ := f₂.exists_foreignKey hidentity
    (f₂.mem_requested_of_store hstore) (.inl rfl)
  refine ⟨q₀, q₁, q₂, owner₀, owner₁, owner₂, related, ⟨hq₀, hat₀.owns⟩, ⟨hq₁, hat₁.owns⟩,
    ⟨hq₂, hat₂.owns⟩, ⟨hat₁.joined, htarget⟩, fun run₀ run₁ run₂ hsame hfits => ?_⟩
  have hfield₀ := run₀.field_reference hq₀ hat₀ hplan₀
  have hfield₁ := run₁.field_object hkeys hq₁ hat₁ hplan₁ hfits
  have hstored₂ := run₂.stored_reference hq₂ hat₂ hplan₂
  rw [Relation.reference_congr fun column hcolumn => (hsame column hcolumn).1] at hfield₀
  rw [Relation.reference_congr fun column hcolumn => (hsame column hcolumn).2] at hstored₂
  cases hread : rel.reference _ with
  | none =>
    rw [hread] at hfield₀ hfield₁ hstored₂
    exact ⟨hfield₀, hfield₁, hstored₂⟩
  | some reference =>
    rw [hread] at hfield₀ hfield₁ hstored₂
    exact ⟨hfield₀, hfield₁, hstored₂⟩

def payments (depth : Option Nat) : Catalog where
  classes := [
    { name := "Entry", table := ⟨"ENTRY", none, none, none, none⟩, superclass := none
      isAbstract := false, identity := some (.application [2, 1])
      members := [⟨1, "number", ["NUMBER"], "long", .scalar, none⟩,
        ⟨2, "account", ["BANK", "ACCOUNT"], "string", .scalar, none⟩] },
    { name := "Payment", table := ⟨"PAYMENT", none, none, none, none⟩, superclass := none
      isAbstract := false, identity := some (.surrogate "ID" "long")
      members := [⟨7, "entry", ["E_BANK", "E_ACCOUNT", "E_NUMBER"], "object", .relation "Entry",
        depth⟩] }]

/-- The key of an entry lists its account first, which has two columns. -/
def paidEntry : Relation where
  number := 7
  columns := ["E_BANK", "E_ACCOUNT", "E_NUMBER"]
  target := "Entry"
  identity := [⟨some 2, 0, "BANK", "string"⟩, ⟨some 2, 1, "ACCOUNT", "string"⟩,
    ⟨some 1, 0, "NUMBER", "long"⟩]

def paymentRow : Row
  | "E_BANK" | "BANK" => .text "North"
  | "E_ACCOUNT" | "ACCOUNT" => .text "Rent"
  | "E_NUMBER" | "NUMBER" => .int 3
  | _ => .null

def paymentStore : Datastore := animalStore.withRows fun _ => [paymentRow]

section

variable {depth : Option Nat} {fetch store : List Nat} {storeOnly : Bool}

def SelectsEntry (depth : Option Nat) (fetch store : List Nat) (storeOnly : Bool) : Prop :=
  FetchScope.ofKey (payments depth) (.ofLists "Payment" fetch store) = .ok
    (⟨payments depth, (payments depth).classes.drop 1, 0, [⟨none, 0, "ID", "long"⟩]⟩,
      [⟨0, ⟨7, "entry", paidEntry.columns, "object", .relation "Entry", depth⟩, storeOnly⟩])

def paymentFetch (request : FetchRequest) (hselects : SelectsEntry depth fetch store storeOnly)
    (hrequest : FetchRequest.compile (payments depth) (.ofVendor .mysql ⟨8, 0, 0⟩)
      (.ofLists "Payment" fetch store) = .ok request) : RelationFetch paidEntry where
  catalog := payments depth
  profile := .ofVendor .mysql ⟨8, 0, 0⟩
  className := "Payment"
  fetch := fetch
  store := store
  scope := _
  requested := _
  depth := 0
  member := _
  request := request
  ofKey := hselects
  declares := ⟨⟨_, rfl, rfl⟩, fun i hi => absurd hi (Nat.not_lt_zero i)⟩
  kind := rfl
  columns := rfl
  identity := rfl
  compiled := hrequest

theorem exists_paymentFetch (hselects : SelectsEntry depth fetch store storeOnly)
    (hcompiled : (FetchRequest.compile (payments depth) (.ofVendor .mysql ⟨8, 0, 0⟩)
      (.ofLists "Payment" fetch store)).toOption.any fun r => r.statement.any fun q =>
        (r.bindAll (q.text false) [.int 1] none).toOption.any fun _ => true) :
    ∃ (request : FetchRequest) (hrequest : _) (q : CompiledFetch), request.statement = some q ∧
      Nonempty ((paymentFetch request hselects hrequest).Run q fun _ => paymentRow) := by
  obtain ⟨request, hrequest, hstatement⟩ := Except.exists_of_any hcompiled
  obtain ⟨q, hq, hbinds⟩ := (Option.any_eq_true _ _).mp hstatement
  obtain ⟨params, hbind, -⟩ := Except.exists_of_any hbinds
  exact ⟨request, hrequest, q, hq, ⟨{
    db := paymentStore
    val := fun _ => .null
    env := answering
      (q.query.projection.map (paymentStore.value (fun _ => .null) fun _ => paymentRow))
    object := ⟨[.int 1], none, fun _ => .ok ()⟩
    answered := ⟨rfl, params, hbind, rfl⟩ }⟩⟩

end

theorem payments_distinctKeys : (payments none).DistinctKeys := by
  intro k hk members hmembers
  simp only [payments, List.mem_cons, List.not_mem_nil, or_false] at hk
  rcases hk with rfl | rfl
  · cases hmembers
    decide
  · cases hmembers

/-- The entry of a payment has the same three values in each reading. -/
theorem readings_agree_entry :
    ∃ (f₀ f₁ f₂ : RelationFetch paidEntry) (q₀ q₁ q₂ : CompiledFetch)
      (run₀ : f₀.Run q₀ fun _ => paymentRow) (run₁ : f₁.Run q₁ fun _ => paymentRow)
      (run₂ : f₂.Run q₂ fun _ => paymentRow),
      f₀.FetchesReference ∧ f₁.FetchesObject ∧ f₂.Stores ∧ f₁.catalog.DistinctKeys ∧
      run₀.field = some (.reference ⟨"Entry", .compound [.text "North", .text "Rent", .int 3]⟩) ∧
      (∃ o, run₁.field = some (.object o) ∧
        o.reference = ⟨"Entry", .compound [.text "North", .text "Rent", .int 3]⟩) ∧
      run₂.stored =
        some (some ⟨"Entry", .compound [.text "North", .text "Rent", .int 3]⟩) := by
  have hfetch (depth : Option Nat) : SelectsEntry depth [7] [] false := rfl
  have hstore : SelectsEntry none [] [7] true := rfl
  obtain ⟨r₀, hr₀, q₀, hq₀, ⟨run₀⟩⟩ := exists_paymentFetch (hfetch (some 0)) (by decide +kernel)
  obtain ⟨r₁, hr₁, q₁, hq₁, ⟨run₁⟩⟩ := exists_paymentFetch (hfetch none) (by decide +kernel)
  obtain ⟨r₂, hr₂, q₂, hq₂, ⟨run₂⟩⟩ := exists_paymentFetch hstore (by decide +kernel)
  have hreference : (paymentFetch r₀ (hfetch (some 0)) hr₀).FetchesReference :=
    ⟨List.mem_cons_self, rfl⟩
  have hobject : (paymentFetch r₁ (hfetch none) hr₁).FetchesObject := ⟨List.mem_cons_self, rfl⟩
  have hstores : (paymentFetch r₂ hstore hr₂).Stores := ⟨List.mem_cons_self, List.not_mem_nil⟩
  obtain ⟨q₀', q₁', q₂', _, _, _, _, h₀, h₁, h₂, -, hagree⟩ :=
    readings_agree (by decide) _ _ _ hreference hobject hstores payments_distinctKeys
  obtain rfl : q₀ = q₀' := Option.some.inj (hq₀.symm.trans h₀.1)
  obtain rfl : q₁ = q₁' := Option.some.inj (hq₁.symm.trans h₁.1)
  obtain rfl : q₂ = q₂' := Option.some.inj (hq₂.symm.trans h₂.1)
  exact ⟨_, _, _, q₀, q₁, q₂, run₀, run₁, run₂, hreference, hobject, hstores,
    payments_distinctKeys, hagree run₀ run₁ run₂ (fun _ _ => ⟨rfl, rfl⟩) (.inr rfl)⟩

end RelationFetch

end ObjectSql
