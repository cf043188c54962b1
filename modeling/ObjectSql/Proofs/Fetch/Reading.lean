import ObjectSql.Proofs.Fetch.Binding

/-!
# Reading rows

A compiled request tells a place of its rows for everything that it hands to an object. Whatever a row
of the projected width holds, it is read to its end; only a member that the object loads itself can
fail after that.
-/
namespace ObjectSql

/-! ## Reads that succeed -/

def Succeeds {α : Type} (x : Except FetchError α) : Prop := ∃ a, x = .ok a

namespace Succeeds

variable {α β : Type} {x : Except FetchError α} {f : α → Except FetchError β}

theorem ok (a : α) : Succeeds (.ok a) := ⟨a, rfl⟩

theorem bind (hx : Succeeds x) (hf : ∀ a, Succeeds (f a)) : Succeeds (x >>= f) := by
  obtain ⟨a, rfl⟩ := hx
  exact hf a

theorem map (hx : Succeeds x) (g : α → β) : Succeeds (x.map g) := by
  obtain ⟨a, rfl⟩ := hx
  exact ok (g a)

theorem mapM {as : List α} (hf : ∀ a ∈ as, Succeeds (f a)) : Succeeds (as.mapM f) := by
  induction as with
  | nil => exact ok []
  | cons a as ih =>
    obtain ⟨ha, has⟩ := List.forall_mem_cons.mp hf
    rw [List.mapM_cons]
    exact bind ha fun b => bind (ih has) fun bs => ok (b :: bs)

end Succeeds

section

variable {row : List Value} {n : Nat} {l : Layout} {child : ClassLayout}

theorem readAt_succeeds {position : Nat} (hrow : n ≤ row.length)
    (hposition : 1 ≤ position ∧ position ≤ n) : Succeeds (readAt row position) := by
  obtain ⟨i, rfl⟩ := Nat.exists_eq_add_of_le' hposition.1
  have hi : i < row.length := by omega
  exact ⟨row[i], by simp [readAt, List.getElem?_eq_getElem hi]⟩

theorem readAll_succeeds {positions : List Nat} (hrow : n ≤ row.length)
    (h : ∀ i ∈ positions, 1 ≤ i ∧ i ≤ n) : Succeeds (readAll row positions) :=
  .mapM fun i hi => readAt_succeeds hrow (h i hi)

theorem readFirst_succeeds {positions : List Nat} (hrow : n ≤ row.length)
    (h : ∀ i ∈ positions, 1 ≤ i ∧ i ≤ n) (hne : positions ≠ []) :
    Succeeds (readFirst row positions) := by
  cases positions with
  | nil => exact absurd rfl hne
  | cons i positions => exact readAt_succeeds hrow (h i List.mem_cons_self)

theorem Layout.Within.positions (h : l.Within n) (key : MappingKey) :
    ∀ i ∈ l.positions key, 1 ≤ i ∧ i ≤ n := by
  intro i hi
  obtain ⟨e, he, hmem⟩ := Layout.mem_positions hi
  exact h e he i hmem

theorem Layout.Within.find? (h : l.Within n) {key : MappingKey} {m : MemberLayout}
    (hm : l.find? key = some m) : ∀ i ∈ m.columns, 1 ≤ i ∧ i ≤ n := by
  obtain ⟨e, he, rfl⟩ := Layout.mem_of_find? hm
  exact h e he

theorem readIdentity_succeeds (h : l.Within n) (hrow : n ≤ row.length) (keys : List MappingKey)
    (surrogate : Bool) : Succeeds (readIdentity row l keys surrogate) :=
  .map (.mapM fun key _ => readAll_succeeds hrow (h.positions key)) _

/-- Every key of a related layout has a value in the row. -/
theorem readRelated_succeeds (h : child.IsRelated n) (hrow : n ≤ row.length) (target : String)
    (identity : IdentityValue) (keys : List MappingKey) :
    Succeeds (readRelated row child target identity keys) := by
  have hplaced {key : MappingKey} {m : MemberLayout} (hm : child.layout.find? key = some m) :
      Succeeds (readFirst row m.columns) := by
    obtain ⟨e, he, rfl⟩ := Layout.mem_of_find? hm
    exact readFirst_succeeds hrow (h.within e he) (h.placed e he)
  have hmember {number : Nat} (hnumber : number ∈ child.layout.resultMembers) :
      Succeeds (readFirst row (child.layout.positions (.member number))) := by
    obtain ⟨⟨key, m⟩, he, hkey⟩ := List.mem_filterMap.mp hnumber
    obtain ⟨m', hm'⟩ := Layout.exists_find? he
    cases key with
    | member k =>
      dsimp only at hkey hm'
      split at hkey
      · cases hkey
      · cases hkey
        simpa [Layout.positions, hm'] using hplaced hm'
    | _ => cases hkey
  refine .bind ?_ fun discriminator => .bind (.mapM fun number hnumber => ?_) fun fields => .ok _
  · cases hfind : child.layout.find? .discriminator with
    | none => exact .ok none
    | some m => exact .map (hplaced hfind) some
  · exact .map (hmember (List.mem_filter.mp hnumber).1) _

end

/-! ## Requests that are laid out -/

/-- A request tells a place for everything that is read from a row of its statement. -/
structure FetchRequest.LaidOut (c : Catalog) (r : FetchRequest) (q : CompiledFetch) : Prop where
  within : q.layout.layout.Within q.query.projection.length
  children : ∀ e ∈ q.layout.children, e.2.IsRelated q.query.projection.length
  columns : ∀ e ∈ q.query.projection, ∃ t column logicalType, e = .column t column logicalType
  types : q.resultTypes = q.query.projection.map Expr.logicalType
  /-- A version has one column, or there is none to read. -/
  version : r.hasVersion ∧ q.layout.layout.HasColumns .version 1 ∨
    ¬r.hasVersion ∧ q.layout.layout.find? .version = none
  fields : ∀ plan ∈ r.fields, plan.HasLayout c q.layout
  store : ∀ plan ∈ r.store, plan.HasLayout c q.layout

theorem FetchRequest.Stages.laidOut {c : Catalog} {p : Profile} {className : String}
    {fetch store : List Nat} {r : FetchRequest} {q : CompiledFetch} {s : FetchScope}
    {requested : List RequestedMember} {version : Option VersionMapping} {plan : FetchPlan}
    {d : FetchDraft} (h : r.Stages c p (.ofLists className fetch store) s requested version plan d)
    (hq : r.statement = some q) : r.LaidOut c q := by
  obtain ⟨d', hrestrict, rfl, hcompiled⟩ := h.restricted hq
  have hplanned := h.planned
  have hsteps := FetchDraft.restrict_steps (K := fun _ => False) (T := fun _ => True) hrestrict
  have hd := hplanned.placed
  have hd' := hsteps.placed hd
  have hcatalog : s.catalog = c := (FetchScope.ofKey_spec h.scope).catalog
  have hparams : ∀ param ∈ (d'.query.toSql p false).params, param.key ≠ .version := by
    rw [Select.toSql_params, hcompiled.params hd']
    exact FetchScope.placeholders_ne_version
  have hcolumns {key : MappingKey} {width : Nat} (hkey : d.layout.layout.HasColumns key width) :
      (d'.finish p).layout.layout.HasColumns key width := by
    refine Layout.HasColumns.recordParameters hd'.sorted ?_ _
    rwa [Layout.HasColumns, hsteps.find?_eq hd not_false]
  have hchild (number : Nat) : (d'.finish p).layout.child? number = d.layout.child? number :=
    hsteps.child?_eq not_false
  refine ⟨?_, hd'.children, hd'.columns, hd'.types, ?_, fun f hf => ?_, fun f hf => ?_⟩
  · exact Layout.forall_recordParameters (Q := fun is => ∀ i ∈ is, 1 ≤ i ∧ i ≤ _) hd'.within
      (by simp) _
  · rw [h.hasVersion]
    rcases hplanned.versioned with ⟨hsome, hkey⟩ | ⟨rfl, hnone⟩
    · exact .inl ⟨hsome, hcolumns hkey⟩
    · refine .inr ⟨by simp, (Layout.find?_recordParameters hd'.sorted hparams).trans ?_⟩
      rw [hsteps.find?_eq hd not_false, hnone]
  · rw [h.fields] at hf
    exact hcatalog ▸ (hplanned.layout.fields f hf).mono (fun _ => hcolumns) (hchild _)
  · rw [h.store] at hf
    exact hcatalog ▸ (hplanned.layout.store f hf).mono fun _ => hcolumns

/-! ## Runs over a row -/

theorem FetchRun.forEach_reads {α β : Type} {read : α → Except FetchError β}
    {event : α → β → FetchEvent} {as : List α} {bs : List β} (h : as.mapM read = .ok bs) :
    forEach (fun a => do
      let b ← ofExcept (read a)
      emit (event a b)) as = ⟨List.zipWith event as bs, .ok ()⟩ := by
  induction mapM_eq_ok h with
  | nil => rfl
  | cons hb _ ih =>
    rw [forEach, ih (mapM_eq_ok_iff.mpr ‹_›), hb]
    rfl

namespace FetchRequest

open FetchRun

variable {c : Catalog} {r : FetchRequest} {q : CompiledFetch} {row : List Value}

def versionCalls (r : FetchRequest) (v : Value) : List FetchEvent :=
  if r.hasVersion then
    .setVersion v :: (r.versionMember.map fun m => .replaceField m (.ofValue v)).toList
  else []

theorem LaidOut.applyVersion (h : r.LaidOut c q) (hrow : q.query.projection.length ≤ row.length) :
    ∃ v, r.applyVersion q row = ⟨r.versionCalls v, .ok ()⟩ := by
  unfold FetchRequest.applyVersion versionCalls
  rcases h.version with ⟨hversion, m, hfind, hlength⟩ | ⟨hversion, hfind⟩
  · have hne : m.columns ≠ [] := List.ne_nil_of_length_eq_add_one hlength
    obtain ⟨v, hv⟩ := readFirst_succeeds hrow (h.within.find? hfind) hne
    refine ⟨v, ?_⟩
    simp only [hfind, hv, if_pos hversion]
    cases r.versionMember <;> rfl
  · simp only [hfind, if_neg hversion]
    exact ⟨.null, rfl⟩

theorem LaidOut.readField (h : r.LaidOut c q) (hrow : q.query.projection.length ≤ row.length)
    {plan : FieldPlan} (hplan : plan ∈ r.fields) :
    Succeeds (plan.read r.className q.layout row) := by
  have hlayout := h.fields plan hplan
  cases plan with
  | scalar number =>
    have hne : q.layout.layout.positions (.member number) ≠ [] :=
      List.ne_nil_of_length_eq_add_one (Layout.HasColumns.length_positions hlayout)
    exact .map (readFirst_succeeds hrow (h.within.positions _) hne) _
  | reference number target surrogate =>
    exact .map (readIdentity_succeeds h.within hrow _ surrogate) _
  | object number target surrogate keys =>
    obtain ⟨child, hchild, -⟩ := hlayout
    have hrelated := h.children _ (ClassLayout.mem_of_child? hchild)
    simp only [FieldPlan.read, hchild]
    refine .bind (readIdentity_succeeds hrelated.within hrow keys surrogate) fun id => ?_
    cases id with
    | none => exact .ok _
    | some id => exact .map (readRelated_succeeds hrelated hrow target id keys) _

theorem LaidOut.readReference (h : r.LaidOut c q) (hrow : q.query.projection.length ≤ row.length)
    (plan : StorePlan) : Succeeds (plan.read q.layout.layout row) :=
  .map (readIdentity_succeeds h.within hrow _ plan.surrogate) _

/-- A row that is wide enough is read to its end. -/
theorem LaidOut.applyRow (h : r.LaidOut c q) (hrow : q.query.projection.length ≤ row.length) :
    ∃ v values references, r.fields.mapM (·.read r.className q.layout row) = .ok values ∧
      r.store.mapM (·.read q.layout.layout row) = .ok references ∧
      r.applyRow q row = ⟨r.versionCalls v ++
        (List.zipWith (fun plan v => .replaceField plan.member v) r.fields values ++
          List.zipWith (fun plan v => .storeReference plan.member v) r.store references),
        .ok ()⟩ := by
  obtain ⟨v, hversion⟩ := h.applyVersion hrow
  obtain ⟨values, hvalues⟩ := Succeeds.mapM fun plan hplan => h.readField hrow hplan
  obtain ⟨references, hreferences⟩ := Succeeds.mapM fun plan (_ : plan ∈ r.store) =>
    h.readReference hrow plan
  refine ⟨v, values, references, hvalues, hreferences, ?_⟩
  simp only [FetchRequest.applyRow, hversion, forEach_reads hvalues, forEach_reads hreferences]
  rfl

/-- The object loads its members in order, up to the first that fails. -/
theorem loadDeferred_cases (r : FetchRequest) (o : FetchedObject) :
    (∀ m ∈ r.deferred, o.loadDeferred m = .ok ()) ∧
        r.loadDeferred o = ⟨r.deferred.map .loadDeferred, .ok ()⟩ ∨
      ∃ m ∈ r.deferred, ∃ e, o.loadDeferred m = .error e ∧
        (r.loadDeferred o).result = .error e := by
  unfold loadDeferred
  induction r.deferred with
  | nil => exact .inl ⟨by simp, rfl⟩
  | cons m ms ih =>
    cases hload : o.loadDeferred m with
    | error e =>
      refine .inr ⟨m, List.mem_cons_self, e, hload, ?_⟩
      simp only [forEach, hload]
      rfl
    | ok _ =>
      rcases ih with ⟨hms, hrun⟩ | ⟨m', hm', e, hfails, hresult⟩
      · refine .inl ⟨List.forall_mem_cons.mpr ⟨hload, hms⟩, ?_⟩
        simp only [forEach, hload, hrun]
        rfl
      · refine .inr ⟨m', List.mem_cons_of_mem m hm', e, hfails, ?_⟩
        rw [← hresult, forEach]
        simp only [hload]
        rfl

/-! ## Executions that are answered -/

variable {env : FetchEnvironment} {o : FetchedObject}

/-- Whether the datastore has a row for the statement of a fetch. -/
def Answered (r : FetchRequest) (env : FetchEnvironment) (o : FetchedObject) (q : CompiledFetch)
    (row : List Value) : Prop :=
  env.acquireFault = none ∧
    ∃ params, r.bindAll (q.text (env.locks o.identity)) o.identity env.tenant = .ok params ∧
      env.query (q.text (env.locks o.identity)).sql params q.resultTypes = .ok (some row)

/-- After the answer the row is read, and then the object loads its members. -/
theorem Answered.execute (h : r.Answered env o q row) (hq : r.statement = some q)
    (hasked : ¬(r.isVersionOnly ∧ o.cachedVersion.isSome)) {calls : List FetchEvent}
    (happlied : r.applyRow q row = ⟨calls, .ok ()⟩) : ∃ sql params, r.execute env o =
      ⟨[.lockMode o.identity, .acquire, .query sql params q.resultTypes, .release] ++
          (calls ++ (r.loadDeferred o).events),
        (r.loadDeferred o).result.map fun _ => .loaded⟩ := by
  obtain ⟨hfault, params, hbind, hquery⟩ := h
  have hcached : ¬(r.isVersionOnly && o.cachedVersion.isSome) := by simpa using hasked
  refine ⟨(q.text (env.locks o.identity)).sql, params, ?_⟩
  simp only [FetchRequest.execute, hq, if_neg hcached, r.queryRow_answered env hbind hfault, hquery]
  cases hloaded : r.loadDeferred o with
  | mk events result => cases result <;> simp [happlied, bind, andThen, pure, done, Except.map]

theorem execute_cached (hq : r.statement = some q)
    (hcached : r.isVersionOnly ∧ o.cachedVersion.isSome) :
    r.execute env o = ⟨[], .ok .versionCached⟩ := by
  have hcached : r.isVersionOnly && o.cachedVersion.isSome := by simpa using hcached
  simp only [FetchRequest.execute, hq, if_pos hcached]
  rfl

/-- Every position of a compiled request is that of a projected column, so every row that has a value
for each of them is read to its end. -/
theorem reads_every_row {p : Profile} {className : String} {fetch store : List Nat}
    (hr : compile c p (.ofLists className fetch store) = .ok r) (hq : r.statement = some q) :
    r.LaidOut c q ∧ ∀ row, q.query.projection.length ≤ row.length →
      (r.applyRow q row).result = .ok () ∧
      ∀ env o, r.Answered env o q row → (∃ outcome, (r.execute env o).result = .ok outcome) ∨
        ∃ m ∈ r.deferred, ∃ e, o.loadDeferred m = .error e ∧
          (r.execute env o).result = .error e := by
  obtain ⟨s, requested, version, plan, d, hstages⟩ := compile_stages hr
  have hlaid := hstages.laidOut hq
  refine ⟨hlaid, fun row hrow => ?_⟩
  obtain ⟨v, values, references, -, -, happlied⟩ := hlaid.applyRow hrow
  refine ⟨by rw [happlied], fun env o hanswered => ?_⟩
  by_cases hasked : r.isVersionOnly ∧ o.cachedVersion.isSome
  · rw [execute_cached hq hasked]
    exact .inl ⟨_, rfl⟩
  · obtain ⟨sql, params, hrun⟩ := hanswered.execute hq hasked happlied
    rw [hrun]
    rcases r.loadDeferred_cases o with ⟨-, hloaded⟩ | ⟨m, hm, e, hfails, hfailed⟩
    · rw [hloaded]
      exact .inl ⟨_, rfl⟩
    · rw [hfailed]
      exact .inr ⟨m, hm, e, hfails, rfl⟩

end FetchRequest

/-- Orders with their number, the customer, who is read with the order, the seller, who is read as a
reference only, and notes, which are a map. -/
def orders : Catalog where
  classes := [
    { name := "Person", table := ⟨"PERSON", none, none, none, some "KIND"⟩
      superclass := none, isAbstract := false, identity := some (.surrogate "ID" "long")
      members := [⟨5, "name", ["NAME"], "string", .scalar, none⟩] },
    { name := "Order", table := ⟨"ORDERS", some ⟨"VERSION", "int", some 6⟩, none, none, none⟩
      superclass := none, isAbstract := false, identity := some (.surrogate "ID" "long")
      members := [⟨1, "number", ["NUMBER"], "int", .scalar, none⟩,
        ⟨2, "customer", ["CUSTOMER_ID"], "long", .relation "Person", none⟩,
        ⟨3, "seller", ["SELLER_ID"], "long", .relation "Person", some 0⟩,
        ⟨4, "notes", [], "map", .map ⟨"NOTES", "ORDER_ID", "LANGUAGE", some "TEXT"⟩, none⟩] }]

/-- Version and number of an order, its customer and its seller, who is not known. -/
def orderRow : List Value := [.int 9, .int 7, .int 1, .text "Person", .text "Ann", .null]

theorem FetchRequest.reads_every_row_order :
    ∃ r q, compile orders (Profile.ofVendor .mysql ⟨8, 0, 0⟩) (.ofLists "Order" [1, 2, 4] [3]) = .ok r ∧
      r.statement = some q ∧ (r.applyRow q orderRow).result = .ok () := by
  have hcompiled : (compile orders (Profile.ofVendor .mysql ⟨8, 0, 0⟩)
      (.ofLists "Order" [1, 2, 4] [3])).toOption.any fun r =>
        r.statement.any fun q => q.query.projection.length = 6 := by decide +kernel
  obtain ⟨r, hr, hstatement⟩ := Except.exists_of_any hcompiled
  obtain ⟨q, hq, hwidth⟩ := (Option.any_eq_true _ _).mp hstatement
  have hrow : q.query.projection.length ≤ orderRow.length := Nat.le_of_eq (of_decide_eq_true hwidth)
  exact ⟨r, q, hr, hq, ((reads_every_row hr hq).2 orderRow hrow).1⟩

end ObjectSql
