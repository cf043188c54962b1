import ObjectSql.Proofs.Fetch.Reading

/-!
# Calls to the object

What an object is told in a fetch follows from the selection alone: the version first, then every
member that is fetched, then the references to store, then the members that the object loads itself,
each of them once and in ascending order. Only a version that the object knows already is left out.
-/
namespace ObjectSql

open FetchError

def VersionMapping.calls (version : VersionMapping) (v : Value) : List FetchEvent :=
  .setVersion v :: (version.member.map fun n => .replaceField n (.ofValue v)).toList

/-- Whether nothing is asked for but a version that the object knows. -/
def FetchedObject.KnowsAll (o : FetchedObject) (version : Option VersionMapping)
    (members : MemberUse → List Nat) : Prop :=
  version.isSome ∧ (∀ u, members u = []) ∧ o.cachedVersion.isSome

/-! ## Requests without a statement -/

section

variable {l : Layout} {child : ClassLayout} {key : MappingKey}

theorem Layout.Within.positions_eq_nil (h : l.Within 0) (key : MappingKey) : l.positions key = [] := by
  refine List.eq_nil_iff_forall_not_mem.mpr fun i hi => ?_
  have hi := h.positions key i hi
  omega

theorem Layout.HasColumns.eq_zero {n : Nat} (hkey : l.HasColumns key n) (h : l.Within 0) : n = 0 := by
  rw [← hkey.length_positions, h.positions_eq_nil key, List.length_nil]

end

namespace FetchDraft

variable {s : FetchScope} {requested : List RequestedMember} {version : Option VersionMapping}
  {plan : FetchPlan} {d : FetchDraft}

theorem Placed.not_hasForeignKey (h : d.Placed) (hempty : d.query.projection = [])
    (hc : ∀ name identity, s.catalog.identityColumns name = .ok identity → identity ≠ [])
    (number : Nat) (target : String) : ¬d.layout.HasForeignKey s.catalog number target := by
  rintro ⟨identity, hidentity, hkey⟩
  have hwithin := h.within
  rw [hempty] at hwithin
  exact hc target identity hidentity (List.eq_nil_of_length_eq_zero (hkey.eq_zero hwithin))

/-- Where nothing is projected, nothing is read. -/
theorem IsPlanned.unread (h : d.IsPlanned s requested version plan)
    (hc : ∀ name identity, s.catalog.identityColumns name = .ok identity → identity ≠ [])
    (hempty : d.query.projection = []) :
    version = none ∧ plan.fields = [] ∧ plan.store = [] := by
  have hwithin := h.placed.within
  rw [hempty] at hwithin
  refine ⟨?_, List.eq_nil_iff_forall_not_mem.mpr fun f hf => ?_,
    List.eq_nil_iff_forall_not_mem.mpr fun f hf =>
      h.placed.not_hasForeignKey hempty hc _ _ (h.layout.store f hf)⟩
  · rcases h.versioned with ⟨-, hkey⟩ | ⟨hnone, -⟩
    · cases hkey.eq_zero hwithin
    · exact hnone
  · have hlayout := h.layout.fields f hf
    cases f with
    | scalar number => cases Layout.HasColumns.eq_zero hlayout hwithin
    | reference number target _ => exact h.placed.not_hasForeignKey hempty hc _ _ hlayout
    | object number target _ keys =>
      obtain ⟨child, hchild, hkeyed, identity, hidentity, hkeys⟩ := hlayout
      have hrelated := h.placed.children _ (ClassLayout.mem_of_child? hchild)
      rw [hempty] at hrelated
      obtain ⟨x, hx⟩ := List.exists_mem_of_ne_nil identity (hc target identity hidentity)
      exact hkeyed x.key ((hkeys _).mpr (List.mem_map_of_mem hx))
        (hrelated.within.positions_eq_nil x.key)

end FetchDraft

namespace FetchRequest

open FetchRun

variable {c : Catalog} {p : Profile} {className : String} {fetch store : List Nat}
  {r : FetchRequest} {q : CompiledFetch} {s : FetchScope} {requested : List RequestedMember}
  {version : Option VersionMapping} {plan : FetchPlan} {d : FetchDraft}

/-! ## Members of a request -/

def members (r : FetchRequest) : MemberUse → List Nat
  | .field => r.fields.map FieldPlan.member
  | .stored => r.store.map StorePlan.member
  | .deferred => r.deferred

theorem Stages.members_eq (h : r.Stages c p (.ofLists className fetch store) s requested version plan d)
    (u : MemberUse) :
    r.members u = (requested.filter fun r => r.use = some u).map (·.member.number) := by
  rw [← h.planned.members u]
  cases u with
  | field => exact congrArg _ h.fields
  | stored => exact congrArg _ h.store
  | deferred => exact h.deferred

theorem Stages.versionCalls_eq
    (h : r.Stages c p (.ofLists className fetch store) s requested version plan d) (v : Value) :
    r.versionCalls v = s.version.elim [] (·.calls v) := by
  rw [versionCalls, h.hasVersion, h.versionMember, ← h.planned.selected]
  cases version <;> rfl

theorem Stages.isVersionOnly_iff
    (h : r.Stages c p (.ofLists className fetch store) s requested version plan d) :
    r.isVersionOnly ↔ s.version.isSome ∧ ∀ u, r.members u = [] := by
  have hmembers : (∀ u, r.members u = []) ↔ r.fields = [] ∧ r.store = [] ∧ r.deferred = [] := by
    constructor
    · intro hall
      exact ⟨List.map_eq_nil_iff.mp (hall .field), List.map_eq_nil_iff.mp (hall .stored),
        hall .deferred⟩
    · rintro ⟨hfields, hstore, hdeferred⟩ u
      cases u <;> simp [members, *]
  rw [hmembers, isVersionOnly, h.hasVersion, ← h.planned.selected]
  simp [and_assoc]

/-- A request without a statement reads neither a version nor a row. -/
theorem Stages.unread
    (h : r.Stages c p (.ofLists className fetch store) s requested version plan d)
    (hc : ∀ name identity, c.identityColumns name = .ok identity → identity ≠ [])
    (hnone : r.statement = none) :
    s.version = none ∧ r.members .field = [] ∧ r.members .stored = [] := by
  rcases h.statement with ⟨hempty, -⟩ | ⟨-, d', -, hstatement⟩
  · have hcatalog : s.catalog = c := (FetchScope.ofKey_spec h.scope).catalog
    obtain ⟨rfl, hfields, hstore⟩ := h.planned.unread (hcatalog.symm ▸ hc) hempty
    refine ⟨h.planned.selected.symm, ?_, ?_⟩
    · rw [members, h.fields, hfields, List.map_nil]
    · rw [members, h.store, hstore, List.map_nil]
  · cases hnone.symm.trans hstatement

/-! ## Calls of an execution -/

theorem loadDeferred_loads (r : FetchRequest) {o : FetchedObject}
    (h : ∀ n ∈ r.deferred, o.loadDeferred n = .ok ()) :
    r.loadDeferred o = ⟨r.deferred.map .loadDeferred, .ok ()⟩ := by
  rcases r.loadDeferred_cases o with ⟨-, hloaded⟩ | ⟨n, hn, e, hfails, -⟩
  · exact hloaded
  · rw [h n hn] at hfails
    cases hfails

/-- Without a statement the object loads its members and no more. -/
theorem execute_unread {env : FetchEnvironment} {o : FetchedObject} (hnone : r.statement = none)
    (hloads : ∀ n ∈ r.deferred, o.loadDeferred n = .ok ()) :
    r.execute env o = ⟨r.deferred.map .loadDeferred, .ok .noStatement⟩ := by
  have hloaded := r.loadDeferred_loads hloads
  simp only [execute, hnone, hloaded]
  exact congrArg (FetchRun.mk · _) (List.append_nil _)

/-- An answered execution makes the calls that its row is read for. -/
theorem LaidOut.calls (h : r.LaidOut c q) {env : FetchEnvironment} {o : FetchedObject}
    {row : List Value} (hrow : q.query.projection.length ≤ row.length)
    (hanswered : r.Answered env o q row) (hq : r.statement = some q)
    (hasked : ¬(r.isVersionOnly ∧ o.cachedVersion.isSome))
    (hloads : ∀ n ∈ r.deferred, o.loadDeferred n = .ok ()) :
    ∃ v values references, values.length = (r.members .field).length ∧
      references.length = (r.members .stored).length ∧
      (r.execute env o).events.filter FetchEvent.writes =
        r.versionCalls v ++ List.zipWith .replaceField (r.members .field) values ++
          List.zipWith .storeReference (r.members .stored) references ++
          (r.members .deferred).map .loadDeferred ∧
      (r.execute env o).result = .ok .loaded := by
  obtain ⟨v, values, references, hvalues, hreferences, happlied⟩ := h.applyRow hrow
  obtain ⟨sql, params, hrun⟩ := hanswered.execute hq hasked happlied
  have hloaded := r.loadDeferred_loads hloads
  have hlength {α β : Type} {f : α → Except FetchError β} {as : List α} {bs : List β}
      (hbs : as.mapM f = .ok bs) (g : α → Nat) : bs.length = (as.map g).length := by
    rw [List.length_map]
    exact (mapM_eq_ok hbs).length_eq.symm
  refine ⟨v, values, references, hlength hvalues _, hlength hreferences _, ?_, ?_⟩
  · have hread := (r.applyRow_writesOnly o q row).events
    have hdeferred := (r.loadDeferred_writesOnly o).events
    rw [happlied] at hread
    rw [hloaded] at hdeferred
    have hwrites := List.filter_eq_self.mpr fun e he =>
      (List.mem_append.mp he).elim (hread e) (hdeferred e)
    rw [hrun, hloaded, List.filter_append, hwrites, members, members, List.zipWith_map_left,
      List.zipWith_map_left]
    simp [members]
  · rw [hrun, hloaded]
    rfl

/-- Whenever its row is wide enough and the object loads its members, a fetch makes the calls that its
selection asks for: on the version, on the members to fetch, on those to store only and on those that
the object loads, each list in ascending order. It makes none if the object knows all that is asked
for. -/
theorem calls_in_order
    (hc : ∀ name identity, c.identityColumns name = .ok identity → identity ≠ [])
    (hr : compile c p (.ofLists className fetch store) = .ok r) :
    ∃ s requested, FetchScope.ofKey c (.ofLists className fetch store) = .ok (s, requested) ∧
      (∀ n, n ∈ fetch ∨ n ∈ store → ∃ depth m, Catalog.Declares s.chain n depth m) ∧
      ∃ members : MemberUse → List Nat,
        (∀ u, (members u).Pairwise (· < ·) ∧ ∀ n, n ∈ members u ↔ u.Asked fetch store n ∧
          ∃ depth m, Catalog.Declares s.chain n depth m ∧ u.Fits m.kind) ∧
        ∀ env o,
          (o.KnowsAll s.version members → r.execute env o = ⟨[], .ok .versionCached⟩) ∧
          (¬o.KnowsAll s.version members → (∀ n ∈ members .deferred, o.loadDeferred n = .ok ()) →
            ∀ row, (∀ q, r.statement = some q →
                q.query.projection.length ≤ row.length ∧ r.Answered env o q row) →
              ∃ v values references, values.length = (members .field).length ∧
                references.length = (members .stored).length ∧
                (r.execute env o).events.filter FetchEvent.writes =
                  s.version.elim [] (·.calls v) ++
                    List.zipWith .replaceField (members .field) values ++
                    List.zipWith .storeReference (members .stored) references ++
                    (members .deferred).map .loadDeferred ∧
                ∃ outcome, (r.execute env o).result = .ok outcome) := by
  obtain ⟨s, requested, version, plan, d, hstages⟩ := compile_stages hr
  refine ⟨s, requested, hstages.scope, fun n => FetchScope.declares_of_asked hstages.scope,
    r.members, fun u => ?_, fun env o => ⟨?_, ?_⟩⟩
  · rw [hstages.members_eq u]
    exact FetchScope.members_of_use hstages.scope u
  · rintro ⟨hversion, hmembers, hknown⟩
    cases hq : r.statement with
    | none =>
      rw [(hstages.unread hc hq).1] at hversion
      cases hversion
    | some q =>
      exact execute_cached hq ⟨hstages.isVersionOnly_iff.mpr ⟨hversion, hmembers⟩, hknown⟩
  · intro hasked hloads row hanswered
    cases hq : r.statement with
    | none =>
      obtain ⟨hversion, hfield, hstored⟩ := hstages.unread hc hq
      refine ⟨.null, [], [], by simp [hfield], by simp [hstored], ?_⟩
      rw [hversion, hfield, hstored, execute_unread hq hloads]
      exact ⟨List.filter_eq_self.mpr (by simp), _, rfl⟩
    | some q =>
      obtain ⟨hrow, hanswered⟩ := hanswered q hq
      have hasked : ¬(r.isVersionOnly ∧ o.cachedVersion.isSome) := by
        rintro ⟨honly, hknown⟩
        obtain ⟨hversion, hmembers⟩ := hstages.isVersionOnly_iff.mp honly
        exact hasked ⟨hversion, hmembers, hknown⟩
      obtain ⟨v, values, references, hvalues, hreferences, hcalls, hresult⟩ :=
        (hstages.laidOut hq).calls hrow hanswered hq hasked hloads
      rw [hstages.versionCalls_eq v] at hcalls
      exact ⟨v, values, references, hvalues, hreferences, hcalls, _, hresult⟩

end FetchRequest

theorem orders_identified {name : String} {identity : List IdentityColumn}
    (h : orders.identityColumns name = .ok identity) : identity ≠ [] := by
  obtain ⟨strategy, hstrategy, h⟩ := Except.bind_eq_ok.mp h
  obtain ⟨k, hk, hstrategy⟩ := Catalog.identity_spec hstrategy
  have hsurrogate : strategy = .surrogate "ID" "long" := by
    simp only [orders, List.mem_cons, List.not_mem_nil, or_false] at hk
    rcases hk with rfl | rfl <;> exact (Option.some.inj hstrategy).symm
  subst hsurrogate
  cases h
  exact List.cons_ne_nil _ _

def answering (row : List Value) : FetchEnvironment where
  profile := Profile.ofVendor .mysql ⟨8, 0, 0⟩
  locks _ := false
  tenant := none
  acquireFault := none
  query _ _ _ := .ok (some row)

/-- The notes of an order are loaded once its row has been read. -/
theorem FetchRequest.calls_in_order_notes :
    ∃ r, compile orders (Profile.ofVendor .mysql ⟨8, 0, 0⟩)
        (.ofLists "Order" [4, 2, 1] [3, 2]) = .ok r ∧
      .loadDeferred 4 ∈
        (r.execute (answering orderRow) ⟨[.int 5], none, fun _ => .ok ()⟩).events := by
  have hcompiled : (compile orders (Profile.ofVendor .mysql ⟨8, 0, 0⟩)
      (.ofLists "Order" [4, 2, 1] [3, 2])).toOption.any (fun r => r.statement.any fun q =>
        q.query.projection.length = 6 ∧
          (r.bindAll (q.text false) [.int 5] none).toOption.any fun _ => true) := by decide +kernel
  obtain ⟨r, hr, hstatement⟩ := Except.exists_of_any hcompiled
  have hanswered : ∀ q, r.statement = some q → q.query.projection.length ≤ orderRow.length ∧
      r.Answered (answering orderRow) ⟨[.int 5], none, fun _ => .ok ()⟩ q orderRow := by
    intro q hq
    rw [hq, Option.any_some] at hstatement
    obtain ⟨hwidth, hbinds⟩ := of_decide_eq_true hstatement
    obtain ⟨params, hbind, -⟩ := Except.exists_of_any hbinds
    exact ⟨Nat.le_of_eq hwidth, rfl, params, hbind, rfl⟩
  obtain ⟨s, requested, hscope, -, members, hmembers, hcalls⟩ :=
    calls_in_order (fun _ _ => orders_identified) hr
  have hchain : s.chain = orders.classes.drop 1 :=
    Except.ok.inj ((FetchScope.ofKey_spec hscope).chain.symm.trans rfl)
  rw [hchain] at hmembers
  have hnotes : 4 ∈ members .deferred := ((hmembers .deferred).2 4).mpr
    ⟨List.mem_cons_self, 0, _, ⟨⟨_, rfl, rfl⟩, fun i hi => absurd hi (Nat.not_lt_zero i)⟩, _, rfl⟩
  obtain ⟨v, values, references, -, -, hwrites, -⟩ := (hcalls _ _).2 (by rintro ⟨-, -, ⟨⟩⟩)
    (fun _ _ => rfl) orderRow hanswered
  have hcall : FetchEvent.loadDeferred 4 ∈ (members .deferred).map .loadDeferred :=
    List.mem_map_of_mem hnotes
  exact ⟨r, hr, (List.mem_filter.mp (hwrites ▸ List.mem_append_right _ hcall)).1⟩

end ObjectSql
