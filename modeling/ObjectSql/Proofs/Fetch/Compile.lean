import ObjectSql.Proofs.Fetch.Draft

/-!
# Compiled fetches

What a compiled statement consists of: the tables that the selection needs, joined to the primary
one, the conditions on identity, tenant and deletion, and a place for every scalar member.
-/
namespace ObjectSql

open FetchError

namespace FetchScope

/-- The scope of a selection of members and these members. -/
def ofKey (c : Catalog) (key : FetchKey) : Except FetchError (FetchScope × List RequestedMember) := do
  let chain ← ofMetadata (c.chain key.className)
  let fetched ← FetchRequest.findMembers c key.className false key.fetch
  let stored ← FetchRequest.findMembers c key.className true
    (key.store.filter fun n => !key.fetch.contains n)
  let identity ← ofMetadata (c.identityColumns key.className)
  let requested := fetched ++ stored
  pure (⟨c, chain, primaryDepth chain requested, identity⟩, requested)

/-- The places of the chain whose tables a selection needs. -/
inductive Uses (s : FetchScope) (requested : List RequestedMember) : Nat → Prop where
  | primary : s.Uses requested s.primary
  | member {r : RequestedMember} (h : r ∈ requested) (hr : r.isProjected) :
    s.Uses requested r.depth
  | version {depth : Nat} {version : VersionMapping}
    (h : s.nearest s.primary (·.table.version) = some (depth, version)) : s.Uses requested depth
  | tenancy {depth : Nat} {tenancy : TenancyMapping}
    (h : s.nearest 0 (·.table.tenancy) = some (depth, tenancy)) : s.Uses requested depth
  | deleted {depth : Nat} {column : String}
    (h : s.nearest 0 (·.table.softDelete) = some (depth, column)) : s.Uses requested depth

end FetchScope

namespace FetchRequest

variable {c : Catalog} {className : String}

/-! ## Requested members -/

variable {storeOnly : Bool} {numbers : List Nat} {rs : List RequestedMember}

theorem findMembers_spec (h : findMembers c className storeOnly numbers = .ok rs)
    {r : RequestedMember} (hr : r ∈ rs) :
    r.member.number ∈ numbers ∧ r.storeOnly = storeOnly ∧
      c.member className r.member.number = .ok (r.depth, r.member) := by
  obtain ⟨number, hnumber, hfound⟩ := (exists_of_mapM (ofMetadata_eq_ok.mp h)).1 r hr
  obtain ⟨⟨depth, m⟩, hm, rfl⟩ := Except.map_eq_ok.mp hfound
  obtain ⟨chain, -, hdeclares⟩ := Catalog.member_spec hm
  obtain rfl := hdeclares.number_eq
  exact ⟨hnumber, rfl, hm⟩

/-- Every member of the list has been found. -/
theorem mem_findMembers (h : findMembers c className storeOnly numbers = .ok rs)
    {chain : List ClassMapping} (hchain : c.chain className = .ok chain) {number : Nat}
    (hnumber : number ∈ numbers) :
    ∃ depth m, Catalog.Declares chain number depth m ∧
      (⟨depth, m, storeOnly⟩ : RequestedMember) ∈ rs := by
  obtain ⟨r, hr, hfound⟩ := (exists_of_mapM (ofMetadata_eq_ok.mp h)).2 number hnumber
  obtain ⟨⟨depth, m⟩, hm, rfl⟩ := Except.map_eq_ok.mp hfound
  obtain ⟨chain', hchain', hdeclares⟩ := Catalog.member_spec hm
  rw [hchain] at hchain'
  cases hchain'
  exact ⟨depth, m, hdeclares, hr⟩

end FetchRequest

open FetchRequest

/-- What a scope consists of, and that its members are told apart by number. -/
structure FetchScope.IsOf (s : FetchScope) (c : Catalog) (key : FetchKey)
    (requested : List RequestedMember) : Prop where
  catalog : s.catalog = c
  chain : c.chain key.className = .ok s.chain
  identity : c.identityColumns key.className = .ok s.identity
  primary : s.primary = primaryDepth s.chain requested
  declared : ∀ r ∈ requested, Catalog.Declares s.chain r.member.number r.depth r.member
  unique : ∀ r ∈ requested, ∀ r' ∈ requested, r'.member.number = r.member.number → r' = r
  fetched : ∀ number ∈ key.fetch, ∃ depth m, Catalog.Declares s.chain number depth m ∧
    (⟨depth, m, false⟩ : RequestedMember) ∈ requested

theorem FetchScope.ofKey_spec {c : Catalog} {key : FetchKey} {s : FetchScope}
    {requested : List RequestedMember} (h : ofKey c key = .ok (s, requested)) :
    s.IsOf c key requested := by
  obtain ⟨chain, hchain, h⟩ := Except.bind_eq_ok.mp h
  obtain ⟨fetched, hfetched, h⟩ := Except.bind_eq_ok.mp h
  obtain ⟨stored, hstored, h⟩ := Except.bind_eq_ok.mp h
  obtain ⟨identity, hidentity, h⟩ := Except.bind_eq_ok.mp h
  cases h
  have hfetch {r : RequestedMember} (hr : r ∈ fetched) := findMembers_spec hfetched hr
  refine ⟨rfl, ofMetadata_eq_ok.mp hchain, ofMetadata_eq_ok.mp hidentity, rfl, ?_, ?_, ?_⟩
  · intro r hr
    have hmember : c.member key.className r.member.number = .ok (r.depth, r.member) := by
      rcases List.mem_append.mp hr with hr | hr
      · exact (hfetch hr).2.2
      · exact (findMembers_spec hstored hr).2.2
    obtain ⟨chain', hchain', hdeclares⟩ := Catalog.member_spec hmember
    rw [ofMetadata_eq_ok.mp hchain] at hchain'
    cases hchain'
    exact hdeclares
  · intro r hr r' hr' hnumber
    have hstore {r : RequestedMember} (hr : r ∈ stored) :
        r.member.number ∉ key.fetch ∧ r.storeOnly = true ∧
          c.member key.className r.member.number = .ok (r.depth, r.member) := by
      obtain ⟨hmem, hspec⟩ := findMembers_spec hstored hr
      exact ⟨by simpa using (List.mem_filter.mp hmem).2, hspec⟩
    have hsame (hstoreOnly : r'.storeOnly = r.storeOnly)
        (hmember : c.member key.className r.member.number = .ok (r.depth, r.member))
        (hmember' : c.member key.className r'.member.number = .ok (r'.depth, r'.member)) :
        r' = r := by
      rw [hnumber, hmember] at hmember'
      cases r
      cases r'
      simp_all
    rcases List.mem_append.mp hr with hr | hr <;> rcases List.mem_append.mp hr' with hr' | hr'
    · exact hsame ((hfetch hr').2.1.trans (hfetch hr).2.1.symm) (hfetch hr).2.2 (hfetch hr').2.2
    · exact absurd (hnumber ▸ (hfetch hr).1) (hstore hr').1
    · exact absurd (hnumber ▸ (hfetch hr').1) (hstore hr).1
    · exact hsame ((hstore hr').2.1.trans (hstore hr).2.1.symm) (hstore hr).2.2 (hstore hr').2.2
  · intro number hnumber
    obtain ⟨depth, m, hdeclares, hmem⟩ :=
      mem_findMembers hfetched (ofMetadata_eq_ok.mp hchain) hnumber
    exact ⟨depth, m, hdeclares, List.mem_append_left _ hmem⟩

namespace FetchScope

variable {c : Catalog} {key : FetchKey} {s : FetchScope} {requested : List RequestedMember}

theorem nearest_lt {α : Type} {start depth : Nat} {part : ClassMapping → Option α} {found : α}
    (h : s.nearest start part = some (depth, found)) : depth < s.chain.length := by
  obtain ⟨-, k, hk, -⟩ := exists_of_findSome?_zipIdx h
  exact (List.getElem?_eq_some_iff.mp hk).1

theorem IsOf.primary_lt (h : s.IsOf c key requested) : s.primary < s.chain.length := by
  rw [h.primary, primaryDepth]
  split
  · next depth hmax =>
    obtain ⟨r, hr, rfl⟩ := List.mem_map.mp (List.max?_mem hmax)
    obtain ⟨⟨k, hk, -⟩, -⟩ := h.declared r (List.mem_filter.mp hr).1
    exact (List.getElem?_eq_some_iff.mp hk).1
  · obtain ⟨k, rest, -, hchain, -⟩ := Catalog.chain_spec h.chain
    cases hfind : s.chain.findIdx? fun k => k.table.version.isSome with
    | none => simp [hchain]
    | some i => exact (List.findIdx?_eq_some_iff_getElem.mp hfind).1

/-- Every table that a selection needs is the table of a class of the chain. -/
theorem IsOf.uses_lt (h : s.IsOf c key requested) {depth : Nat} (huses : s.Uses requested depth) :
    depth < s.chain.length := by
  cases huses with
  | primary => exact h.primary_lt
  | member hr _ =>
    obtain ⟨⟨k, hk, -⟩, -⟩ := h.declared _ hr
    exact (List.getElem?_eq_some_iff.mp hk).1
  | version hfound => exact nearest_lt hfound
  | tenancy hfound => exact nearest_lt hfound
  | deleted hfound => exact nearest_lt hfound

end FetchScope

/-! ## Statements -/

namespace FetchDraft

/-- A draft that holds all that a selection needs. -/
structure IsCompiled (s : FetchScope) (requested : List RequestedMember) (d : FetchDraft) :
    Prop where
  frame : d.query.frame = (Select.ofName (s.tableAt s.primary)).frame
  joins : d.WellJoined s
  sorted : d.layout.layout.Sorted
  uses : ∀ depth, d.Uses s depth ↔ s.Uses requested depth
  conditions : ∃ tenancy deleted,
    d.query.conditions = s.identity.map (identityCondition d.query.table) ++ tenancy ++ deleted ∧
      d.Restricts s tenancyCondition (s.nearest 0 (·.table.tenancy)) tenancy ∧
      d.Restricts s deletedCondition (s.nearest 0 (·.table.softDelete)) deleted
  scalars : ∀ r ∈ requested, r.member.kind = .scalar → r.storeOnly = false →
    d.HasScalar s r.depth r.member

variable {s : FetchScope}

theorem start_uses (className table : String) (depth : Nat) :
    (start className table).Uses s depth ↔ depth = s.primary := by
  simp [Uses, HasTable, start]

theorem isCompiled_of_steps {c : Catalog} {key : FetchKey} {requested : List RequestedMember}
    {version : Option VersionMapping} {plan : FetchPlan} {d₁ d₂ d : FetchDraft}
    (hs : s.IsOf c key requested)
    (hversion : selectVersion s (.start key.className (s.tableAt s.primary)) = .ok (version, d₁))
    (hmembers : FetchPlan.empty.addMembers s d₁ requested = .ok (plan, d₂))
    (hrestrict : restrict s d₂ = .ok d) : IsCompiled s requested d := by
  obtain ⟨d₃, hidentity, hrestrict⟩ := Except.bind_eq_ok.mp hrestrict
  obtain ⟨d₄, htenant, hdeleted⟩ := Except.bind_eq_ok.mp hrestrict
  have hstart : (start key.className (s.tableAt s.primary)).layout.layout.Sorted := List.Pairwise.nil
  have g₁ := selectVersion_grows hversion
  have g₂ := FetchPlan.addMembers_grows hmembers (g₁.sorted hstart)
  have g₃ := restrictIdentity_grows (s := s) hidentity
  obtain ⟨tenancy, g₄, htenancy⟩ := restrictTenant_spec htenant
  obtain ⟨deleted, g₅, hdeleted⟩ := restrictDeleted_spec hdeleted
  have hrestricted := (g₃.trans g₄).trans g₅
  have g := (g₁.trans g₂).trans hrestricted
  refine ⟨g.frame, g.joins .nil, g.sorted hstart, fun depth => ?_,
    ⟨tenancy, deleted, ?_, htenancy.mono g₅, hdeleted⟩, fun r hr hkind hstore => ?_⟩
  · rw [g.uses, start_uses]
    constructor
    · rintro (rfl | (⟨v, hv⟩ | ⟨r, hr, hprojected, rfl⟩) | (⟨⟨⟩⟩ | ⟨t, ht⟩) | ⟨column, hcolumn⟩)
      · exact .primary
      · exact .version hv
      · exact .member hr hprojected
      · exact .tenancy ht
      · exact .deleted hcolumn
    · intro huses
      cases huses with
      | primary => exact .inl rfl
      | member hr hprojected => exact .inr (.inl (.inr ⟨_, hr, hprojected, rfl⟩))
      | version hv => exact .inr (.inl (.inl ⟨_, hv⟩))
      | tenancy ht => exact .inr (.inr (.inl (.inr ⟨_, ht⟩)))
      | deleted hcolumn => exact .inr (.inr (.inr ⟨_, hcolumn⟩))
  · have hempty : d₂.query.conditions = [] := (g₁.trans g₂).conditions
    rw [hrestricted.conditions, hrestricted.table, hempty, List.nil_append]
  · have hscalar := FetchPlan.addMembers_hasScalar hmembers (g₁.sorted hstart) hkind hstore
      (hs.unique r hr) (.inr hr)
    exact hrestricted.hasScalar ((g₁.trans g₂).sorted hstart) (by simp) hscalar

end FetchDraft

/-! ## Stages of a compilation -/

open FetchDraft in
/-- A request comes from a version, members and restrictions that are added to a draft in this
order; `d` is the draft before it is restricted. -/
structure FetchRequest.Stages (c : Catalog) (p : Profile) (key : FetchKey) (r : FetchRequest)
    (s : FetchScope) (requested : List RequestedMember) (version : Option VersionMapping)
    (plan : FetchPlan) (d : FetchDraft) : Prop where
  scope : FetchScope.ofKey c key = .ok (s, requested)
  selected : ∃ d₁, selectVersion s (.start key.className (s.tableAt s.primary)) = .ok (version, d₁) ∧
    FetchPlan.empty.addMembers s d₁ requested = .ok (plan, d)
  /-- A statement without projection is none. -/
  statement : d.query.projection = [] ∧ r.statement = none ∨ d.query.projection ≠ [] ∧
    ∃ d', restrict s d = .ok d' ∧ r.statement = some (d'.finish p)
  className : r.className = key.className
  fields : r.fields = plan.fields
  store : r.store = plan.store
  deferred : r.deferred = plan.deferred
  hasVersion : r.hasVersion = version.isSome
  versionMember : r.versionMember = version.bind VersionMapping.member
  identity : r.identity = s.identity.map fun x => (x.key, x.position)

open FetchDraft in
theorem FetchRequest.compile_stages {c : Catalog} {p : Profile} {key : FetchKey} {r : FetchRequest}
    (h : compile c p key = .ok r) :
    ∃ s requested version plan d, Stages c p key r s requested version plan d := by
  obtain ⟨chain, hchain, h⟩ := Except.bind_eq_ok.mp h
  obtain ⟨fetched, hfetched, h⟩ := Except.bind_eq_ok.mp h
  obtain ⟨stored, hstored, h⟩ := Except.bind_eq_ok.mp h
  obtain ⟨identity, hidentity, h⟩ := Except.bind_eq_ok.mp h
  obtain ⟨⟨version, d₁⟩, hversion, h⟩ := Except.bind_eq_ok.mp h
  obtain ⟨⟨plan, d₂⟩, hmembers, h⟩ := Except.bind_eq_ok.mp h
  have hscope : FetchScope.ofKey c key = .ok
      (⟨c, chain, FetchScope.primaryDepth chain (fetched ++ stored), identity⟩,
        fetched ++ stored) := by
    simp only [FetchScope.ofKey, hchain, hfetched, hstored, hidentity]
    rfl
  generalize hs : (⟨c, chain, FetchScope.primaryDepth chain (fetched ++ stored), identity⟩ :
    FetchScope) = s at *
  have hidentity : s.identity = identity := by rw [← hs]
  refine ⟨s, fetched ++ stored, version, plan, d₂, ?_⟩
  dsimp only at h
  split at h
  · next hempty =>
    cases h
    exact ⟨hscope, ⟨d₁, hversion, hmembers⟩, .inl ⟨List.isEmpty_iff.mp hempty, rfl⟩, rfl, rfl, rfl,
      rfl, rfl, rfl, by rw [hidentity]⟩
  · next hsome =>
    obtain ⟨d, hrestrict, h⟩ := Except.bind_eq_ok.mp h
    cases h
    exact ⟨hscope, ⟨d₁, hversion, hmembers⟩, .inr ⟨by simpa using hsome, d, hrestrict, rfl⟩, rfl,
      rfl, rfl, rfl, rfl, rfl, by rw [hidentity]⟩

open FetchDraft in
/-- The draft of a statement, which has been restricted. -/
theorem FetchRequest.Stages.restricted {c : Catalog} {p : Profile} {key : FetchKey}
    {r : FetchRequest} {q : CompiledFetch} {s : FetchScope} {requested : List RequestedMember}
    {version : Option VersionMapping} {plan : FetchPlan} {d : FetchDraft}
    (h : r.Stages c p key s requested version plan d) (hq : r.statement = some q) :
    ∃ d', restrict s d = .ok d' ∧ q = d'.finish p ∧ IsCompiled s requested d' := by
  obtain ⟨d₁, hversion, hmembers⟩ := h.selected
  rcases h.statement with ⟨-, hnone⟩ | ⟨-, d', hrestrict, hsome⟩
  · cases hnone.symm.trans hq
  · cases hsome.symm.trans hq
    exact ⟨d', hrestrict, rfl,
      isCompiled_of_steps (FetchScope.ofKey_spec h.scope) hversion hmembers hrestrict⟩

end ObjectSql
