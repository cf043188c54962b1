import ObjectSql.Fetch.Execute
import ObjectSql.Proofs.Fetch.Selection
import ObjectSql.Proofs.Fetch.Steps

/-!
# Plans and their layouts

Every requested member is used in one way: as a field, as a stored reference, by a load of its own or
not at all. The plan of a member comes with the layout that it is read by, and as no two members have
the same number, members that are planned later leave that layout as it is.
-/
namespace ObjectSql

open FetchError

/-! ## Layouts of plans -/

/-- The layout of a related row with a position for each of the given keys. -/
structure ClassLayout.IsKeyed (child : ClassLayout) (keys : List MappingKey) (n : Nat) : Prop
    extends child.IsRelated n where
  sorted : child.layout.Sorted
  keyed : ∀ key ∈ keys, child.layout.positions key ≠ []

namespace ClassLayout

variable {child : ClassLayout} {keys keys' : List MappingKey} {m n : Nat}

theorem IsKeyed.mono (h : child.IsKeyed keys m) (hmn : m ≤ n) : child.IsKeyed keys n :=
  ⟨h.toIsRelated.mono hmn, h.sorted, h.keyed⟩

theorem IsKeyed.of_subset (h : child.IsKeyed keys n) (hkeys : keys' ⊆ keys) :
    child.IsKeyed keys' n :=
  ⟨h.toIsRelated, h.sorted, fun key hkey => h.keyed key (hkeys hkey)⟩

theorem IsKeyed.setColumns (h : child.IsKeyed keys n) (key : MappingKey) {positions : List Nat}
    (hplaced : positions ≠ []) (hwithin : ∀ i ∈ positions, 1 ≤ i ∧ i ≤ n) :
    IsKeyed { child with layout := child.layout.setColumns key positions } (key :: keys) n where
  toIsRelated := h.toIsRelated.setColumns key hplaced hwithin
  sorted := h.sorted.modify _ _
  keyed key' hkey' := by
    rw [Layout.positions_setColumns h.sorted]
    split
    · exact hplaced
    · next hne => exact h.keyed key' ((List.mem_cons.mp hkey').resolve_left hne)

/-- Setting several keys, each to the positions that a function tells. -/
theorem IsKeyed.foldl_setColumns {f : MappingKey → List Nat} (ks : List MappingKey)
    (h : child.IsKeyed keys n) (hf : ∀ key ∈ ks, f key ≠ [] ∧ ∀ i ∈ f key, 1 ≤ i ∧ i ≤ n) :
    IsKeyed { child with layout := ks.foldl (fun l key => l.setColumns key (f key)) child.layout }
      (ks ++ keys) n := by
  induction ks generalizing child keys with
  | nil =>
    cases child
    exact h
  | cons key ks ih =>
    obtain ⟨⟨hplaced, hwithin⟩, hks⟩ := List.forall_mem_cons.mp hf
    refine (ih (h.setColumns key hplaced hwithin) hks).of_subset ?_
    rw [List.cons_append]
    exact List.perm_middle.symm.subset

theorem empty_isKeyed (target : String) (n : Nat) : (empty target).IsKeyed [] n where
  within _ he := nomatch he
  placed _ he := nomatch he
  children := rfl
  sorted := List.Pairwise.nil
  keyed _ he := nomatch he

/-- A relation has as many positions as the identity of its target has columns. -/
def HasForeignKey (c : Catalog) (l : ClassLayout) (number : Nat) (target : String) : Prop :=
  ∃ identity, c.identityColumns target = .ok identity ∧
    l.layout.HasColumns (.member number) identity.length

/-- A relation has a related layout with positions for the keys of the identity of its target. -/
def HasRelated (c : Catalog) (l : ClassLayout) (number : Nat) (target : String)
    (keys : List MappingKey) : Prop :=
  ∃ child, l.child? number = some child ∧ (∀ key ∈ keys, child.layout.positions key ≠ []) ∧
    ∃ identity, c.identityColumns target = .ok identity ∧
      ∀ key, key ∈ keys ↔ key ∈ identity.map IdentityColumn.key

end ClassLayout

/-- Whether a member is found where its plan says that it is read. -/
def FieldPlan.HasLayout (c : Catalog) (l : ClassLayout) : FieldPlan → Prop
  | scalar number => l.layout.HasColumns (.member number) 1
  | reference number target _ => l.HasForeignKey c number target
  | object number target _ keys => l.HasRelated c number target keys

def StorePlan.HasLayout (c : Catalog) (l : ClassLayout) (plan : StorePlan) : Prop :=
  l.HasForeignKey c plan.member plan.target

theorem FieldPlan.HasLayout.mono {c : Catalog} {l l' : ClassLayout} {plan : FieldPlan}
    (h : plan.HasLayout c l)
    (hcolumns : ∀ n, l.layout.HasColumns (.member plan.member) n →
      l'.layout.HasColumns (.member plan.member) n)
    (hchild : l'.child? plan.member = l.child? plan.member) : plan.HasLayout c l' := by
  cases plan with
  | scalar number => exact hcolumns 1 h
  | reference number target _ =>
    obtain ⟨identity, hidentity, hkey⟩ := h
    exact ⟨identity, hidentity, hcolumns _ hkey⟩
  | object number target _ keys =>
    obtain ⟨child, hfound, hkeys⟩ := h
    exact ⟨child, hchild.trans hfound, hkeys⟩

theorem StorePlan.HasLayout.mono {c : Catalog} {l l' : ClassLayout} {plan : StorePlan}
    (h : plan.HasLayout c l)
    (hcolumns : ∀ n, l.layout.HasColumns (.member plan.member) n →
      l'.layout.HasColumns (.member plan.member) n) : plan.HasLayout c l' := by
  obtain ⟨identity, hidentity, hkey⟩ := h
  exact ⟨identity, hidentity, hcolumns _ hkey⟩

/-- The version that is selected, which is the nearest from the primary table on. -/
def FetchScope.version (s : FetchScope) : Option VersionMapping :=
  (s.nearest s.primary (·.table.version)).map Prod.snd

namespace FetchDraft

variable {s : FetchScope} {K : MappingKey → Prop} {T : String → Prop} {d d' : FetchDraft}

/-! ## Versions and foreign keys -/

/-- Steps that end with the positions of a key. -/
theorem Steps.setColumns (h : Steps s K T d d') (hd : d.Placed) {key : MappingKey} (hkey : K key)
    {positions : List Nat} (hpositions : ∀ n ∈ positions, d'.HasPosition n) :
    Steps s K T d (d'.setColumns key positions) ∧
      (d'.setColumns key positions).layout.layout.HasColumns key positions.length :=
  ⟨h.tail (.setColumns hkey hpositions), Layout.hasColumns_setColumns (h.placed hd).sorted _ _⟩

/-- Either no version is selected or it has a position. -/
theorem selectVersion_steps {version : Option VersionMapping} (hd : d.Placed)
    (hkey : K .version) (h : selectVersion s d = .ok (version, d')) :
    Steps s K T d d' ∧ version = s.version ∧
      (version = none ∧ d' = d ∨ version.isSome ∧ d'.layout.layout.HasColumns .version 1) := by
  unfold selectVersion at h
  split at h
  · next hnone =>
    cases h
    exact ⟨.refl, by rw [FetchScope.version, hnone]; rfl, .inl ⟨rfl, rfl⟩⟩
  · next depth v hsome =>
    obtain ⟨⟨t, d₁⟩, htable, h⟩ := Except.bind_eq_ok.mp h
    obtain ⟨⟨position, d₂⟩, hproject, h⟩ := Except.bind_eq_ok.mp h
    cases h
    obtain ⟨hsteps, ht⟩ := chainTable_steps (K := K) (T := T) htable
    obtain ⟨hsteps', -, hposition⟩ := project_steps ht hproject
    obtain ⟨hset, hcolumns⟩ := (hsteps.trans hsteps').setColumns hd hkey
      (List.forall_mem_singleton.mpr hposition)
    exact ⟨hset, by rw [FetchScope.version, hsome]; rfl, .inr ⟨rfl, hcolumns⟩⟩

theorem selectScalar_steps {depth : Nat} {m : MemberMapping} (hd : d.Placed)
    (hkey : K (.member m.number)) (h : selectScalar s d depth m = .ok d') :
    Steps s K T d d' ∧ d'.layout.layout.HasColumns (.member m.number) 1 := by
  unfold selectScalar at h
  split at h
  · obtain ⟨⟨t, d₁⟩, htable, h⟩ := Except.bind_eq_ok.mp h
    obtain ⟨⟨position, d₂⟩, hproject, h⟩ := Except.bind_eq_ok.mp h
    cases h
    obtain ⟨hsteps, ht⟩ := chainTable_steps (K := K) (T := T) htable
    obtain ⟨hsteps', -, hposition⟩ := project_steps ht hproject
    exact (hsteps.trans hsteps').setColumns hd hkey (List.forall_mem_singleton.mpr hposition)
  · cases h

theorem selectForeignKey_steps {depth : Nat} {m : MemberMapping} {target : String} {surrogate : Bool}
    (hd : d.Placed) (hkey : K (.member m.number))
    (h : selectForeignKey s d depth m target = .ok (surrogate, d')) :
    Steps s K T d d' ∧ d'.layout.HasForeignKey s.catalog m.number target := by
  obtain ⟨identity, hidentity, h⟩ := Except.bind_eq_ok.mp h
  obtain ⟨⟨t, d₁⟩, htable, h⟩ := Except.bind_eq_ok.mp h
  obtain ⟨⟨positions, d₂⟩, hproject, h⟩ := Except.bind_eq_ok.mp h
  cases h
  obtain ⟨hidentity, hwidth⟩ := targetIdentity_spec hidentity
  obtain ⟨hsteps, ht⟩ := chainTable_steps (K := K) (T := T) htable
  obtain ⟨hsteps', -, hlength, hpositions⟩ := projectAll_steps ht hproject
  obtain ⟨hset, hcolumns⟩ := (hsteps.trans hsteps').setColumns hd hkey hpositions
  rw [hlength, List.length_zip, List.length_map, hwidth, Nat.min_self, ← hwidth] at hcolumns
  exact ⟨hset, identity, hidentity, hcolumns⟩

/-! ## Related rows -/

theorem mem_distinctKeys {key : MappingKey} {ks : List MappingKey} :
    key ∈ distinctKeys ks ↔ key ∈ ks := by
  induction ks with
  | nil => rfl
  | cons k ks ih => by_cases hk : key = k <;> simp [distinctKeys, ih, hk]

theorem identityLayout_isKeyed (target : String) (identity : List (MappingKey × Nat)) {n : Nat}
    (h : ∀ e ∈ identity, 1 ≤ e.2 ∧ e.2 ≤ n) :
    (identityLayout target identity).IsKeyed (identity.map Prod.fst) n := by
  refine ((ClassLayout.empty_isKeyed target n).foldl_setColumns
    (distinctKeys (identity.map Prod.fst)) fun key hkey => ⟨?_, ?_⟩).of_subset ?_
  · obtain ⟨e, he, rfl⟩ := List.mem_map.mp (mem_distinctKeys.mp hkey)
    refine List.ne_nil_of_mem (List.mem_map_of_mem (List.mem_filter.mpr ⟨he, ?_⟩))
    exact decide_eq_true rfl
  · intro i hi
    obtain ⟨e, he, rfl⟩ := List.mem_map.mp hi
    exact h e (List.mem_filter.mp he).1
  · intro key hkey
    rw [List.append_nil]
    exact mem_distinctKeys.mpr hkey

theorem selectRelatedFields_steps {related : TableRef} {ks : List MappingKey}
    {child child' : ClassLayout} {members : List MemberMapping} (ht : d.Reads s related)
    (hchild : child.IsKeyed ks d.query.projection.length)
    (h : d.selectRelatedFields related ks child members = .ok (child', d')) :
    Steps s K T d d' ∧ child'.IsKeyed ks d'.query.projection.length := by
  induction members generalizing d child with
  | nil =>
    cases h
    exact ⟨.refl, hchild⟩
  | cons m members ih =>
    unfold selectRelatedFields at h
    split at h
    · split at h
      · exact ih ht hchild h
      · obtain ⟨⟨position, d₁⟩, hproject, h⟩ := Except.bind_eq_ok.mp h
        obtain ⟨hsteps, ht₁, hposition⟩ :=
          project_steps (K := K) (T := T) ht hproject
        have hset := (hchild.mono hsteps.length_le).setColumns (.member m.number)
          (List.cons_ne_nil position []) (List.forall_mem_singleton.mpr hposition)
        obtain ⟨hsteps', hchild'⟩ := ih ht₁ (hset.of_subset (List.subset_cons_self _ _)) h
        exact ⟨hsteps.trans hsteps', hchild'⟩
    · exact ih ht hchild h

/-- The scalar members of a related row and the note of its layout. -/
theorem relatedFields_steps {related : TableRef} {target : String} {identity : List IdentityColumn}
    {child : ClassLayout} {members : List MemberMapping} {number : Nat} {surrogate : Bool}
    {result : Bool × List MappingKey × FetchDraft} (ht : d.Reads s related)
    (hidentity : s.catalog.identityColumns target = .ok identity)
    (hchild : child.IsKeyed (identity.map IdentityColumn.key) d.query.projection.length)
    (hkey : K (.member number))
    (h : (do
      let (child, d) ←
        d.selectRelatedFields related (identity.map IdentityColumn.key) child members
      pure (surrogate, distinctKeys (identity.map IdentityColumn.key),
        { d with layout := d.layout.addChild number child })) = .ok result) :
    Steps s K T d result.2.2 ∧
      result.2.2.layout.HasRelated s.catalog number target result.2.1 := by
  obtain ⟨⟨child', d₁⟩, hfields, h⟩ := Except.bind_eq_ok.mp h
  cases h
  obtain ⟨hsteps, hchild'⟩ := selectRelatedFields_steps ht hchild hfields
  refine ⟨hsteps.tail (.addChild hkey hchild'.toIsRelated), child', ?_, fun key hkey =>
    hchild'.keyed key (mem_distinctKeys.mp hkey), identity, hidentity, fun key => mem_distinctKeys⟩
  rw [ClassLayout.child?_addChild, if_pos rfl]

theorem selectRelated_steps {depth : Nat} {m : MemberMapping} {target : String}
    {surrogate : Bool} {ks : List MappingKey} (hkey : K (.member m.number))
    (htarget : T target)
    (h : selectRelated s d depth m target = .ok (surrogate, ks, d')) :
    Steps s K T d d' ∧ d'.layout.HasRelated s.catalog m.number target ks := by
  obtain ⟨identity, hidentity, h⟩ := Except.bind_eq_ok.mp h
  obtain ⟨k, hk, h⟩ := Except.bind_eq_ok.mp h
  obtain ⟨⟨owner, d₁⟩, htable, h⟩ := Except.bind_eq_ok.mp h
  obtain ⟨on, hon, h⟩ := Except.bind_eq_ok.mp h
  obtain ⟨⟨positions, d₂⟩, hproject, h⟩ := Except.bind_eq_ok.mp h
  obtain ⟨hidentity, hwidth⟩ := targetIdentity_spec hidentity
  obtain ⟨hchain, -⟩ := chainTable_steps (K := K) (T := T) htable
  have hjoin : Step s K T d₁ _ :=
    .joinRelated htarget (ofMetadata_eq_ok.mp hk) (FetchScope.aliasAt d₁.query.nextAlias) on
  obtain ⟨hproject, ht, hlength, hpositions⟩ :=
    projectAll_steps (s := s) (K := K) (T := T) (reads_joined rfl) hproject
  have hsteps := (hchain.tail hjoin).trans hproject
  have hchild := identityLayout_isKeyed target ((identity.map IdentityColumn.key).zip positions)
    fun e he => hpositions _ (List.of_mem_zip he).2
  rw [List.map_fst_zip (by simp [hlength])] at hchild
  dsimp only at h
  split at h
  · obtain ⟨hfields, hrelated⟩ := relatedFields_steps (T := T) ht hidentity hchild hkey h
    exact ⟨hsteps.trans hfields, hrelated⟩
  · obtain ⟨⟨position, d₃⟩, hdiscriminator, h⟩ := Except.bind_eq_ok.mp h
    obtain ⟨hclass, ht₃, hposition⟩ := project_steps (K := K) (T := T) ht hdiscriminator
    have hset := (hchild.mono hclass.length_le).setColumns .discriminator
      (List.cons_ne_nil position []) (List.forall_mem_singleton.mpr hposition)
    obtain ⟨hfields, hrelated⟩ := relatedFields_steps (T := T) ht₃ hidentity
      (hset.of_subset (List.subset_cons_self _ _)) hkey h
    exact ⟨(Steps.trans hsteps hclass).trans hfields, hrelated⟩

end FetchDraft

/-! ## Planning members -/

namespace FetchPlan

open FetchDraft

def members (plan : FetchPlan) : MemberUse → List Nat
  | .field => plan.fields.map FieldPlan.member
  | .stored => plan.store.map StorePlan.member
  | .deferred => plan.deferred

structure HasLayout (c : Catalog) (l : ClassLayout) (plan : FetchPlan) : Prop where
  fields : ∀ f ∈ plan.fields, f.HasLayout c l
  store : ∀ f ∈ plan.store, f.HasLayout c l

theorem empty_hasLayout (c : Catalog) (l : ClassLayout) : empty.HasLayout c l where
  fields _ hf := nomatch hf
  store _ hf := nomatch hf

/-- A plan with one member more, which is found in a layout. -/
structure Adds (plan : FetchPlan) (r : RequestedMember) (c : Catalog) (l : ClassLayout)
    (plan' : FetchPlan) : Prop where
  members : ∀ u, plan'.members u =
    plan.members u ++ if r.use = some u then [r.member.number] else []
  fields : ∀ f ∈ plan'.fields, f ∈ plan.fields ∨ f.member = r.member.number ∧ f.HasLayout c l
  store : ∀ f ∈ plan'.store, f ∈ plan.store ∨ f.member = r.member.number ∧ f.HasLayout c l

section

variable {plan : FetchPlan} {r : RequestedMember} {c : Catalog} {l : ClassLayout}

theorem adds_nothing (huse : r.use = none) : plan.Adds r c l plan :=
  ⟨fun u => by simp [huse], fun _ hf => .inl hf, fun _ hf => .inl hf⟩

theorem adds_deferred (huse : r.use = some .deferred) :
    plan.Adds r c l { plan with deferred := plan.deferred ++ [r.member.number] } :=
  ⟨fun u => by cases u <;> simp [huse, members], fun _ hf => .inl hf, fun _ hf => .inl hf⟩

theorem adds_field {f : FieldPlan} (huse : r.use = some .field) (hf : f.member = r.member.number)
    (hl : f.HasLayout c l) : plan.Adds r c l { plan with fields := plan.fields ++ [f] } := by
  refine ⟨fun u => by cases u <;> simp [huse, hf, members], fun g hg => ?_, fun _ hg => .inl hg⟩
  rcases List.mem_append.mp hg with hg | hg
  · exact .inl hg
  · exact .inr (List.mem_singleton.mp hg ▸ ⟨hf, hl⟩)

theorem adds_store {f : StorePlan} (huse : r.use = some .stored) (hf : f.member = r.member.number)
    (hl : f.HasLayout c l) : plan.Adds r c l { plan with store := plan.store ++ [f] } := by
  refine ⟨fun u => by cases u <;> simp [huse, hf, members], fun _ hg => .inl hg, fun g hg => ?_⟩
  rcases List.mem_append.mp hg with hg | hg
  · exact .inl hg
  · exact .inr (List.mem_singleton.mp hg ▸ ⟨hf, hl⟩)

end

variable {s : FetchScope} {K : MappingKey → Prop} {T : String → Prop} {d d' : FetchDraft}
  {plan plan' : FetchPlan}

theorem addMember_steps {r : RequestedMember} (hd : d.Placed) (hkey : K (.member r.member.number))
    (htarget : ∀ target, r.ReadsRow s target → T target)
    (h : plan.addMember s d r = .ok (plan', d')) :
    Steps s K T d d' ∧ plan.Adds r s.catalog d'.layout plan' := by
  unfold addMember at h
  split at h
  · next hkind hstore =>
    cases h
    exact ⟨.refl, adds_deferred (by simp [RequestedMember.use, hkind, hstore])⟩
  · next target hkind hstore =>
    obtain ⟨⟨surrogate, d₁⟩, hforeign, h⟩ := Except.bind_eq_ok.mp h
    cases h
    obtain ⟨hsteps, hl⟩ := selectForeignKey_steps hd hkey hforeign
    exact ⟨hsteps, adds_store (by simp [RequestedMember.use, hkind, hstore]) rfl hl⟩
  · next hkind hstore =>
    cases h
    exact ⟨.refl, adds_nothing (by simp [RequestedMember.use, hkind, hstore])⟩
  · next hkind hstore =>
    cases h
    exact ⟨.refl, adds_nothing (by simp [RequestedMember.use, hkind, hstore])⟩
  · next hkind hstore =>
    obtain ⟨d₁, hscalar, h⟩ := Except.bind_eq_ok.mp h
    cases h
    obtain ⟨hsteps, hl⟩ := selectScalar_steps hd hkey hscalar
    exact ⟨hsteps, adds_field (by simp [RequestedMember.use, hkind, hstore]) rfl hl⟩
  · next target hkind hstore =>
    have huse : r.use = some .field := by simp [RequestedMember.use, hkind, hstore]
    obtain ⟨readsRow, hreads, h⟩ := Except.bind_eq_ok.mp h
    split at h
    · next hrow =>
      obtain ⟨⟨surrogate, keys, d₁⟩, hrelated, h⟩ := Except.bind_eq_ok.mp h
      cases h
      have hr : T target := htarget target ⟨hkind, hstore, hrow ▸ hreads⟩
      obtain ⟨hsteps, hl⟩ := selectRelated_steps hkey hr hrelated
      exact ⟨hsteps, adds_field huse rfl hl⟩
    · obtain ⟨⟨surrogate, d₁⟩, hforeign, h⟩ := Except.bind_eq_ok.mp h
      cases h
      obtain ⟨hsteps, hl⟩ := selectForeignKey_steps hd hkey hforeign
      exact ⟨hsteps, adds_field huse rfl hl⟩

/-- Steps that are not about the members of a plan keep its layouts. -/
theorem HasLayout.mono {c : Catalog} (h : plan.HasLayout c d.layout) (hd : d.Placed)
    (hsteps : Steps s K T d d') (hkeys : ∀ u, ∀ n ∈ plan.members u, ¬K (.member n)) :
    plan.HasLayout c d'.layout := by
  have hcolumns {n : Nat} (hn : ¬K (.member n)) (width : Nat)
      (hl : d.layout.layout.HasColumns (.member n) width) :
      d'.layout.layout.HasColumns (.member n) width := by
    rwa [Layout.HasColumns, hsteps.find?_eq hd hn]
  refine ⟨fun f hf => ?_, fun f hf => ?_⟩
  · have hn := hkeys .field f.member (List.mem_map_of_mem hf)
    exact (h.fields f hf).mono (hcolumns hn) (hsteps.child?_eq hn)
  · exact (h.store f hf).mono (hcolumns (hkeys .stored f.member (List.mem_map_of_mem hf)))

theorem Adds.hasLayout {r : RequestedMember} {c : Catalog} {l : ClassLayout}
    (h : plan.Adds r c l plan') (hplan : plan.HasLayout c l) : plan'.HasLayout c l :=
  ⟨fun f hf => (h.fields f hf).elim (hplan.fields f) And.right,
    fun f hf => (h.store f hf).elim (hplan.store f) And.right⟩

/-- A plan of members with different numbers uses each of them in its way, in their order. -/
theorem addMembers_steps {rs : List RequestedMember} (hd : d.Placed)
    (hkey : ∀ r ∈ rs, K (.member r.member.number))
    (htarget : ∀ r ∈ rs, ∀ target, r.ReadsRow s target → T target)
    (hnodup : (rs.map fun r => r.member.number).Nodup)
    (hfresh : ∀ u, ∀ n ∈ plan.members u, ∀ r ∈ rs, r.member.number ≠ n)
    (hplan : plan.HasLayout s.catalog d.layout) (h : plan.addMembers s d rs = .ok (plan', d')) :
    Steps s K T d d' ∧ plan'.HasLayout s.catalog d'.layout ∧ ∀ u, plan'.members u =
      plan.members u ++ (rs.filter fun r => r.use = some u).map fun r => r.member.number := by
  induction rs generalizing plan d with
  | nil =>
    cases h
    exact ⟨.refl, hplan, fun u => by simp⟩
  | cons r rs ih =>
    obtain ⟨⟨plan₁, d₁⟩, hmember, h⟩ := Except.bind_eq_ok.mp h
    obtain ⟨hr, hrs⟩ := List.forall_mem_cons.mp hkey
    obtain ⟨hnew, hnodup⟩ := List.nodup_cons.mp hnodup
    obtain ⟨hsteps, hadds⟩ := addMember_steps hd hr (htarget r List.mem_cons_self) hmember
    have hplan₁ : plan₁.HasLayout s.catalog d₁.layout := by
      -- the step of this member touches no entry of the plan so far
      have hown := addMember_steps (K := (· = .member r.member.number)) (T := T) hd rfl
        (htarget r List.mem_cons_self) hmember
      refine hadds.hasLayout (hplan.mono hd hown.1 fun u n hn heq => ?_)
      exact hfresh u n hn r List.mem_cons_self (MappingKey.member.inj heq).symm
    have hfresh₁ : ∀ u, ∀ n ∈ plan₁.members u, ∀ r' ∈ rs, r'.member.number ≠ n := by
      intro u n hn r' hr' heq
      rw [hadds.members u] at hn
      rcases List.mem_append.mp hn with hn | hn
      · exact hfresh u n hn r' (List.mem_cons_of_mem r hr') heq
      · split at hn
        · rw [List.mem_singleton.mp hn] at heq
          exact hnew (List.mem_map.mpr ⟨r', hr', heq⟩)
        · cases hn
    obtain ⟨hsteps', hlayout, hmembers⟩ := ih (hsteps.placed hd) hrs
      (fun r' hr' => htarget r' (List.mem_cons_of_mem r hr')) hnodup hfresh₁ hplan₁ h
    refine ⟨hsteps.trans hsteps', hlayout, fun u => ?_⟩
    rw [hmembers u, hadds.members u, List.append_assoc, List.filter_cons]
    by_cases huse : r.use = some u <;> simp [huse]

end FetchPlan

/-! ## Planned drafts -/

/-- A draft from which the version and all requested members are read. -/
structure FetchDraft.IsPlanned (s : FetchScope) (requested : List RequestedMember)
    (version : Option VersionMapping) (plan : FetchPlan) (d : FetchDraft) : Prop where
  steps (T : String → Prop) : (∀ r ∈ requested, ∀ target, r.ReadsRow s target → T target) →
    ∃ className, Steps s (fun _ => True) T (.start className (s.tableAt s.primary)) d
  layout : plan.HasLayout s.catalog d.layout
  selected : version = s.version
  versioned : version.isSome ∧ d.layout.layout.HasColumns .version 1 ∨
    version = none ∧ d.layout.layout.find? .version = none
  members : ∀ u, plan.members u =
    (requested.filter fun r => r.use = some u).map (·.member.number)

namespace FetchDraft

variable {s : FetchScope} {requested : List RequestedMember} {version : Option VersionMapping}
  {plan : FetchPlan} {d : FetchDraft}

theorem IsPlanned.placed (h : d.IsPlanned s requested version plan) : d.Placed := by
  obtain ⟨className, hsteps⟩ := h.steps (fun _ => True) fun _ _ _ _ => trivial
  exact hsteps.placed (start_placed _ _)

end FetchDraft

open FetchDraft in
theorem FetchRequest.Stages.planned {c : Catalog} {p : Profile} {className : String}
    {fetch store : List Nat} {r : FetchRequest} {s : FetchScope} {requested : List RequestedMember}
    {version : Option VersionMapping} {plan : FetchPlan} {d : FetchDraft}
    (h : r.Stages c p (.ofLists className fetch store) s requested version plan d) :
    d.IsPlanned s requested version plan := by
  obtain ⟨d₁, hversion, hmembers⟩ := h.selected
  have hstart := start_placed className (s.tableAt s.primary)
  have hselect {K : MappingKey → Prop} (T : String → Prop) (hkey : K .version) :=
    selectVersion_steps (T := T) hstart hkey hversion
  have hplan {K : MappingKey → Prop} {T : String → Prop}
      (hkey : ∀ r ∈ requested, K (.member r.member.number))
      (htarget : ∀ r ∈ requested, ∀ target, r.ReadsRow s target → T target) :=
    FetchPlan.addMembers_steps ((hselect (K := fun _ => True) T trivial).1.placed hstart) hkey
      htarget (FetchScope.nodup_requested h.scope) (fun u n hn => by cases u <;> cases hn)
      (FetchPlan.empty_hasLayout s.catalog d₁.layout) hmembers
  obtain ⟨hsteps, hversion, hversioned⟩ := hselect (K := fun _ => True) (fun _ => True) trivial
  obtain ⟨hsteps', hlayout, hmembers⟩ := hplan (K := fun key => ∃ n, key = .member n)
    (T := fun _ => True) (fun _ _ => ⟨_, rfl⟩) fun _ _ _ _ => trivial
  -- members have keys of their own
  have hkept : d.layout.layout.find? .version = d₁.layout.layout.find? .version :=
    hsteps'.find?_eq (hsteps.placed hstart) (by simp)
  refine ⟨fun T htarget => ⟨className, ?_⟩, hlayout, hversion, ?_, fun u => ?_⟩
  · exact (hselect T trivial).1.trans (hplan (fun _ _ => trivial) htarget).1
  · rw [Layout.HasColumns, hkept]
    exact hversioned.symm.imp id fun ⟨hnone, hd₁⟩ => ⟨hnone, hd₁ ▸ rfl⟩
  · rw [hmembers u]
    cases u <;> rfl

end ObjectSql
