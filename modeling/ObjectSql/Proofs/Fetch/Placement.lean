import ObjectSql.Proofs.Fetch.Plan
import ObjectSql.Proofs.Fetch.Rows

/-!
# Places of foreign keys and related rows

A foreign key is projected from the table of the class that declares the relation, and its member
has the positions of its columns in their order. The identity of a related row is projected from the
joined table of the target, and the layout of that row has the positions of each key. Members that
are planned later leave these places as they are.
-/
namespace ObjectSql

open FetchError

/-! ## Identity columns by key -/

namespace Catalog

/-- Columns of one key stand side by side. -/
def Grouped : List IdentityColumn → Prop
  | x :: y :: xs => (x.key = y.key ∨ x.key ∉ (y :: xs).map IdentityColumn.key) ∧ Grouped (y :: xs)
  | _ => True

theorem grouped_append {key : MappingKey} {xs ys : List IdentityColumn}
    (hxs : ∀ x ∈ xs, x.key = key) (hys : Grouped ys) (hkey : key ∉ ys.map IdentityColumn.key) :
    Grouped (xs ++ ys) := by
  induction xs with
  | nil => exact hys
  | cons x xs ih =>
    obtain ⟨hx, hxs⟩ := List.forall_mem_cons.mp hxs
    have hrest := ih hxs
    cases xs with
    | nil =>
      cases ys with
      | nil => trivial
      | cons y ys => exact ⟨.inr (hx ▸ hkey), hys⟩
    | cons x' xs => exact ⟨.inl (hx.trans (hxs x' List.mem_cons_self).symm), hrest⟩

theorem key_of_member {x : IdentityColumn} {number : Nat} (h : x.member = some number) :
    x.key = .member number := by
  rw [IdentityColumn.key, h]
  rfl

theorem grouped_flatten {numbers : List Nat} {lists : List (List IdentityColumn)}
    (h : List.Forall₂ (fun number columns => (∀ x ∈ columns, x.member = some number) ∧
      (columns.map IdentityColumn.position).Nodup) numbers lists) (hnodup : numbers.Nodup) :
    Grouped lists.flatten := by
  induction h with
  | nil => trivial
  | cons hcolumns hrest ih =>
    obtain ⟨hnot, htail⟩ := List.nodup_cons.mp hnodup
    refine grouped_append (fun x hx => key_of_member (hcolumns.1 x hx)) (ih htail) fun hmem => ?_
    obtain ⟨x, hx, hkey⟩ := List.mem_map.mp hmem
    obtain ⟨number, hnumber, hx⟩ := (nodup_flatten_keys hrest htail).2 x hx
    exact hnot (MappingKey.member.inj ((key_of_member hx).symm.trans hkey) ▸ hnumber)

/-- The columns of an identity stand in the order of its members. -/
theorem identityColumns_grouped {c : Catalog} {name : String} {columns : List IdentityColumn}
    (hc : c.DistinctKeys) (h : c.identityColumns name = .ok columns) : Grouped columns := by
  obtain ⟨strategy, hstrategy, h⟩ := Except.bind_eq_ok.mp h
  cases strategy with
  | surrogate column logicalType =>
    cases h
    trivial
  | application members =>
    obtain ⟨lists, hlists, h⟩ := Except.bind_eq_ok.mp h
    cases h
    obtain ⟨k, hk, hidentity⟩ := identity_spec hstrategy
    refine grouped_flatten ((mapM_eq_ok hlists).imp fun number columns hcolumns => ?_)
      (hc k hk members hidentity)
    obtain ⟨⟨depth, m⟩, hm, hcolumns⟩ := Except.bind_eq_ok.mp hcolumns
    obtain ⟨chain, -, hdeclares⟩ := member_spec hm
    rw [← hdeclares.number_eq]
    exact keyColumns_spec hcolumns

end Catalog

namespace FetchDraft

theorem filter_distinctKeys_cons (key : MappingKey) (ks : List MappingKey) :
    (distinctKeys (key :: ks)).filter (· ≠ key) = (distinctKeys ks).filter (· ≠ key) := by
  rw [distinctKeys, List.filter_cons_of_neg (by simp), List.filter_filter]
  simp only [Bool.and_self]

theorem filter_distinctKeys_of_not_mem {key : MappingKey} {ks : List MappingKey} (h : key ∉ ks) :
    (distinctKeys ks).filter (· ≠ key) = distinctKeys ks := by
  rw [List.filter_eq_self]
  intro k hk
  rw [decide_eq_true_eq]
  rintro rfl
  exact h (mem_distinctKeys.mp hk)

/-- The columns of the first key, and then those of the others. -/
theorem flatMap_distinctKeys_cons (x : IdentityColumn) (xs : List IdentityColumn) :
    (distinctKeys ((x :: xs).map IdentityColumn.key)).flatMap
        (fun key => (x :: xs).filter fun y => y.key = key) =
      x :: (xs.filter (fun y => y.key = x.key) ++
        ((distinctKeys (xs.map IdentityColumn.key)).filter (· ≠ x.key)).flatMap
          fun key => xs.filter fun y => y.key = key) := by
  rw [List.map_cons, distinctKeys, List.flatMap_cons, List.filter_cons_of_pos (by simp),
    List.cons_append]
  refine congrArg (fun l => x :: (xs.filter (fun y => y.key = x.key) ++ l))
    (List.flatMap_congr fun key hkey => List.filter_cons_of_neg ?_)
  have hne : key ≠ x.key := of_decide_eq_true (List.mem_filter.mp hkey).2
  simpa using Ne.symm hne

/-- The columns of each key in turn are all columns in their order. -/
theorem flatMap_distinctKeys {xs : List IdentityColumn} (h : Catalog.Grouped xs) :
    (distinctKeys (xs.map IdentityColumn.key)).flatMap (fun key => xs.filter fun x => x.key = key) =
      xs := by
  induction xs with
  | nil => rfl
  | cons x xs ih =>
    rw [flatMap_distinctKeys_cons, List.cons.injEq]
    refine ⟨rfl, ?_⟩
    cases xs with
    | nil => rfl
    | cons y xs =>
      obtain ⟨hhead, htail⟩ := h
      have hxs := ih htail
      rcases hhead with hsame | hnew
      · rw [List.map_cons, hsame, filter_distinctKeys_cons]
        rwa [List.map_cons, distinctKeys, List.flatMap_cons] at hxs
      · have hnone : (y :: xs).filter (fun z => z.key = x.key) = [] := by
          rw [List.filter_eq_nil_iff]
          intro z hz heq
          exact hnew (List.mem_map.mpr ⟨z, hz, of_decide_eq_true heq⟩)
        rw [hnone, filter_distinctKeys_of_not_mem hnew, List.nil_append]
        exact hxs

end FetchDraft

/-! ## Columns at positions -/

/-- Columns of a table stand at positions of a projection, one each. -/
def StandsAt (projection : List Expr) (t : TableRef) (columns : List String)
    (positions : List Nat) : Prop :=
  List.Forall₂ (fun column n => ∃ i logicalType, n = i + 1 ∧
    projection[i]? = some (.column t column logicalType)) columns positions

namespace StandsAt

variable {projection projection' : List Expr} {t : TableRef} {columns : List String}
  {positions : List Nat}

theorem ne_nil (h : StandsAt projection t columns positions) (hcolumns : columns ≠ []) :
    projection ≠ [] := by
  rintro rfl
  cases h with
  | nil => exact hcolumns rfl
  | cons hhead _ =>
    obtain ⟨i, logicalType, -, hget⟩ := hhead
    simp at hget

theorem mono (h : StandsAt projection t columns positions) (hextends : projection <+: projection') :
    StandsAt projection' t columns positions := by
  obtain ⟨es, rfl⟩ := hextends
  refine h.imp fun column n ⟨i, logicalType, hn, hget⟩ => ⟨i, logicalType, hn, ?_⟩
  rw [List.getElem?_append_left (List.getElem?_eq_some_iff.mp hget).1, hget]

/-- A row of the projection is read column by column. -/
theorem readAll (h : StandsAt projection t columns positions) (db : Datastore)
    (val : BoundParameter → Value) (env : RowScope) :
    readAll (projection.map (db.value val env)) positions =
      .ok (columns.map (env t.aliasName)) := by
  rw [ObjectSql.readAll, mapM_eq_ok_iff, List.forall₂_map_right_iff]
  refine h.flip.imp fun n column ⟨i, logicalType, hn, hget⟩ => ?_
  subst hn
  simp only [readAt, Nat.add_sub_cancel, List.getElem?_map, hget]
  rfl

/-- The columns of one key and their positions. -/
theorem filter {identity : List IdentityColumn}
    (h : StandsAt projection t (identity.map IdentityColumn.column) positions) (key : MappingKey) :
    StandsAt projection t ((identity.filter fun x => x.key = key).map IdentityColumn.column)
      ((((identity.map IdentityColumn.key).zip positions).filter fun e => e.1 = key).map
        Prod.snd) := by
  unfold StandsAt at *
  rw [List.forall₂_map_left_iff] at *
  induction h with
  | nil => exact .nil
  | @cons x n identity positions hx _ ih =>
    rw [List.map_cons, List.zip_cons_cons, List.filter_cons, List.filter_cons]
    by_cases hkey : x.key = key
    · simpa [hkey] using And.intro hx ih
    · simpa [hkey] using ih

end StandsAt

/-! ## Tables of a draft -/

namespace FetchScope

def Owns (s : FetchScope) (q : Select) (depth : Nat) (t : TableRef) : Prop :=
  depth = s.primary ∧ t = q.table ∨
    depth ≠ s.primary ∧ t.name = s.tableAt depth ∧ s.chainJoin q.table t ∈ q.joins

theorem Joins.chainJoin_mem {s : FetchScope} {primary : TableRef} {js : List Join} {n : Nat}
    {joined : List (Nat × TableRef)} (h : s.Joins primary js n joined) {depth : Nat} {t : TableRef}
    (ht : (depth, t) ∈ joined) :
    depth ≠ s.primary ∧ t.name = s.tableAt depth ∧ s.chainJoin primary t ∈ js := by
  induction h with
  | nil => cases ht
  | chain _ hprimary _ ih =>
    rcases List.mem_cons.mp ht with heq | ht
    · cases heq
      exact ⟨hprimary, rfl, List.mem_append_right _ List.mem_cons_self⟩
    · obtain ⟨hne, hname, hjoin⟩ := ih ht
      exact ⟨hne, hname, List.mem_append_left _ hjoin⟩
  | related _ _ _ _ _ ih =>
    obtain ⟨hne, hname, hjoin⟩ := ih ht
    exact ⟨hne, hname, List.mem_append_left _ hjoin⟩

end FetchScope

namespace FetchDraft

variable {s : FetchScope} {K : MappingKey → Prop} {T : String → Prop} {d d' : FetchDraft}

theorem HasTable.owns {depth : Nat} {t : TableRef} (h : d.HasTable s depth t)
    (hd : d.WellJoined s) : s.Owns d.query depth t := by
  rcases h with h | h
  · exact .inl h
  · exact .inr (hd.chainJoin_mem h)

theorem Steps.query (h : Steps s K T d d') :
    d'.query.table = d.query.table ∧ d.query.joins <+: d'.query.joins := by
  induction h with
  | refl => exact ⟨rfl, List.prefix_rfl⟩
  | tail _ hstep ih =>
    obtain ⟨htable, hjoins⟩ := ih
    cases hstep with
    | project _ h =>
      obtain ⟨es, types, rfl, -⟩ := project_cases h
      exact ⟨htable, hjoins⟩
    | joinChain | joinRelated => exact ⟨htable, hjoins.trans (List.prefix_append _ _)⟩
    | setColumns | addChild | addCondition => exact ⟨htable, hjoins⟩

theorem Steps.owns (h : Steps s K T d d') {depth : Nat} {t : TableRef}
    (ht : s.Owns d.query depth t) : s.Owns d'.query depth t := by
  obtain ⟨htable, hjoins⟩ := h.query
  rcases ht with ⟨hdepth, ht⟩ | ⟨hdepth, hname, hjoin⟩
  · exact .inl ⟨hdepth, ht.trans htable.symm⟩
  · exact .inr ⟨hdepth, hname, hjoins.subset (htable ▸ hjoin)⟩

/-! ## Foreign keys -/

theorem projectAll_standsAt (s : FetchScope) {t : TableRef} {columns : List (String × String)}
    {positions : List Nat} (h : d.projectAll t columns = .ok (positions, d')) :
    StandsAt d'.query.projection t (columns.map Prod.fst) positions := by
  induction columns generalizing d positions with
  | nil =>
    cases h
    exact .nil
  | cons column columns ih =>
    obtain ⟨⟨position, d₁⟩, hproject, h⟩ := Except.bind_eq_ok.mp h
    obtain ⟨⟨rest, d₂⟩, hrest, h⟩ := Except.bind_eq_ok.mp h
    cases h
    obtain ⟨-, i, rfl, hget⟩ := project_spec (s := s) hproject
    obtain ⟨es, hes⟩ := (projectAll_grows (s := s) hrest).projection
    refine .cons ⟨i, column.2, rfl, ?_⟩ (ih hrest)
    rw [← hes, List.getElem?_append_left (List.getElem?_eq_some_iff.mp hget).1, hget]

/-- The foreign key of a relation stands where its member is read. -/
structure HasForeignKeyAt (s : FetchScope) (q : Select) (l : Layout) (depth number : Nat)
    (columns : List String) (owner : TableRef) : Prop where
  owns : s.Owns q depth owner
  stands : StandsAt q.projection owner columns (l.positions (.member number))

theorem HasForeignKeyAt.steps {depth number : Nat} {columns : List String} {owner : TableRef}
    (h : HasForeignKeyAt s d.query d.layout.layout depth number columns owner) (hd : d.Placed)
    (hsteps : Steps s K T d d') (hkey : ¬K (.member number)) :
    HasForeignKeyAt s d'.query d'.layout.layout depth number columns owner := by
  refine ⟨hsteps.owns h.owns, ?_⟩
  rw [Layout.positions, hsteps.find?_eq hd hkey]
  exact h.stands.mono hsteps.projection

/-- Noting the placeholders of a statement leaves the places of its columns. -/
theorem HasForeignKeyAt.finish {depth number : Nat} {columns : List String} {owner : TableRef}
    (h : HasForeignKeyAt s d.query d.layout.layout depth number columns owner) (hd : d.Placed)
    (p : Profile) : HasForeignKeyAt s (d.finish p).query (d.finish p).layout.layout depth number
      columns owner := by
  refine ⟨h.owns, ?_⟩
  rw [show (d.finish p).layout.layout.positions (.member number) =
    d.layout.layout.positions (.member number) from
      Layout.positions_recordParameters hd.sorted _ _]
  exact h.stands

theorem selectForeignKey_at {depth : Nat} {m : MemberMapping} {target : String} {surrogate : Bool}
    (hd : d.Placed) (hjoined : d.WellJoined s)
    (h : selectForeignKey s d depth m target = .ok (surrogate, d')) :
    ∃ identity owner, s.catalog.identityColumns target = .ok identity ∧
      identity.length = m.columns.length ∧ surrogate = isSurrogate identity ∧
      HasForeignKeyAt s d'.query d'.layout.layout depth m.number m.columns owner := by
  have hjoined' := (selectForeignKey_grows h).joins hjoined
  obtain ⟨identity, hidentity, h⟩ := Except.bind_eq_ok.mp h
  obtain ⟨⟨owner, d₁⟩, htable, h⟩ := Except.bind_eq_ok.mp h
  obtain ⟨⟨positions, d₂⟩, hproject, h⟩ := Except.bind_eq_ok.mp h
  cases h
  obtain ⟨hidentity, hwidth⟩ := targetIdentity_spec hidentity
  obtain ⟨hchain, howner⟩ := chainTable_spec htable
  have hgrows := projectAll_grows (s := s) hproject
  have hsorted : d₂.layout.layout.Sorted := hgrows.sorted (hchain.sorted hd.sorted)
  refine ⟨identity, owner, hidentity, hwidth, rfl, (hgrows.hasTable howner).owns hjoined', ?_⟩
  have hcolumns := projectAll_standsAt s hproject
  rw [List.map_fst_zip (by simp [hwidth])] at hcolumns
  rw [show (d₂.setColumns (.member m.number) positions).layout.layout.positions
      (.member m.number) = positions from positions_setColumns hsorted _ _]
  exact hcolumns

/-! ## Related rows -/

theorem positions_foldl_setColumns {f : MappingKey → List Nat} (ks : List MappingKey) {l : Layout}
    (h : l.Sorted) (key : MappingKey) :
    (ks.foldl (fun l key => l.setColumns key (f key)) l).positions key =
      if key ∈ ks then f key else l.positions key := by
  induction ks generalizing l with
  | nil => simp
  | cons k ks ih =>
    have hset : (l.setColumns k (f k)).Sorted := h.modify k _
    rw [List.foldl_cons, ih hset, Layout.positions_setColumns h]
    by_cases hks : key ∈ ks
    · simp [hks]
    · by_cases hk : key = k <;> simp [hk, hks]

theorem identityLayout_positions (target : String) {entries : List (MappingKey × Nat)}
    {key : MappingKey} (h : key ∈ entries.map Prod.fst) :
    (identityLayout target entries).layout.positions key =
      (entries.filter fun e => e.1 = key).map Prod.snd :=
  (positions_foldl_setColumns _ List.Pairwise.nil key).trans (if_pos (mem_distinctKeys.mpr h))

theorem selectRelatedFields_positions {related : TableRef} {ks : List MappingKey}
    {child child' : ClassLayout} {members : List MemberMapping} (hchild : child.layout.Sorted)
    (h : d.selectRelatedFields related ks child members = .ok (child', d')) {key : MappingKey}
    (hkey : key ∈ ks) : child'.layout.positions key = child.layout.positions key := by
  induction members generalizing d child with
  | nil =>
    cases h
    rfl
  | cons m members ih =>
    unfold selectRelatedFields at h
    split at h
    · split at h
      · exact ih hchild h
      · next hnot =>
        obtain ⟨⟨position, d₁⟩, hproject, h⟩ := Except.bind_eq_ok.mp h
        rw [ih (hchild.modify _ _) h, Layout.positions_setColumns hchild, if_neg]
        rintro rfl
        exact hnot (List.contains_iff_mem.mpr hkey)
    · exact ih hchild h

/-- The identity of a related row stands where the layout of the row has its keys. -/
structure HasRelatedAt (s : FetchScope) (q : Select) (l : ClassLayout) (depth number : Nat)
    (columns : List String) (identity : List IdentityColumn) (owner related : TableRef) : Prop where
  owns : s.Owns q depth owner
  joined : FetchScope.relatedJoin owner related columns identity ∈ q.joins
  stands : ∃ child, l.child? number = some child ∧
    ∀ key ∈ identity.map IdentityColumn.key, StandsAt q.projection related
      ((identity.filter fun x => x.key = key).map IdentityColumn.column)
      (child.layout.positions key)

theorem HasRelatedAt.projection_ne_nil {q : Select} {l : ClassLayout} {depth number : Nat}
    {columns : List String} {identity : List IdentityColumn} {owner related : TableRef}
    (h : HasRelatedAt s q l depth number columns identity owner related)
    (hidentity : identity ≠ []) : q.projection ≠ [] := by
  obtain ⟨x, hx⟩ := List.exists_mem_of_ne_nil identity hidentity
  obtain ⟨child, -, hstands⟩ := h.stands
  refine (hstands x.key (List.mem_map_of_mem hx)).ne_nil (List.ne_nil_of_mem (a := x.column) ?_)
  exact List.mem_map_of_mem (List.mem_filter.mpr ⟨hx, decide_eq_true rfl⟩)

theorem HasRelatedAt.steps {depth number : Nat} {columns : List String}
    {identity : List IdentityColumn} {owner related : TableRef}
    (h : HasRelatedAt s d.query d.layout depth number columns identity owner related)
    (hsteps : Steps s K T d d') (hkey : ¬K (.member number)) :
    HasRelatedAt s d'.query d'.layout depth number columns identity owner related := by
  obtain ⟨child, hchild, hstands⟩ := h.stands
  exact ⟨hsteps.owns h.owns, hsteps.query.2.subset h.joined, child,
    (hsteps.child?_eq hkey).trans hchild, fun key hk => (hstands key hk).mono hsteps.projection⟩

theorem key_ne_discriminator {key : MappingKey} {identity : List IdentityColumn}
    (h : key ∈ identity.map IdentityColumn.key) : key ≠ .discriminator := by
  obtain ⟨x, -, rfl⟩ := List.mem_map.mp h
  cases hmember : x.member <;> simp [IdentityColumn.key, hmember]

theorem HasRelatedAt.finish {depth number : Nat} {columns : List String}
    {identity : List IdentityColumn} {owner related : TableRef}
    (h : HasRelatedAt s d.query d.layout depth number columns identity owner related)
    (p : Profile) :
    HasRelatedAt s (d.finish p).query (d.finish p).layout depth number columns identity owner
      related :=
  ⟨h.owns, h.joined, h.stands⟩

/-- The scalar members of a related row leave the places of its identity. -/
theorem relatedFields_at {depth number : Nat} {target : String} {columns : List String}
    {identity : List IdentityColumn} {owner related : TableRef} {child : ClassLayout}
    {members : List MemberMapping} {surrogate : Bool} {result : Bool × List MappingKey × FetchDraft}
    (ht : d.Reads s related) (hidentity : s.catalog.identityColumns target = .ok identity)
    (hchild : child.IsKeyed (identity.map IdentityColumn.key) d.query.projection.length)
    (howns : s.Owns d.query depth owner)
    (hjoined : FetchScope.relatedJoin owner related columns identity ∈ d.query.joins)
    (hstands : ∀ key ∈ identity.map IdentityColumn.key, StandsAt d.query.projection related
      ((identity.filter fun x => x.key = key).map IdentityColumn.column)
      (child.layout.positions key))
    (h : (do
      let (child, d) ←
        d.selectRelatedFields related (identity.map IdentityColumn.key) child members
      pure (surrogate, distinctKeys (identity.map IdentityColumn.key),
        { d with layout := d.layout.addChild number child })) = .ok result) :
    result.1 = surrogate ∧ result.2.1 = distinctKeys (identity.map IdentityColumn.key) ∧
      HasRelatedAt s result.2.2.query result.2.2.layout depth number columns identity owner
        related := by
  have hsteps := (relatedFields_steps (K := fun _ => True) (T := fun _ => True) ht hidentity hchild
    trivial h).1
  obtain ⟨⟨child', d₁⟩, hfields, h⟩ := Except.bind_eq_ok.mp h
  cases h
  refine ⟨rfl, rfl, hsteps.owns howns, hsteps.query.2.subset hjoined, child',
    (ClassLayout.child?_addChild ..).trans (if_pos rfl), fun key hkey => ?_⟩
  rw [selectRelatedFields_positions hchild.sorted hfields hkey]
  exact (hstands key hkey).mono hsteps.projection

theorem selectRelated_at {depth : Nat} {m : MemberMapping} {target : String} {surrogate : Bool}
    {keys : List MappingKey} (hd : d.WellJoined s)
    (h : selectRelated s d depth m target = .ok (surrogate, keys, d')) :
    ∃ identity k owner related, s.catalog.identityColumns target = .ok identity ∧
      s.catalog.getClass target = .ok k ∧ related.name = k.table.name ∧
      surrogate = isSurrogate identity ∧ keys = distinctKeys (identity.map IdentityColumn.key) ∧
      HasRelatedAt s d'.query d'.layout depth m.number m.columns identity owner related := by
  obtain ⟨identity, hidentity, h⟩ := Except.bind_eq_ok.mp h
  obtain ⟨k, hk, h⟩ := Except.bind_eq_ok.mp h
  obtain ⟨⟨owner, d₁⟩, htable, h⟩ := Except.bind_eq_ok.mp h
  obtain ⟨on, hon, h⟩ := Except.bind_eq_ok.mp h
  obtain ⟨⟨positions, d₂⟩, hproject, h⟩ := Except.bind_eq_ok.mp h
  obtain ⟨hidentity, hwidth⟩ := targetIdentity_spec hidentity
  obtain ⟨hchain, howner⟩ := chainTable_spec htable
  rw [columnsEqual_spec hon] at hproject
  have hgrows := (joinRelated_grows howner (ofMetadata_eq_ok.mp hk) hidentity hwidth).trans
    (projectAll_grows hproject)
  have howns := (hgrows.hasTable howner).owns (hgrows.joins (hchain.joins hd))
  obtain ⟨hsteps, ht, hlength, hpositions⟩ := projectAll_steps (s := s) (K := fun _ => True)
    (T := fun _ => True) (reads_joined rfl) hproject
  have hjoined := hsteps.query.2.subset (List.mem_append_right _ List.mem_cons_self)
  have hchild := identityLayout_isKeyed target ((identity.map IdentityColumn.key).zip positions)
    fun e he => hpositions _ (List.of_mem_zip he).2
  have hkeys : ((identity.map IdentityColumn.key).zip positions).map Prod.fst =
      identity.map IdentityColumn.key := List.map_fst_zip (by simp [hlength])
  rw [hkeys] at hchild
  have hcolumns := projectAll_standsAt s hproject
  rw [List.map_map] at hcolumns
  have hstands : ∀ key ∈ identity.map IdentityColumn.key, StandsAt d₂.query.projection
      ⟨k.table.name, FetchScope.aliasAt d₁.query.nextAlias⟩
      ((identity.filter fun x => x.key = key).map IdentityColumn.column)
      ((identityLayout target ((identity.map IdentityColumn.key).zip positions)).layout.positions
        key) := by
    intro key hkey
    rw [identityLayout_positions target (hkeys.symm ▸ hkey)]
    exact StandsAt.filter hcolumns key
  refine ⟨identity, k, owner, ⟨k.table.name, FetchScope.aliasAt d₁.query.nextAlias⟩, hidentity,
    ofMetadata_eq_ok.mp hk, rfl, ?_⟩
  dsimp only at h
  split at h
  · exact relatedFields_at ht hidentity hchild howns hjoined hstands h
  · obtain ⟨⟨position, d₃⟩, hdiscriminator, h⟩ := Except.bind_eq_ok.mp h
    obtain ⟨hclass, ht₃, hposition⟩ :=
      project_steps (K := fun _ => True) (T := fun _ => True) ht hdiscriminator
    have hset := (hchild.mono hclass.length_le).setColumns .discriminator
      (List.cons_ne_nil position []) (List.forall_mem_singleton.mpr hposition)
    refine relatedFields_at ht₃ hidentity (hset.of_subset (List.subset_cons_self _ _))
      (hclass.owns howns) (hclass.query.2.subset hjoined) (fun key hkey => ?_) h
    rw [Layout.positions_setColumns hchild.sorted, if_neg (key_ne_discriminator hkey)]
    exact (hstands key hkey).mono hclass.projection

end FetchDraft

/-! ## Planned relations -/

namespace FetchPlan

open FetchDraft

variable {s : FetchScope} {K : MappingKey → Prop} {d d' : FetchDraft} {plan plan' : FetchPlan}
  {r : RequestedMember} {rs rs' : List RequestedMember}

theorem addMember_prefix (h : plan.addMember s d r = .ok (plan', d')) :
    plan.fields <+: plan'.fields ∧ plan.store <+: plan'.store := by
  unfold addMember at h
  split at h
  · cases h
    exact ⟨List.prefix_rfl, List.prefix_rfl⟩
  · obtain ⟨⟨surrogate, d₁⟩, -, h⟩ := Except.bind_eq_ok.mp h
    cases h
    exact ⟨List.prefix_rfl, List.prefix_append _ _⟩
  · cases h
    exact ⟨List.prefix_rfl, List.prefix_rfl⟩
  · cases h
    exact ⟨List.prefix_rfl, List.prefix_rfl⟩
  · obtain ⟨d₁, -, h⟩ := Except.bind_eq_ok.mp h
    cases h
    exact ⟨List.prefix_append _ _, List.prefix_rfl⟩
  · obtain ⟨readsRow, -, h⟩ := Except.bind_eq_ok.mp h
    split at h
    · obtain ⟨⟨surrogate, keys, d₁⟩, -, h⟩ := Except.bind_eq_ok.mp h
      cases h
      exact ⟨List.prefix_append _ _, List.prefix_rfl⟩
    · obtain ⟨⟨surrogate, d₁⟩, -, h⟩ := Except.bind_eq_ok.mp h
      cases h
      exact ⟨List.prefix_append _ _, List.prefix_rfl⟩

theorem addMembers_append (h : plan.addMembers s d (rs ++ rs') = .ok (plan', d')) :
    ∃ plan₁ d₁, plan.addMembers s d rs = .ok (plan₁, d₁) ∧
      plan₁.addMembers s d₁ rs' = .ok (plan', d') := by
  induction rs generalizing plan d with
  | nil => exact ⟨plan, d, rfl, h⟩
  | cons r rs ih =>
    obtain ⟨⟨plan₁, d₁⟩, hmember, h⟩ := Except.bind_eq_ok.mp h
    obtain ⟨plan₂, d₂, hrs, hrs'⟩ := ih h
    exact ⟨plan₂, d₂, Except.bind_eq_ok.mpr ⟨_, hmember, hrs⟩, hrs'⟩

/-- Members set keys of their own, and what has been planned stays. -/
theorem addMembers_reach (hd : d.Placed) (hkey : ∀ r ∈ rs, K (.member r.member.number))
    (h : plan.addMembers s d rs = .ok (plan', d')) :
    Steps s K (fun _ => True) d d' ∧ plan.fields <+: plan'.fields ∧ plan.store <+: plan'.store := by
  induction rs generalizing plan d with
  | nil =>
    cases h
    exact ⟨.refl, List.prefix_rfl, List.prefix_rfl⟩
  | cons r rs ih =>
    obtain ⟨⟨plan₁, d₁⟩, hmember, h⟩ := Except.bind_eq_ok.mp h
    obtain ⟨hr, hrs⟩ := List.forall_mem_cons.mp hkey
    have hsteps := (addMember_steps (T := fun _ => True) hd hr (fun _ _ => trivial) hmember).1
    obtain ⟨hfields, hstore⟩ := addMember_prefix hmember
    obtain ⟨hsteps', hfields', hstore'⟩ := ih (hsteps.placed hd) hrs h
    exact ⟨hsteps.trans hsteps', hfields.trans hfields', hstore.trans hstore'⟩

/-- One of the members of a plan: it is planned on a draft that is complete so far, and what follows
leaves its entry and its key. -/
theorem addMembers_split (hd : d.Placed) (hjoined : d.WellJoined s)
    (hnodup : (rs.map (·.member.number)).Nodup) (hr : r ∈ rs)
    (h : plan.addMembers s d rs = .ok (plan', d')) :
    ∃ (plan₁ plan₂ : FetchPlan) (d₁ d₂ : FetchDraft), plan₁.addMember s d₁ r = .ok (plan₂, d₂) ∧
      d₁.Placed ∧ d₁.WellJoined s ∧ d₂.Placed ∧ plan₂.fields <+: plan'.fields ∧
        plan₂.store <+: plan'.store ∧
          Steps s (· ≠ .member r.member.number) (fun _ => True) d₂ d' := by
  obtain ⟨before, after, rfl⟩ := List.append_of_mem hr
  obtain ⟨plan₁, d₁, hbefore, h⟩ := addMembers_append h
  obtain ⟨⟨plan₂, d₂⟩, hmember, hafter⟩ := Except.bind_eq_ok.mp h
  have hd₁ := ((addMembers_reach (K := fun _ => True) hd (fun _ _ => trivial) hbefore).1).placed hd
  have hd₂ := (addMember_steps (K := fun _ => True) (T := fun _ => True) hd₁ trivial
    (fun _ _ => trivial) hmember).1.placed hd₁
  have hkey : ∀ r' ∈ after, MappingKey.member r'.member.number ≠ .member r.member.number := by
    intro r' hr' heq
    rw [List.map_append, List.map_cons] at hnodup
    have hnot := (List.nodup_cons.mp (List.nodup_append.mp hnodup).2.1).1
    exact hnot (List.mem_map.mpr ⟨r', hr', MappingKey.member.inj heq⟩)
  obtain ⟨hsteps, hfields, hstore⟩ :=
    addMembers_reach (K := (· ≠ .member r.member.number)) hd₂ hkey hafter
  exact ⟨plan₁, plan₂, d₁, d₂, hmember, hd₁, (addMembers_grows hbefore hd.sorted).joins hjoined,
    hd₂, hfields, hstore, hsteps⟩

variable {target : String}

/-- A relation that is not read with its row is read by its foreign key. -/
theorem addMember_foreignKey (hkind : r.member.kind = .relation target)
    (hway : r.storeOnly = true ∨ readsRelatedRow s r.member target = .ok false)
    (h : plan.addMember s d r = .ok (plan', d')) :
    ∃ surrogate, selectForeignKey s d r.depth r.member target = .ok (surrogate, d') ∧
      if r.storeOnly then ⟨r.member.number, target, surrogate⟩ ∈ plan'.store
      else .reference r.member.number target surrogate ∈ plan'.fields := by
  unfold addMember at h
  cases hstore : r.storeOnly with
  | true =>
    simp only [hkind, hstore] at h
    obtain ⟨⟨surrogate, d₁⟩, hforeign, h⟩ := Except.bind_eq_ok.mp h
    cases h
    exact ⟨surrogate, hforeign, List.mem_append_right _ List.mem_cons_self⟩
  | false =>
    have hreads := hway.resolve_left (by simp [hstore])
    simp only [hkind, hstore, hreads] at h
    obtain ⟨readsRow, hrow, h⟩ := Except.bind_eq_ok.mp h
    cases hrow
    obtain ⟨⟨surrogate, d₁⟩, hforeign, h⟩ := Except.bind_eq_ok.mp h
    cases h
    exact ⟨surrogate, hforeign, List.mem_append_right _ List.mem_cons_self⟩

theorem addMember_related (hkind : r.member.kind = .relation target) (hstore : r.storeOnly = false)
    (hreads : readsRelatedRow s r.member target = .ok true)
    (h : plan.addMember s d r = .ok (plan', d')) :
    ∃ surrogate keys, selectRelated s d r.depth r.member target = .ok (surrogate, keys, d') ∧
      .object r.member.number target surrogate keys ∈ plan'.fields := by
  unfold addMember at h
  simp only [hkind, hstore, hreads] at h
  obtain ⟨readsRow, hrow, h⟩ := Except.bind_eq_ok.mp h
  cases hrow
  obtain ⟨⟨surrogate, keys, d₁⟩, hrelated, h⟩ := Except.bind_eq_ok.mp h
  cases h
  exact ⟨surrogate, keys, hrelated, List.mem_append_right _ List.mem_cons_self⟩

end FetchPlan

end ObjectSql
