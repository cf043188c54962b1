import ObjectSql.Fetch.Compile
import ObjectSql.Proofs.Except
import ObjectSql.Proofs.Metadata.Chain
import ObjectSql.Proofs.Statement.Building
import ObjectSql.Proofs.Statement.Layout

/-!
# Growth of a statement under construction

Every step of the compiler adds to a draft and takes nothing away. It joins tables of the chain on
identity or the table of a relation on its foreign key, under aliases not used before; it appends to
the projection and to the conditions, and it sets the positions of the keys that it is about.
-/
namespace ObjectSql

open FetchError

/-! ## Comparisons of columns -/

theorem FetchError.ofSql_eq_ok {α : Type} {x : Except SqlError α} {a : α} :
    ofSql x = .ok a ↔ x = .ok a := by
  cases x <;> simp [ofSql, Except.mapError]

theorem FetchError.ofMetadata_eq_ok {α : Type} {x : Except MetadataFault α} {a : α} :
    ofMetadata x = .ok a ↔ x = .ok a := by
  cases x <;> simp [ofMetadata, Except.mapError]

namespace Expr

variable {t : TableRef} {name logicalType : String} {e result : Expr}

def columnEq (t : TableRef) (name logicalType : String) (e : Expr) : Expr :=
  (column t name logicalType).binary .eq e .boolean "bool"

theorem compare_column (he : e.isNullLiteral = false)
    (h : (column t name logicalType).compare .eq e = .ok result) :
    result = columnEq t name logicalType e := by
  have hcolumn : (column t name logicalType).isNullLiteral = false := rfl
  unfold Expr.compare compareMap compareValues at h
  rw [he, hcolumn] at h
  split at h
  · simp at h
  · split at h
    · simp at h
    · simp only [Bool.false_and, Bool.false_eq_true, if_false] at h
      split at h
      · cases h
        rfl
      · cases h

/-- Nothing but the column itself is the same as a column. -/
theorem eq_of_same_column (h : e.same (column t name logicalType)) :
    e = column t name logicalType := by
  obtain ⟨category, logicalType', table, node⟩ := e
  cases node <;> simp_all [Expr.same, Node.same, column, ofType, typed]

def columnsEq (left right : TableRef) (columns : List (String × String × String)) : List Expr :=
  columns.map fun (l, r, logicalType) => columnEq left l logicalType (column right r logicalType)

end Expr

theorem FetchDraft.columnsEqual_spec {left right : TableRef}
    {columns : List (String × String × String)} {on : List Expr}
    (h : columnsEqual left right columns = .ok on) : on = Expr.columnsEq left right columns := by
  have hmap := mapM_eq_ok (ofSql_eq_ok.mp h)
  clear h
  induction hmap with
  | nil => rfl
  | cons he _ ih =>
    rw [ih, Expr.compare_column rfl he]
    rfl

/-! ## Joins of a draft -/

namespace FetchScope

def tableAt (s : FetchScope) (depth : Nat) : String := (s.classAt depth).table.name

def aliasAt (n : Nat) : String := "A" ++ toString n

def identityPairs (s : FetchScope) : List (String × String × String) :=
  s.identity.map fun c => (c.column, c.column, c.logicalType)

def relationPairs (columns : List String) (identity : List IdentityColumn) :
    List (String × String × String) :=
  (columns.zip identity).map fun (column, c) => (column, c.column, c.logicalType)

def chainJoin (s : FetchScope) (primary t : TableRef) : Join :=
  ⟨.inner, t, Expr.columnsEq primary t s.identityPairs⟩

def relatedJoin (owner t : TableRef) (columns : List String) (identity : List IdentityColumn) :
    Join :=
  ⟨.leftOuter, t, Expr.columnsEq owner t (relationPairs columns identity)⟩

/-- The joins of a draft with the number of its next alias and its joined tables of the chain. -/
inductive Joins (s : FetchScope) (primary : TableRef) :
    List Join → Nat → List (Nat × TableRef) → Prop where
  | nil : s.Joins primary [] 1 []
  /-- A table of the chain is joined once, and the primary one never. -/
  | chain {js : List Join} {n : Nat} {joined : List (Nat × TableRef)} {depth : Nat}
    (h : s.Joins primary js n joined) (hprimary : depth ≠ s.primary)
    (hnew : ∀ e ∈ joined, e.1 ≠ depth) :
    s.Joins primary (js ++ [s.chainJoin primary ⟨s.tableAt depth, aliasAt n⟩]) (n + 1)
      ((depth, ⟨s.tableAt depth, aliasAt n⟩) :: joined)
  /-- The table of a relation is joined to that of its owner on the identity of the target. -/
  | related {js : List Join} {n : Nat} {joined : List (Nat × TableRef)} {owner : TableRef}
    {target : String} {k : ClassMapping} {identity : List IdentityColumn} {columns : List String}
    (h : s.Joins primary js n joined)
    (howner : owner = primary ∨ ∃ depth, (depth, owner) ∈ joined)
    (hk : s.catalog.getClass target = .ok k)
    (hidentity : s.catalog.identityColumns target = .ok identity)
    (hlength : identity.length = columns.length) :
    s.Joins primary (js ++ [relatedJoin owner ⟨k.table.name, aliasAt n⟩ columns identity]) (n + 1)
      joined

end FetchScope

/-- The clauses of a statement that no step of the compiler changes. -/
def Select.frame (q : Select) : Select :=
  { q with joins := [], projection := [], conditions := [], nextAlias := 0 }

namespace FetchDraft

variable (s : FetchScope)

def WellJoined (d : FetchDraft) : Prop :=
  s.Joins d.query.table d.query.joins d.query.nextAlias d.joined

def HasTable (d : FetchDraft) (depth : Nat) (t : TableRef) : Prop :=
  depth = s.primary ∧ t = d.query.table ∨ (depth, t) ∈ d.joined

def Uses (d : FetchDraft) (depth : Nat) : Prop := ∃ t, d.HasTable s depth t

def positions (d : FetchDraft) (key : MappingKey) : List Nat := d.layout.layout.positions key

/-- A draft grows by tables, by positions of keys and by conditions. -/
structure Grows (d d' : FetchDraft) (uses : Nat → Prop) (keys : MappingKey → Prop)
    (added : List Expr) : Prop where
  frame : d'.query.frame = d.query.frame
  conditions : d'.query.conditions = d.query.conditions ++ added
  projection : d.query.projection <+: d'.query.projection
  joined : d.joined <:+ d'.joined
  uses : ∀ depth, d'.Uses s depth ↔ d.Uses s depth ∨ uses depth
  joins : d.WellJoined s → d'.WellJoined s
  sorted : d.layout.layout.Sorted → d'.layout.layout.Sorted
  positions : d.layout.layout.Sorted → ∀ key, ¬keys key → d'.positions key = d.positions key

namespace Grows

variable {s} {d d' d'' : FetchDraft} {uses uses' : Nat → Prop} {keys keys' : MappingKey → Prop}
  {added added' : List Expr}

theorem refl (d : FetchDraft) : Grows s d d (fun _ => False) (fun _ => False) [] where
  frame := rfl
  conditions := (List.append_nil _).symm
  projection := List.prefix_rfl
  joined := List.suffix_rfl
  uses := by simp
  joins := id
  sorted := id
  positions _ _ _ := rfl

theorem trans (h : Grows s d d' uses keys added) (h' : Grows s d' d'' uses' keys' added') :
    Grows s d d'' (fun depth => uses depth ∨ uses' depth) (fun key => keys key ∨ keys' key)
      (added ++ added') where
  frame := h'.frame.trans h.frame
  conditions := by rw [h'.conditions, h.conditions, List.append_assoc]
  projection := h.projection.trans h'.projection
  joined := h.joined.trans h'.joined
  uses depth := by rw [h'.uses, h.uses, or_assoc]
  joins := h'.joins ∘ h.joins
  sorted := h'.sorted ∘ h.sorted
  positions hd key hkey := by
    rw [h'.positions (h.sorted hd) key fun hk => hkey (.inr hk),
      h.positions hd key fun hk => hkey (.inl hk)]

/-- The same growth told in other words. -/
theorem congr (h : Grows s d d' uses keys added) (huses : ∀ depth, uses depth ↔ uses' depth)
    (hkeys : ∀ key, keys key → keys' key) : Grows s d d' uses' keys' added where
  __ := h
  uses depth := by rw [h.uses, huses]
  positions hd key hkey := h.positions hd key fun hk => hkey (hkeys key hk)

theorem table (h : Grows s d d' uses keys added) : d'.query.table = d.query.table := by
  have htable := congrArg Select.table h.frame
  exact htable

theorem hasTable (h : Grows s d d' uses keys added) {depth : Nat} {t : TableRef}
    (ht : d.HasTable s depth t) : d'.HasTable s depth t := by
  rcases ht with ⟨hdepth, ht⟩ | ht
  · exact .inl ⟨hdepth, h.table ▸ ht⟩
  · exact .inr (h.joined.subset ht)

end Grows

/-! ## Steps -/

variable {s} {d d' : FetchDraft}

theorem setColumns_grows (d : FetchDraft) (key : MappingKey) (ps : List Nat) :
    Grows s d (d.setColumns key ps) (fun _ => False) (· = key) [] where
  __ := Grows.refl d
  sorted hd := hd.modify key _
  positions hd k hk := by
    rw [FetchDraft.positions, setColumns, Layout.positions_setColumns hd, if_neg hk]
    rfl

theorem positions_setColumns (hd : d.layout.layout.Sorted) (key : MappingKey) (ps : List Nat) :
    (d.setColumns key ps).positions key = ps := by
  rw [FetchDraft.positions, setColumns, Layout.positions_setColumns hd, if_pos rfl]

theorem addCondition_grows (d : FetchDraft) (e : Expr) :
    Grows s d (d.addCondition e) (fun _ => False) (fun _ => False) [e] where
  __ := Grows.refl d
  conditions := rfl

theorem appendProjection_grows (d : FetchDraft) (es : List Expr) (resultTypes : List String) :
    Grows s d
      { d with query := { d.query with projection := d.query.projection ++ es }
               resultTypes := resultTypes }
      (fun _ => False) (fun _ => False) [] where
  __ := Grows.refl d
  projection := List.prefix_append _ _

/-- A column that is projected already keeps its position; another one takes the next. -/
theorem select_column_cases {q q' : Select} {t : TableRef} {column logicalType : String}
    {position : Nat} (h : q.select (.column t column logicalType) = .ok (position, q')) :
    (∃ i, position = i + 1 ∧ q' = q ∧ q.projection[i]? = some (.column t column logicalType)) ∨
      position = q.projection.length + 1 ∧
        q' = { q with projection := q.projection ++ [.column t column logicalType] } := by
  cases (Select.select_eq_ok_iff.mp h).2 with
  | @found before after x hsplit hsame =>
    refine .inl ⟨before.length, rfl, rfl, ?_⟩
    rw [hsplit, Expr.eq_of_same_column hsame]
    simp
  | added => exact .inr ⟨rfl, rfl⟩

/-- A projected column stands at the position that is told. -/
theorem select_column {q q' : Select} {t : TableRef} {column logicalType : String} {position : Nat}
    (h : q.select (.column t column logicalType) = .ok (position, q')) :
    ∃ es i, q' = { q with projection := q.projection ++ es } ∧ position = i + 1 ∧
      q'.projection[i]? = some (.column t column logicalType) := by
  rcases select_column_cases h with ⟨i, rfl, rfl, hget⟩ | ⟨rfl, rfl⟩
  · exact ⟨[], i, by cases q'; simp, rfl, hget⟩
  · exact ⟨_, q.projection.length, rfl, rfl, by simp⟩

theorem project_spec {t : TableRef} {column logicalType : String} {position : Nat}
    (h : d.project t column logicalType = .ok (position, d')) :
    Grows s d d' (fun _ => False) (fun _ => False) [] ∧
      ∃ i, position = i + 1 ∧ d'.query.projection[i]? = some (.column t column logicalType) := by
  obtain ⟨⟨position', query⟩, hselect, h⟩ := Except.bind_eq_ok.mp h
  cases h
  obtain ⟨es, i, rfl, rfl, hget⟩ := select_column (ofSql_eq_ok.mp hselect)
  exact ⟨appendProjection_grows d es _, i, rfl, hget⟩

theorem projectAll_grows {t : TableRef} {columns : List (String × String)} {ps : List Nat}
    (h : d.projectAll t columns = .ok (ps, d')) :
    Grows s d d' (fun _ => False) (fun _ => False) [] := by
  induction columns generalizing d ps with
  | nil =>
    cases h
    exact .refl _
  | cons column columns ih =>
    obtain ⟨⟨p, d₁⟩, hproject, h⟩ := Except.bind_eq_ok.mp h
    obtain ⟨⟨ps', d₂⟩, hrest, h⟩ := Except.bind_eq_ok.mp h
    cases h
    exact ((project_spec hproject).1.trans (ih hrest)).congr (by simp) (by simp)

theorem Grows.used {depth : Nat} {t : TableRef} (ht : d.HasTable s depth t) :
    Grows s d d (· = depth) (fun _ => False) [] where
  __ := Grows.refl d
  uses x := by
    constructor
    · exact .inl
    · rintro (hx | rfl)
      · exact hx
      · exact ⟨t, ht⟩

theorem mem_of_lookup {joined : List (Nat × TableRef)} {depth : Nat} {t : TableRef}
    (h : joined.lookup depth = some t) : (depth, t) ∈ joined := by
  obtain ⟨before, after, rfl, -⟩ := List.lookup_eq_some_iff.mp h
  simp

/-- Joining a table of the chain. -/
theorem joinChain_grows {depth : Nat} (hprimary : depth ≠ s.primary)
    (hlookup : d.joined.lookup depth = none) :
    Grows s d
      { d with
        query := (d.query.newTableAlias (s.tableAt depth)).2.join .inner
          (d.query.newTableAlias (s.tableAt depth)).1
          (Expr.columnsEq d.query.table (d.query.newTableAlias (s.tableAt depth)).1 s.identityPairs)
        joined := (depth, (d.query.newTableAlias (s.tableAt depth)).1) :: d.joined }
      (· = depth) (fun _ => False) [] where
  __ := Grows.refl (s := s) d
  joined := List.suffix_cons _ _
  uses x := by
    simp only [Uses, HasTable, Select.join, Select.newTableAlias, List.mem_cons, Prod.mk.injEq]
    grind
  joins hd := by
    refine FetchScope.Joins.chain hd hprimary fun e he heq => ?_
    have hnone := List.lookup_eq_none_iff.mp hlookup e he
    simp [heq] at hnone

/-- The table of a class of the chain belongs to the draft once it is asked for. -/
theorem chainTable_spec {depth : Nat} {t : TableRef} (h : chainTable s d depth = .ok (t, d')) :
    Grows s d d' (· = depth) (fun _ => False) [] ∧ d'.HasTable s depth t := by
  unfold chainTable at h
  split at h
  · next hprimary =>
    cases h
    have ht : d.HasTable s depth d.query.table := .inl ⟨hprimary, rfl⟩
    exact ⟨Grows.used ht, ht⟩
  · next hprimary =>
    split at h
    · next t' hlookup =>
      cases h
      have ht : d.HasTable s depth t := .inr (mem_of_lookup hlookup)
      exact ⟨Grows.used ht, ht⟩
    · next hlookup =>
      obtain ⟨on, hon, h⟩ := Except.bind_eq_ok.mp h
      cases h
      rw [columnsEqual_spec hon]
      exact ⟨joinChain_grows hprimary hlookup, .inr List.mem_cons_self⟩

/-! ## Members and versions -/

theorem selectVersion_grows {version : Option VersionMapping}
    (h : selectVersion s d = .ok (version, d')) :
    Grows s d d' (fun x => ∃ v, s.nearest s.primary (·.table.version) = some (x, v))
      (· = .version) [] := by
  unfold selectVersion at h
  split at h
  · next hnone =>
    cases h
    exact (Grows.refl d).congr (by simp [hnone]) (by simp)
  · next depth v hsome =>
    obtain ⟨⟨t, d₁⟩, htable, h⟩ := Except.bind_eq_ok.mp h
    obtain ⟨⟨position, d₂⟩, hproject, h⟩ := Except.bind_eq_ok.mp h
    cases h
    have hgrows := ((chainTable_spec htable).1.trans (project_spec hproject).1).trans
      (setColumns_grows d₂ .version [position])
    exact hgrows.congr (by simp [hsome, eq_comm]) (by simp)

theorem selectForeignKey_grows {depth : Nat} {m : MemberMapping} {target : String}
    {surrogate : Bool} (h : selectForeignKey s d depth m target = .ok (surrogate, d')) :
    Grows s d d' (· = depth) (· = .member m.number) [] := by
  obtain ⟨identity, -, h⟩ := Except.bind_eq_ok.mp h
  obtain ⟨⟨t, d₁⟩, htable, h⟩ := Except.bind_eq_ok.mp h
  obtain ⟨⟨ps, d₂⟩, hproject, h⟩ := Except.bind_eq_ok.mp h
  cases h
  have hgrows := ((chainTable_spec htable).1.trans (projectAll_grows hproject)).trans
    (setColumns_grows d₂ (.member m.number) ps)
  exact hgrows.congr (by simp) (by simp)

/-- The member stands at one position, which holds its column of the table of its class. -/
def HasScalar (d : FetchDraft) (s : FetchScope) (depth : Nat) (m : MemberMapping) : Prop :=
  ∃ column t i, m.columns = [column] ∧ d.HasTable s depth t ∧
    d.positions (.member m.number) = [i + 1] ∧
      d.query.projection[i]? = some (.column t column m.logicalType)

theorem Grows.hasScalar {uses : Nat → Prop} {keys : MappingKey → Prop} {added : List Expr}
    {depth : Nat} {m : MemberMapping} (h : Grows s d d' uses keys added)
    (hd : d.layout.layout.Sorted) (hkey : ¬keys (.member m.number)) (hm : d.HasScalar s depth m) :
    d'.HasScalar s depth m := by
  obtain ⟨column, t, i, hcolumns, ht, hposition, hget⟩ := hm
  refine ⟨column, t, i, hcolumns, h.hasTable ht, ?_, ?_⟩
  · rw [h.positions hd _ hkey, hposition]
  · obtain ⟨es, hes⟩ := h.projection
    rw [← hes, List.getElem?_append_left (List.getElem?_eq_some_iff.mp hget).1, hget]

theorem selectScalar_spec {depth : Nat} {m : MemberMapping} (hd : d.layout.layout.Sorted)
    (h : selectScalar s d depth m = .ok d') :
    Grows s d d' (· = depth) (· = .member m.number) [] ∧ d'.HasScalar s depth m := by
  unfold selectScalar at h
  split at h
  · next column hcolumns =>
    obtain ⟨⟨t, d₁⟩, htable, h⟩ := Except.bind_eq_ok.mp h
    obtain ⟨⟨position, d₂⟩, hproject, h⟩ := Except.bind_eq_ok.mp h
    cases h
    obtain ⟨htable, ht⟩ := chainTable_spec htable
    obtain ⟨hproject, i, rfl, hget⟩ := project_spec hproject
    have hgrows := htable.trans hproject
    have hset := setColumns_grows (s := s) d₂ (.member m.number) [i + 1]
    refine ⟨(hgrows.trans hset).congr (by simp) (by simp), column, t, i, hcolumns, ?_, ?_, hget⟩
    · exact hset.hasTable (hproject.hasTable ht)
    · exact positions_setColumns (hgrows.sorted hd) _ _
  · cases h

theorem selectRelatedFields_grows {related : TableRef} {keys : List MappingKey}
    {child child' : ClassLayout} {members : List MemberMapping}
    (h : d.selectRelatedFields related keys child members = .ok (child', d')) :
    Grows s d d' (fun _ => False) (fun _ => False) [] := by
  induction members generalizing d child with
  | nil =>
    cases h
    exact .refl _
  | cons m members ih =>
    unfold selectRelatedFields at h
    split at h
    · split at h
      · exact ih h
      · obtain ⟨⟨position, d₁⟩, hproject, h⟩ := Except.bind_eq_ok.mp h
        exact ((project_spec hproject).1.trans (ih h)).congr (by simp) (by simp)
    · exact ih h

theorem targetIdentity_spec {m : MemberMapping} {target : String} {identity : List IdentityColumn}
    (h : targetIdentity s m target = .ok identity) :
    s.catalog.identityColumns target = .ok identity ∧ identity.length = m.columns.length := by
  obtain ⟨identity', hidentity, h⟩ := Except.bind_eq_ok.mp h
  split at h
  · next hlength =>
    cases h
    exact ⟨ofMetadata_eq_ok.mp hidentity, hlength⟩
  · cases h

/-- Joining the table of a relation. -/
theorem joinRelated_grows {owner : TableRef} {depth : Nat} {target : String} {k : ClassMapping}
    {identity : List IdentityColumn} {columns : List String} (howner : d.HasTable s depth owner)
    (hk : s.catalog.getClass target = .ok k)
    (hidentity : s.catalog.identityColumns target = .ok identity)
    (hlength : identity.length = columns.length) :
    Grows s d
      { d with
        query := (d.query.newTableAlias k.table.name).2.join .leftOuter
          (d.query.newTableAlias k.table.name).1
          (Expr.columnsEq owner (d.query.newTableAlias k.table.name).1
            (FetchScope.relationPairs columns identity)) }
      (fun _ => False) (fun _ => False) [] where
  __ := Grows.refl d
  joins hd := by
    refine FetchScope.Joins.related hd ?_ hk hidentity hlength
    rcases howner with ⟨-, rfl⟩ | howner
    · exact .inl rfl
    · exact .inr ⟨depth, howner⟩

theorem addChild_grows (d : FetchDraft) (number : Nat) (child : ClassLayout) :
    Grows s d { d with layout := d.layout.addChild number child } (fun _ => False)
      (fun _ => False) [] where
  __ := Grows.refl d

/-- The scalar members of a related row and the note of its layout. -/
theorem relatedFields_grows {related : TableRef} {keys keys' : List MappingKey}
    {child : ClassLayout} {members : List MemberMapping} {number : Nat} {surrogate : Bool}
    {result : Bool × List MappingKey × FetchDraft}
    (h : (do
      let (child, d) ← d.selectRelatedFields related keys child members
      pure (surrogate, keys', { d with layout := d.layout.addChild number child })) = .ok result) :
    Grows s d result.2.2 (fun _ => False) (fun _ => False) [] := by
  obtain ⟨⟨child', d₁⟩, hfields, h⟩ := Except.bind_eq_ok.mp h
  cases h
  exact ((selectRelatedFields_grows hfields).trans (addChild_grows d₁ number child')).congr
    (by simp) (by simp)

theorem selectRelated_grows {depth : Nat} {m : MemberMapping} {target : String}
    {surrogate : Bool} {keys : List MappingKey}
    (h : selectRelated s d depth m target = .ok (surrogate, keys, d')) :
    Grows s d d' (· = depth) (fun _ => False) [] := by
  obtain ⟨identity, hidentity, h⟩ := Except.bind_eq_ok.mp h
  obtain ⟨k, hk, h⟩ := Except.bind_eq_ok.mp h
  obtain ⟨⟨owner, d₁⟩, htable, h⟩ := Except.bind_eq_ok.mp h
  obtain ⟨on, hon, h⟩ := Except.bind_eq_ok.mp h
  obtain ⟨⟨ps, d₂⟩, hproject, h⟩ := Except.bind_eq_ok.mp h
  obtain ⟨htable, howner⟩ := chainTable_spec htable
  obtain ⟨hidentity, hlength⟩ := targetIdentity_spec hidentity
  rw [columnsEqual_spec hon] at hproject
  have hjoined := (htable.trans (joinRelated_grows howner (ofMetadata_eq_ok.mp hk) hidentity
    hlength)).trans (projectAll_grows hproject)
  dsimp only at h
  split at h
  · exact (hjoined.trans (relatedFields_grows h)).congr (by simp) (by simp)
  · obtain ⟨⟨position, d₃⟩, hdiscriminator, h⟩ := Except.bind_eq_ok.mp h
    have hclass := hjoined.trans (project_spec hdiscriminator).1
    exact (hclass.trans (relatedFields_grows h)).congr (by simp) (by simp)

end FetchDraft

/-! ## Selections -/

namespace FetchPlan

open FetchDraft

variable {s : FetchScope} {d d' : FetchDraft} {plan plan' : FetchPlan}

theorem addMember_grows {r : RequestedMember}
    (h : plan.addMember s d r = .ok (plan', d')) (hd : d.layout.layout.Sorted) :
    Grows s d d' (fun x => r.isProjected ∧ x = r.depth) (· = .member r.member.number) [] := by
  have hkept (huses : r.isProjected = false) : Grows s d d
      (fun x => r.isProjected ∧ x = r.depth) (· = .member r.member.number) [] :=
    (Grows.refl d).congr (by simp [huses]) (by simp)
  unfold addMember at h
  split at h
  · next hkind hstore =>
    cases h
    exact hkept (by simp [RequestedMember.isProjected, hkind])
  · next target hkind hstore =>
    obtain ⟨⟨surrogate, d₁⟩, hforeign, h⟩ := Except.bind_eq_ok.mp h
    cases h
    exact (selectForeignKey_grows hforeign).congr
      (by simp [RequestedMember.isProjected, hkind]) (by simp)
  · next hkind hstore =>
    cases h
    exact hkept (by simp [RequestedMember.isProjected, hkind])
  · next hkind hstore =>
    cases h
    exact hkept (by simp [RequestedMember.isProjected, hkind, hstore])
  · next hkind hstore =>
    obtain ⟨d₁, hscalar, h⟩ := Except.bind_eq_ok.mp h
    cases h
    exact (selectScalar_spec hd hscalar).1.congr
      (by simp [RequestedMember.isProjected, hkind, hstore]) (by simp)
  · next target hkind hstore =>
    have hprojected : r.isProjected := by simp [RequestedMember.isProjected, hkind]
    obtain ⟨related, -, h⟩ := Except.bind_eq_ok.mp h
    split at h
    · obtain ⟨⟨surrogate, keys, d₁⟩, hrelated, h⟩ := Except.bind_eq_ok.mp h
      cases h
      exact (selectRelated_grows hrelated).congr (by simp [hprojected]) (by simp)
    · obtain ⟨⟨surrogate, d₁⟩, hforeign, h⟩ := Except.bind_eq_ok.mp h
      cases h
      exact (selectForeignKey_grows hforeign).congr (by simp [hprojected]) (by simp)

theorem addMember_hasScalar {r : RequestedMember} (h : plan.addMember s d r = .ok (plan', d'))
    (hd : d.layout.layout.Sorted) (hkind : r.member.kind = .scalar) (hstore : r.storeOnly = false) :
    d'.HasScalar s r.depth r.member := by
  unfold addMember at h
  simp only [hkind, hstore] at h
  obtain ⟨d₁, hscalar, h⟩ := Except.bind_eq_ok.mp h
  cases h
  exact (selectScalar_spec hd hscalar).2

theorem addMembers_grows {rs : List RequestedMember} (h : plan.addMembers s d rs = .ok (plan', d'))
    (hd : d.layout.layout.Sorted) :
    Grows s d d' (fun x => ∃ r ∈ rs, r.isProjected ∧ x = r.depth)
      (fun key => ∃ r ∈ rs, key = .member r.member.number) [] := by
  induction rs generalizing plan d with
  | nil =>
    cases h
    exact (Grows.refl _).congr (by simp) (by simp)
  | cons r rs ih =>
    obtain ⟨⟨plan₁, d₁⟩, hmember, h⟩ := Except.bind_eq_ok.mp h
    have hgrows := addMember_grows hmember hd
    exact (hgrows.trans (ih h (hgrows.sorted hd))).congr (by simp) (by simp)

/-- A member that is read stays where it is once it has been selected, so long as no other member
has its number. -/
theorem addMembers_hasScalar {r : RequestedMember} {rs : List RequestedMember}
    (h : plan.addMembers s d rs = .ok (plan', d')) (hd : d.layout.layout.Sorted)
    (hkind : r.member.kind = .scalar) (hstore : r.storeOnly = false)
    (hunique : ∀ r' ∈ rs, r'.member.number = r.member.number → r' = r)
    (hr : d.HasScalar s r.depth r.member ∨ r ∈ rs) : d'.HasScalar s r.depth r.member := by
  induction rs generalizing plan d with
  | nil =>
    cases h
    exact hr.resolve_right (by simp)
  | cons r' rs ih =>
    obtain ⟨⟨plan₁, d₁⟩, hmember, h⟩ := Except.bind_eq_ok.mp h
    have hgrows := addMember_grows hmember hd
    refine ih h (hgrows.sorted hd) (fun r'' hr'' => hunique r'' (List.mem_cons_of_mem r' hr'')) ?_
    by_cases hsame : r'.member.number = r.member.number
    · obtain rfl := hunique r' List.mem_cons_self hsame
      exact .inl (addMember_hasScalar hmember hd hkind hstore)
    · rcases hr with hr | hr
      · refine .inl (hgrows.hasScalar hd (fun hkey => hsame ?_) hr)
        exact (MappingKey.member.inj hkey).symm
      · rcases List.mem_cons.mp hr with rfl | hr
        · exact absurd rfl hsame
        · exact .inr hr

end FetchPlan

/-! ## Restrictions -/

namespace FetchDraft

variable {s : FetchScope} {d d' : FetchDraft}

def identityCondition (t : TableRef) (c : IdentityColumn) : Expr :=
  Expr.columnEq t c.column c.logicalType (.parameter c.key c.position c.logicalType)

def tenancyCondition (t : TableRef) (tenancy : TenancyMapping) : Expr :=
  match tenancy.allowed with
  | some allowed =>
    (Expr.column t tenancy.column "string").inList (allowed.map fun name => .literal (.text name))
  | none => Expr.columnEq t tenancy.column "string" (.parameter .tenant 0 "string")

def deletedCondition (t : TableRef) (column : String) : Expr :=
  Expr.columnEq t column "bool" (.fixedParameter .softDelete (.bool false))

/-- The conditions on a part of the chain, which are none if there is no such part. -/
inductive Restricts {α : Type} (s : FetchScope) (d : FetchDraft) (condition : TableRef → α → Expr) :
    Option (Nat × α) → List Expr → Prop where
  | unrestricted : Restricts s d condition none []
  | restricted {depth : Nat} {t : TableRef} {part : α} (ht : d.HasTable s depth t) :
    Restricts s d condition (some (depth, part)) [condition t part]

theorem restrictIdentity_grows {identity : List IdentityColumn}
    (h : d.restrictIdentity identity = .ok d') :
    Grows s d d' (fun _ => False) (fun _ => False)
      (identity.map (identityCondition d.query.table)) := by
  induction identity generalizing d with
  | nil =>
    cases h
    exact .refl _
  | cons c identity ih =>
    obtain ⟨condition, hcondition, h⟩ := Except.bind_eq_ok.mp h
    rw [Expr.compare_column rfl (ofSql_eq_ok.mp hcondition)] at h
    exact ((addCondition_grows d _).trans (ih h)).congr (by simp) (by simp)

theorem restrictTenant_spec (h : restrictTenant s d = .ok d') :
    ∃ added, Grows s d d' (fun x => ∃ t, s.nearest 0 (·.table.tenancy) = some (x, t))
        (fun _ => False) added ∧
      Restricts s d' tenancyCondition (s.nearest 0 (·.table.tenancy)) added := by
  unfold restrictTenant at h
  split at h
  · next hnone =>
    cases h
    exact ⟨[], (Grows.refl d).congr (by simp [hnone]) (by simp), hnone ▸ .unrestricted⟩
  · next depth tenancy hsome =>
    obtain ⟨⟨t, d₁⟩, htable, h⟩ := Except.bind_eq_ok.mp h
    obtain ⟨htable, ht⟩ := chainTable_spec htable
    have hadd := addCondition_grows (s := s) d₁ (tenancyCondition t tenancy)
    have hd' : d' = d₁.addCondition (tenancyCondition t tenancy) := by
      unfold tenancyCondition
      cases hallowed : tenancy.allowed with
      | some allowed =>
        simp only [hallowed] at h
        cases h
        rfl
      | none =>
        simp only [hallowed] at h
        obtain ⟨condition, hcondition, h⟩ := Except.bind_eq_ok.mp h
        cases h
        rw [Expr.compare_column rfl (ofSql_eq_ok.mp hcondition)]
    subst hd'
    refine ⟨[tenancyCondition t tenancy], (htable.trans hadd).congr (by simp [hsome, eq_comm])
      (by simp), ?_⟩
    rw [hsome]
    exact .restricted (hadd.hasTable ht)

theorem restrictDeleted_spec (h : restrictDeleted s d = .ok d') :
    ∃ added, Grows s d d' (fun x => ∃ column, s.nearest 0 (·.table.softDelete) = some (x, column))
        (fun _ => False) added ∧
      Restricts s d' deletedCondition (s.nearest 0 (·.table.softDelete)) added := by
  unfold restrictDeleted at h
  split at h
  · next hnone =>
    cases h
    exact ⟨[], (Grows.refl d).congr (by simp [hnone]) (by simp), hnone ▸ .unrestricted⟩
  · next depth column hsome =>
    obtain ⟨⟨t, d₁⟩, htable, h⟩ := Except.bind_eq_ok.mp h
    obtain ⟨htable, ht⟩ := chainTable_spec htable
    obtain ⟨condition, hcondition, h⟩ := Except.bind_eq_ok.mp h
    cases h
    rw [Expr.compare_column rfl (ofSql_eq_ok.mp hcondition)]
    have hadd := addCondition_grows (s := s) d₁ (deletedCondition t column)
    refine ⟨[deletedCondition t column], (htable.trans hadd).congr (by simp [hsome, eq_comm])
      (by simp), ?_⟩
    rw [hsome]
    exact .restricted (hadd.hasTable ht)

theorem Restricts.mono {α : Type} {condition : TableRef → α → Expr} {found : Option (Nat × α)}
    {uses : Nat → Prop} {keys : MappingKey → Prop} {added added' : List Expr}
    (h : Restricts s d condition found added) (hgrows : Grows s d d' uses keys added') :
    Restricts s d' condition found added := by
  cases h with
  | unrestricted => exact .unrestricted
  | restricted ht => exact .restricted (hgrows.hasTable ht)

end FetchDraft

end ObjectSql
