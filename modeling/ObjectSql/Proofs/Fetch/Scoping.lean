import ObjectSql.Proofs.Fetch.Plan
import ObjectSql.Proofs.Fetch.Tenancy

/-!
# Scoping of compiled statements

A statement declares its primary table and the tables that it joins, in this order, each under an
alias of its own. The compiler joins a table before it projects a column of it or restricts it, and
joins it on columns of tables that have been declared before.
-/
namespace ObjectSql

open FetchError

/-! ## Scopes -/

/-- Whether every column of an expression is that of a declared table. Raw text and statements inside
of an expression, which name columns in other ways, are in no scope. -/
inductive Expr.Scoped (ts : List TableRef) : Expr → Prop where
  | column {category : Category} {logicalType name : String} {t : TableRef} (ht : t ∈ ts) :
    Scoped ts ⟨category, logicalType, some t, .column name⟩
  | literal {category : Category} {logicalType : String} {t : Option TableRef} {value : Value} :
    Scoped ts ⟨category, logicalType, t, .literal value⟩
  | null {category : Category} {logicalType : String} {t : Option TableRef} :
    Scoped ts ⟨category, logicalType, t, .null⟩
  | parameter {category : Category} {logicalType : String} {t : Option TableRef}
    {param : BoundParameter} : Scoped ts ⟨category, logicalType, t, .parameter param⟩
  | function {category : Category} {logicalType name : String} {t : Option TableRef}
    {args : List Expr} (hargs : ∀ e ∈ args, Scoped ts e) :
    Scoped ts ⟨category, logicalType, t, .function name args⟩
  | template {category : Category} {logicalType text : String} {t : Option TableRef}
    {args : List Expr} (hargs : ∀ e ∈ args, Scoped ts e) :
    Scoped ts ⟨category, logicalType, t, .template text args⟩
  | binary {category : Category} {logicalType : String} {t : Option TableRef} {left right : Expr}
    {op : BinaryOp} (hleft : Scoped ts left) (hright : Scoped ts right) :
    Scoped ts ⟨category, logicalType, t, .binary left op right⟩
  | not {category : Category} {logicalType : String} {t : Option TableRef} {operand : Expr}
    (h : Scoped ts operand) : Scoped ts ⟨category, logicalType, t, .not operand⟩
  | isNull {category : Category} {logicalType : String} {t : Option TableRef} {operand : Expr}
    {negated : Bool} (h : Scoped ts operand) :
    Scoped ts ⟨category, logicalType, t, .isNull operand negated⟩
  | inList {category : Category} {logicalType : String} {t : Option TableRef} {operand : Expr}
    {list : List Expr} {negated : Bool} (h : Scoped ts operand) (hlist : ∀ e ∈ list, Scoped ts e) :
    Scoped ts ⟨category, logicalType, t, .inList operand list negated⟩
  | aggregate {category : Category} {logicalType function : String} {t : Option TableRef}
    {arg : Expr} (h : Scoped ts arg) :
    Scoped ts ⟨category, logicalType, t, .aggregate function arg⟩
  | map {category : Category} {logicalType : String} {t : Option TableRef} {binding : MapBinding}
    (h : binding.owner ∈ ts) : Scoped ts ⟨category, logicalType, t, .map binding⟩

namespace Expr

variable {ts : List TableRef} {t : TableRef}

theorem scoped_columnEq {e : Expr} (ht : t ∈ ts) (he : e.Scoped ts) (name logicalType : String) :
    (columnEq t name logicalType e).Scoped ts := .binary (.column ht) he

theorem scoped_columnsEq {left right : TableRef} (hleft : left ∈ ts) (hright : right ∈ ts)
    (columns : List (String × String × String)) : ∀ e ∈ columnsEq left right columns, e.Scoped ts := by
  intro e he
  obtain ⟨⟨l, r, logicalType⟩, -, rfl⟩ := List.mem_map.mp he
  exact scoped_columnEq hleft (.column hright) l logicalType

end Expr

theorem Expr.Scoped.mono {ts ts' : List TableRef} {e : Expr} (h : e.Scoped ts) (hts : ts ⊆ ts') :
    e.Scoped ts' := by
  induction h with
  | column ht => exact .column (hts ht)
  | literal => exact .literal
  | null => exact .null
  | parameter => exact .parameter
  | function _ ih => exact .function ih
  | template _ ih => exact .template ih
  | binary _ _ ihl ihr => exact .binary ihl ihr
  | not _ ih => exact .not ih
  | isNull _ ih => exact .isNull ih
  | inList _ _ ih ihs => exact .inList ih ihs
  | aggregate _ ih => exact .aggregate ih
  | map h => exact .map (hts h)

def Select.tables (q : Select) : List TableRef := q.table :: q.joins.map Join.table

theorem Select.mem_tables_join (q : Select) (kind : JoinKind) (t : TableRef) (on : List Expr) :
    t ∈ (q.join kind t on).tables := by simp [tables, join]

structure Select.WellScoped (q : Select) : Prop where
  aliases : (q.tables.map TableRef.aliasName).Nodup
  projection : ∀ e ∈ q.projection, e.Scoped q.tables
  conditions : ∀ e ∈ q.conditions, e.Scoped q.tables
  /-- A join uses its own table and those that are declared before it. -/
  joins : ∀ before j after, q.joins = before ++ j :: after →
    ∀ e ∈ j.on, e.Scoped (q.table :: before.map Join.table ++ [j.table])
  others : ∀ e ∈ q.groupBy ++ q.having ++ q.ordering.map OrderItem.expr, e.Scoped q.tables

/-- An element of a list with one element more at its end is the last one or is in the list. -/
theorem split_of_concat {α : Type} {as before after : List α} {a b : α}
    (h : as ++ [a] = before ++ b :: after) :
    as = before ∧ a = b ∨ ∃ after', as = before ++ b :: after' := by
  rcases List.eq_nil_or_concat' after with rfl | ⟨after', last, rfl⟩
  · obtain ⟨has, ha⟩ := List.append_inj' h rfl
    exact .inl ⟨has, List.singleton_inj.mp ha⟩
  · rw [← List.cons_append, ← List.append_assoc] at h
    exact .inr ⟨after', (List.append_inj' h rfl).1⟩

namespace FetchScope

variable {s : FetchScope} {primary : TableRef} {js : List Join} {n : Nat}
  {joined : List (Nat × TableRef)}

theorem Joins.mem_tables (h : s.Joins primary js n joined) {t : TableRef}
    (ht : t = primary ∨ ∃ depth, (depth, t) ∈ joined) : t ∈ primary :: js.map Join.table := by
  rcases ht with rfl | ⟨depth, ht⟩
  · exact List.mem_cons_self
  · obtain ⟨before, j, after, rfl, rfl, -⟩ := h.split ht
    simp

theorem Joins.aliases (h : s.Joins primary js n joined) (hprimary : primary.aliasName = aliasAt 0) :
    ((primary :: js.map Join.table).map TableRef.aliasName).Nodup := by
  have hjs : (js.map fun j => j.table.aliasName).Nodup := by
    induction h with
    | nil => exact List.nodup_nil
    | chain h _ _ ih | related h _ _ _ _ ih =>
      rw [List.map_append, List.nodup_append]
      refine ⟨ih, List.nodup_singleton _, ?_⟩
      simp only [List.forall_mem_map, List.map_singleton, List.forall_mem_singleton]
      exact fun j hj => h.join_alias_ne hj (.inr (Nat.le_refl _))
  simpa [hprimary] using ⟨fun j hj => h.join_alias_ne hj (.inl rfl), hjs⟩

/-- Every join is on columns of its own table and of one that is declared before it. -/
theorem Joins.on_scoped (h : s.Joins primary js n joined) {before after : List Join} {j : Join}
    (hjs : js = before ++ j :: after) :
    ∀ e ∈ j.on, e.Scoped (primary :: before.map Join.table ++ [j.table]) := by
  induction h generalizing after with
  | nil => simp at hjs
  | @chain js n joined depth h _ _ ih =>
    rcases split_of_concat hjs with ⟨rfl, rfl⟩ | ⟨after', hjs⟩
    · exact Expr.scoped_columnsEq (by simp) (by simp [chainJoin]) _
    · exact ih hjs
  | related h howner _ _ _ ih =>
    rcases split_of_concat hjs with ⟨rfl, rfl⟩ | ⟨after', hjs⟩
    · exact Expr.scoped_columnsEq (List.mem_append_left _ (h.mem_tables howner))
        (by simp [relatedJoin]) _
    · exact ih hjs

/-- The inner joins are those of the tables of the chain that have been asked for. -/
theorem Joins.inner (h : s.Joins primary js n joined) :
    (js.filter fun j => j.kind = .inner).map (fun j => j.table.name) =
      (joined.map Prod.fst).reverse.map s.tableAt := by
  induction h with
  | nil => rfl
  | chain _ _ _ ih => simp [ih, chainJoin]
  | related _ _ _ _ _ ih => simp [ih, relatedJoin]

theorem Joins.places_nodup (h : s.Joins primary js n joined) :
    (s.primary :: (joined.map Prod.fst).reverse).Nodup := by
  rw [List.nodup_cons, List.nodup_reverse]
  refine ⟨fun hmem => ?_, ?_⟩
  · obtain ⟨e, he, hplace⟩ := List.mem_map.mp (List.mem_reverse.mp hmem)
    exact h.place_ne e he hplace
  · induction h with
    | nil => exact List.nodup_nil
    | chain _ _ hnew ih =>
      refine List.nodup_cons.mpr ⟨fun hmem => ?_, ih⟩
      obtain ⟨e, he, hplace⟩ := List.mem_map.mp hmem
      exact hnew e he hplace
    | related _ _ _ _ _ ih => exact ih

end FetchScope

/-! ## Related rows -/

namespace RequestedMember

def joinsRow (s : FetchScope) (r : RequestedMember) : Bool :=
  match r.member.kind, r.storeOnly with
  | .relation target, false =>
    (FetchDraft.readsRelatedRow s r.member target).toOption.getD false
  | _, _ => false

/-- Whether a join is that of the row which a member is read with, by its foreign key. -/
def JoinedBy (s : FetchScope) (r : RequestedMember) (j : Join) : Prop :=
  ∃ target k identity owner, r.ReadsRow s target ∧ s.catalog.getClass target = .ok k ∧
    s.catalog.identityColumns target = .ok identity ∧ j.table.name = k.table.name ∧
    j = FetchScope.relatedJoin owner j.table r.member.columns identity

end RequestedMember

namespace FetchDraft

/-- A draft that projects columns of its tables only, and joins one row for each of some relations. -/
structure IsScoped (s : FetchScope) (rows : List RequestedMember) (d : FetchDraft) : Prop where
  joins : d.WellJoined s
  projection : ∀ e ∈ d.query.projection, e.Scoped d.query.tables
  outer : List.Forall₂ (RequestedMember.JoinedBy s) rows
    (d.query.joins.filter fun j => j.kind = .leftOuter)

variable {s : FetchScope} {rows : List RequestedMember} {d d' : FetchDraft}

theorem WellJoined.mem_tables (hd : d.WellJoined s) {depth : Nat} {t : TableRef}
    (ht : d.HasTable s depth t) : t ∈ d.query.tables :=
  FetchScope.Joins.mem_tables hd (ht.imp And.right fun ht => ⟨depth, ht⟩)

/-! ## Steps of the compiler -/

/-- A new table leaves the scope of what has been projected. -/
theorem IsScoped.join (hd : d.IsScoped s rows) {rows' : List RequestedMember} {j : Join}
    (hwell : d'.WellJoined s) (htable : d'.query.table = d.query.table)
    (hjoins : d'.query.joins = d.query.joins ++ [j])
    (hprojection : d'.query.projection = d.query.projection)
    (houter : List.Forall₂ (RequestedMember.JoinedBy s) rows'
      (d'.query.joins.filter fun j => j.kind = .leftOuter)) : d'.IsScoped s rows' := by
  refine ⟨hwell, fun e he => ?_, houter⟩
  rw [hprojection] at he
  refine (hd.projection e he).mono ?_
  rw [Select.tables, Select.tables, htable, hjoins, List.map_append]
  exact List.cons_subset_cons _ (List.subset_append_left _ _)

theorem IsScoped.setColumns (hd : d.IsScoped s rows) (key : MappingKey) (ps : List Nat) :
    (d.setColumns key ps).IsScoped s rows := ⟨hd.joins, hd.projection, hd.outer⟩

theorem IsScoped.addChild (hd : d.IsScoped s rows) (number : Nat) (child : ClassLayout) :
    IsScoped s rows { d with layout := d.layout.addChild number child } :=
  ⟨hd.joins, hd.projection, hd.outer⟩

theorem IsScoped.addCondition (hd : d.IsScoped s rows) (e : Expr) :
    (d.addCondition e).IsScoped s rows := ⟨hd.joins, hd.projection, hd.outer⟩

theorem chainTable_isScoped {depth : Nat} {t : TableRef} (hd : d.IsScoped s rows)
    (h : chainTable s d depth = .ok (t, d')) : d'.IsScoped s rows ∧ t ∈ d'.query.tables := by
  obtain ⟨hgrows, ht⟩ := chainTable_spec h
  have hwell := hgrows.joins hd.joins
  refine ⟨?_, hwell.mem_tables ht⟩
  unfold chainTable at h
  split at h
  · cases h
    exact hd
  · split at h
    · cases h
      exact hd
    · obtain ⟨on, -, h⟩ := Except.bind_eq_ok.mp h
      cases h
      exact hd.join hwell rfl rfl rfl (by simpa [Select.join, Select.newTableAlias] using hd.outer)

theorem project_isScoped {t : TableRef} {column logicalType : String} {position : Nat}
    (hd : d.IsScoped s rows) (ht : t ∈ d.query.tables)
    (h : d.project t column logicalType = .ok (position, d')) :
    d'.IsScoped s rows ∧ t ∈ d'.query.tables := by
  have hwell := (project_spec (s := s) h).1.joins hd.joins
  obtain ⟨es, types, rfl, -, hes, -⟩ := project_cases h
  refine ⟨⟨hwell, List.forall_mem_append.mpr ⟨hd.projection, fun e he => ?_⟩, hd.outer⟩, ht⟩
  rw [hes e he]
  exact .column ht

theorem projectAll_isScoped {t : TableRef} {columns : List (String × String)} {ps : List Nat}
    (hd : d.IsScoped s rows) (ht : t ∈ d.query.tables)
    (h : d.projectAll t columns = .ok (ps, d')) : d'.IsScoped s rows ∧ t ∈ d'.query.tables := by
  induction columns generalizing d ps with
  | nil =>
    cases h
    exact ⟨hd, ht⟩
  | cons column columns ih =>
    obtain ⟨⟨position, d₁⟩, hproject, h⟩ := Except.bind_eq_ok.mp h
    obtain ⟨⟨rest, d₂⟩, hrest, h⟩ := Except.bind_eq_ok.mp h
    cases h
    obtain ⟨hd₁, ht₁⟩ := project_isScoped hd ht hproject
    exact ih hd₁ ht₁ hrest

theorem selectVersion_isScoped {version : Option VersionMapping} (hd : d.IsScoped s rows)
    (h : selectVersion s d = .ok (version, d')) : d'.IsScoped s rows := by
  unfold selectVersion at h
  split at h
  · cases h
    exact hd
  · obtain ⟨⟨t, d₁⟩, htable, h⟩ := Except.bind_eq_ok.mp h
    obtain ⟨⟨position, d₂⟩, hproject, h⟩ := Except.bind_eq_ok.mp h
    cases h
    obtain ⟨hd₁, ht⟩ := chainTable_isScoped hd htable
    exact (project_isScoped hd₁ ht hproject).1.setColumns _ _

theorem selectScalar_isScoped {depth : Nat} {m : MemberMapping} (hd : d.IsScoped s rows)
    (h : selectScalar s d depth m = .ok d') : d'.IsScoped s rows := by
  unfold selectScalar at h
  split at h
  · obtain ⟨⟨t, d₁⟩, htable, h⟩ := Except.bind_eq_ok.mp h
    obtain ⟨⟨position, d₂⟩, hproject, h⟩ := Except.bind_eq_ok.mp h
    cases h
    obtain ⟨hd₁, ht⟩ := chainTable_isScoped hd htable
    exact (project_isScoped hd₁ ht hproject).1.setColumns _ _
  · cases h

theorem selectForeignKey_isScoped {depth : Nat} {m : MemberMapping} {target : String}
    {surrogate : Bool} (hd : d.IsScoped s rows)
    (h : selectForeignKey s d depth m target = .ok (surrogate, d')) : d'.IsScoped s rows := by
  obtain ⟨identity, -, h⟩ := Except.bind_eq_ok.mp h
  obtain ⟨⟨t, d₁⟩, htable, h⟩ := Except.bind_eq_ok.mp h
  obtain ⟨⟨ps, d₂⟩, hproject, h⟩ := Except.bind_eq_ok.mp h
  cases h
  obtain ⟨hd₁, ht⟩ := chainTable_isScoped hd htable
  exact (projectAll_isScoped hd₁ ht hproject).1.setColumns _ _

theorem selectRelatedFields_isScoped {related : TableRef} {keys : List MappingKey}
    {child child' : ClassLayout} {members : List MemberMapping} (hd : d.IsScoped s rows)
    (ht : related ∈ d.query.tables)
    (h : d.selectRelatedFields related keys child members = .ok (child', d')) :
    d'.IsScoped s rows := by
  induction members generalizing d child with
  | nil =>
    cases h
    exact hd
  | cons m members ih =>
    unfold selectRelatedFields at h
    split at h
    · split at h
      · exact ih hd ht h
      · obtain ⟨⟨position, d₁⟩, hproject, h⟩ := Except.bind_eq_ok.mp h
        obtain ⟨hd₁, ht₁⟩ := project_isScoped hd ht hproject
        exact ih hd₁ ht₁ h
    · exact ih hd ht h

/-- The scalar members of a related row and the note of its layout. -/
theorem relatedFields_isScoped {related : TableRef} {keys keys' : List MappingKey}
    {child : ClassLayout} {members : List MemberMapping} {number : Nat} {surrogate : Bool}
    {result : Bool × List MappingKey × FetchDraft} (hd : d.IsScoped s rows)
    (ht : related ∈ d.query.tables)
    (h : (do
      let (child, d) ← d.selectRelatedFields related keys child members
      pure (surrogate, keys', { d with layout := d.layout.addChild number child })) = .ok result) :
    result.2.2.IsScoped s rows := by
  obtain ⟨⟨child', d₁⟩, hfields, h⟩ := Except.bind_eq_ok.mp h
  cases h
  exact (selectRelatedFields_isScoped hd ht hfields).addChild number child'

/-- The row of a relation is joined once. -/
theorem joinRelated_isScoped {r : RequestedMember} {owner : TableRef} {depth : Nat} {target : String}
    {k : ClassMapping} {identity : List IdentityColumn} (hd : d.IsScoped s rows)
    (howner : d.HasTable s depth owner) (hrow : r.ReadsRow s target)
    (hk : s.catalog.getClass target = .ok k)
    (hidentity : s.catalog.identityColumns target = .ok identity)
    (hlength : identity.length = r.member.columns.length) :
    IsScoped s (rows ++ [r])
      { d with
        query := (d.query.newTableAlias k.table.name).2.join .leftOuter
          (d.query.newTableAlias k.table.name).1
          (Expr.columnsEq owner (d.query.newTableAlias k.table.name).1
            (FetchScope.relationPairs r.member.columns identity)) } := by
  have hwell := (joinRelated_grows howner hk hidentity hlength).joins hd.joins
  refine hd.join hwell rfl rfl rfl ?_
  rw [Select.join, List.filter_append]
  exact List.rel_append hd.outer
    (.cons ⟨target, k, identity, owner, hrow, hk, hidentity, rfl, rfl⟩ .nil)

theorem selectRelated_isScoped {r : RequestedMember} {target : String} {surrogate : Bool}
    {keys : List MappingKey} (hd : d.IsScoped s rows) (hrow : r.ReadsRow s target)
    (h : selectRelated s d r.depth r.member target = .ok (surrogate, keys, d')) :
    d'.IsScoped s (rows ++ [r]) := by
  obtain ⟨identity, hidentity, h⟩ := Except.bind_eq_ok.mp h
  obtain ⟨k, hk, h⟩ := Except.bind_eq_ok.mp h
  obtain ⟨⟨owner, d₁⟩, htable, h⟩ := Except.bind_eq_ok.mp h
  obtain ⟨on, hon, h⟩ := Except.bind_eq_ok.mp h
  obtain ⟨⟨ps, d₂⟩, hproject, h⟩ := Except.bind_eq_ok.mp h
  obtain ⟨hd₁, -⟩ := chainTable_isScoped hd htable
  obtain ⟨hidentity, hlength⟩ := targetIdentity_spec hidentity
  rw [columnsEqual_spec hon] at hproject
  have hjoined := joinRelated_isScoped hd₁ (chainTable_spec htable).2 hrow (ofMetadata_eq_ok.mp hk)
    hidentity hlength
  obtain ⟨hd₂, ht⟩ := projectAll_isScoped hjoined (Select.mem_tables_join _ _ _ _) hproject
  dsimp only at h
  split at h
  · exact relatedFields_isScoped hd₂ ht h
  · obtain ⟨⟨position, d₃⟩, hdiscriminator, h⟩ := Except.bind_eq_ok.mp h
    obtain ⟨hd₃, ht₃⟩ := project_isScoped hd₂ ht hdiscriminator
    exact relatedFields_isScoped hd₃ ht₃ h

end FetchDraft

/-! ## Selections -/

namespace FetchPlan

open FetchDraft

variable {s : FetchScope} {rows : List RequestedMember} {d d' : FetchDraft} {plan plan' : FetchPlan}

/-- A member joins the row that it is read with, and no other. -/
theorem addMember_isScoped {r : RequestedMember} (hd : d.IsScoped s rows)
    (h : plan.addMember s d r = .ok (plan', d')) :
    d'.IsScoped s (rows ++ [r].filter (·.joinsRow s)) := by
  unfold addMember at h
  split at h
  · next hkind hstore =>
    cases h
    simpa [RequestedMember.joinsRow, hkind, hstore] using hd
  · next target hkind hstore =>
    obtain ⟨⟨surrogate, d₁⟩, hforeign, h⟩ := Except.bind_eq_ok.mp h
    cases h
    simpa [RequestedMember.joinsRow, hkind, hstore] using selectForeignKey_isScoped hd hforeign
  · next hkind hstore =>
    cases h
    simpa [RequestedMember.joinsRow, hkind, hstore] using hd
  · next hkind hstore =>
    cases h
    simpa [RequestedMember.joinsRow, hkind, hstore] using hd
  · next hkind hstore =>
    obtain ⟨d₁, hscalar, h⟩ := Except.bind_eq_ok.mp h
    cases h
    simpa [RequestedMember.joinsRow, hkind, hstore] using selectScalar_isScoped hd hscalar
  · next target hkind hstore =>
    obtain ⟨readsRow, hreads, h⟩ := Except.bind_eq_ok.mp h
    have hrow : r.joinsRow s = readsRow := by
      simp [RequestedMember.joinsRow, hkind, hstore, hreads, Except.toOption]
    split at h
    · next hreadsRow =>
      obtain ⟨⟨surrogate, keys, d₁⟩, hrelated, h⟩ := Except.bind_eq_ok.mp h
      cases h
      have hrelation : r.ReadsRow s target := ⟨hkind, hstore, hreadsRow ▸ hreads⟩
      simpa [hrow, hreadsRow] using selectRelated_isScoped hd hrelation hrelated
    · next hreadsRow =>
      obtain ⟨⟨surrogate, d₁⟩, hforeign, h⟩ := Except.bind_eq_ok.mp h
      cases h
      simpa [hrow, hreadsRow] using selectForeignKey_isScoped hd hforeign

theorem addMembers_isScoped {rs : List RequestedMember} (hd : d.IsScoped s rows)
    (h : plan.addMembers s d rs = .ok (plan', d')) :
    d'.IsScoped s (rows ++ rs.filter (·.joinsRow s)) := by
  induction rs generalizing plan d rows with
  | nil =>
    cases h
    simpa using hd
  | cons r rs ih =>
    obtain ⟨⟨plan₁, d₁⟩, hmember, h⟩ := Except.bind_eq_ok.mp h
    have hrest := ih (addMember_isScoped hd hmember) h
    rwa [List.append_assoc, ← List.filter_append] at hrest

end FetchPlan

/-! ## Restrictions -/

namespace FetchDraft

variable {s : FetchScope} {rows : List RequestedMember} {d d' : FetchDraft}

theorem restrictIdentity_isScoped {identity : List IdentityColumn} (hd : d.IsScoped s rows)
    (h : d.restrictIdentity identity = .ok d') : d'.IsScoped s rows := by
  induction identity generalizing d with
  | nil =>
    cases h
    exact hd
  | cons c identity ih =>
    obtain ⟨condition, -, h⟩ := Except.bind_eq_ok.mp h
    exact ih (hd.addCondition condition) h

theorem restrictTenant_isScoped (hd : d.IsScoped s rows) (h : restrictTenant s d = .ok d') :
    d'.IsScoped s rows := by
  unfold restrictTenant at h
  split at h
  · cases h
    exact hd
  · obtain ⟨⟨t, d₁⟩, htable, h⟩ := Except.bind_eq_ok.mp h
    have hd₁ := (chainTable_isScoped hd htable).1
    dsimp only at h
    split at h
    · cases h
      exact hd₁.addCondition _
    · obtain ⟨condition, -, h⟩ := Except.bind_eq_ok.mp h
      cases h
      exact hd₁.addCondition condition

theorem restrictDeleted_isScoped (hd : d.IsScoped s rows) (h : restrictDeleted s d = .ok d') :
    d'.IsScoped s rows := by
  unfold restrictDeleted at h
  split at h
  · cases h
    exact hd
  · obtain ⟨⟨t, d₁⟩, htable, h⟩ := Except.bind_eq_ok.mp h
    obtain ⟨condition, -, h⟩ := Except.bind_eq_ok.mp h
    cases h
    exact (chainTable_isScoped hd htable).1.addCondition condition

theorem restrict_isScoped (hd : d.IsScoped s rows) (h : restrict s d = .ok d') :
    d'.IsScoped s rows := by
  obtain ⟨d₁, hidentity, h⟩ := Except.bind_eq_ok.mp h
  obtain ⟨d₂, htenant, hdeleted⟩ := Except.bind_eq_ok.mp h
  exact restrictDeleted_isScoped
    (restrictTenant_isScoped (restrictIdentity_isScoped hd hidentity) htenant) hdeleted

theorem start_isScoped (s : FetchScope) (className table : String) :
    (start className table).IsScoped s [] where
  joins := .nil
  projection _ he := nomatch he
  outer := .nil

theorem Restricts.scoped {α : Type} {condition : TableRef → α → Expr} {found : Option (Nat × α)}
    {added : List Expr} (h : d.Restricts s condition found added) (hd : d.WellJoined s)
    (hcondition : ∀ t part, t ∈ d.query.tables → (condition t part).Scoped d.query.tables) :
    ∀ e ∈ added, e.Scoped d.query.tables := by
  cases h with
  | unrestricted => simp
  | restricted ht => exact List.forall_mem_singleton.mpr (hcondition _ _ (hd.mem_tables ht))

theorem scoped_tenancyCondition {ts : List TableRef} {t : TableRef} (ht : t ∈ ts)
    (tenancy : TenancyMapping) : (tenancyCondition t tenancy).Scoped ts := by
  unfold tenancyCondition
  cases tenancy.allowed with
  | none => exact Expr.scoped_columnEq ht .parameter tenancy.column "string"
  | some allowed => exact .inList (.column ht) (List.forall_mem_map.mpr fun _ _ => .literal)

/-- Conditions are on the identity in the primary table and on columns of tables of the chain. -/
theorem IsCompiled.conditions_scoped {requested : List RequestedMember}
    (hd : IsCompiled s requested d) : ∀ e ∈ d.query.conditions, e.Scoped d.query.tables := by
  obtain ⟨tenancy, deleted, hconditions, htenancy, hdeleted⟩ := hd.conditions
  rw [hconditions]
  refine List.forall_mem_append.mpr ⟨List.forall_mem_append.mpr ⟨?_, ?_⟩, ?_⟩
  · refine List.forall_mem_map.mpr fun c _ => ?_
    exact Expr.scoped_columnEq List.mem_cons_self .parameter c.column c.logicalType
  · exact htenancy.scoped hd.joins fun t part ht => scoped_tenancyCondition ht part
  · exact hdeleted.scoped hd.joins fun t column ht =>
      Expr.scoped_columnEq ht .parameter column "bool"

theorem IsCompiled.wellScoped {requested : List RequestedMember} (hd : IsCompiled s requested d)
    (hrows : d.IsScoped s rows) : d.query.WellScoped := by
  have htable : d.query.table = ⟨s.tableAt s.primary, "A0"⟩ := congrArg Select.table hd.frame
  have hgroupBy : d.query.groupBy = [] := congrArg Select.groupBy hd.frame
  have hhaving : d.query.having = [] := congrArg Select.having hd.frame
  have hordering : d.query.ordering = [] := congrArg Select.ordering hd.frame
  refine ⟨FetchScope.Joins.aliases hd.joins (by rw [htable]; rfl), hrows.projection,
    hd.conditions_scoped, fun before j after => FetchScope.Joins.on_scoped hd.joins, ?_⟩
  simp [hgroupBy, hhaving, hordering]

end FetchDraft

/-- How a statement reads the classes of a chain and the rows of relations. -/
structure FetchScope.ReadBy (s : FetchScope) (requested : List RequestedMember) (q : Select) :
    Prop where
  /-- A chain has no class twice, so its places stand for classes. -/
  classes : (s.chain.map ClassMapping.name).Nodup
  primary : q.table.name = s.tableAt s.primary
  /-- The primary table and the inner joins are at different places of the chain. -/
  chain : ∃ places, (s.primary :: places).Nodup ∧
    (∀ depth, depth ∈ s.primary :: places ↔ s.Uses requested depth) ∧
    (∀ depth ∈ s.primary :: places, depth < s.chain.length) ∧
    (q.joins.filter fun j => j.kind = .inner).map (fun j => j.table.name) = places.map s.tableAt
  /-- Outer joins are in the order of the relations. -/
  related : List.Forall₂ (RequestedMember.JoinedBy s) (requested.filter (·.joinsRow s))
    (q.joins.filter fun j => j.kind = .leftOuter)

theorem FetchDraft.IsCompiled.readBy {c : Catalog} {key : FetchKey} {s : FetchScope}
    {requested : List RequestedMember} {d : FetchDraft} (hd : d.IsCompiled s requested)
    (hs : s.IsOf c key requested) (hrows : d.IsScoped s (requested.filter (·.joinsRow s))) :
    s.ReadBy requested d.query := by
  have htable : d.query.table = ⟨s.tableAt s.primary, "A0"⟩ := congrArg Select.table hd.frame
  have huses (depth : Nat) :
      depth ∈ s.primary :: (d.joined.map Prod.fst).reverse ↔ s.Uses requested depth := by
    rw [← hd.uses depth]
    simp [Uses, HasTable, exists_or]
  refine ⟨Catalog.chain_nodup hs.chain, by rw [htable], ?_, hrows.outer⟩
  exact ⟨_, FetchScope.Joins.places_nodup hd.joins, huses,
    fun depth hdepth => hs.uses_lt ((huses depth).mp hdepth), FetchScope.Joins.inner hd.joins⟩

/-- A compiled statement declares its tables under different aliases, and uses them from their
declaration on. It reads the table of a class once at most, and joins a row for each relation that is
read with it. -/
theorem FetchRequest.compile_scoped {c : Catalog} {p : Profile} {className : String}
    {fetch store : List Nat} {r : FetchRequest} {q : CompiledFetch}
    (hr : compile c p (.ofLists className fetch store) = .ok r) (hq : r.statement = some q) :
    q.query.WellScoped ∧
      ∃ s requested, FetchScope.ofKey c (.ofLists className fetch store) = .ok (s, requested) ∧
        s.ReadBy requested q.query := by
  obtain ⟨s, requested, version, plan, d, hstages⟩ := compile_stages hr
  obtain ⟨d₁, hversion, hmembers⟩ := hstages.selected
  obtain ⟨d', hrestrict, rfl, hcompiled⟩ := hstages.restricted hq
  have hstart := FetchDraft.start_isScoped s className (s.tableAt s.primary)
  have hrows := FetchDraft.restrict_isScoped
    (FetchPlan.addMembers_isScoped (FetchDraft.selectVersion_isScoped hstart hversion) hmembers)
    hrestrict
  exact ⟨hcompiled.wellScoped hrows, s, requested, hstages.scope,
    hcompiled.readBy (FetchScope.ofKey_spec hstages.scope) hrows⟩

/-- An invoice is read with its document and its customer. -/
theorem FetchRequest.compile_scoped_invoice :
    ∃ r q, compile invoices (Profile.ofVendor .mysql ⟨8, 0, 0⟩) (.ofLists "Invoice" [1, 2] []) =
      .ok r ∧ r.statement = some q ∧ q.query.WellScoped ∧
      q.query.tables.map TableRef.name = ["DOCUMENT", "INVOICE", "CUSTOMER"] := by
  have hcompiled : (compile invoices (Profile.ofVendor .mysql ⟨8, 0, 0⟩)
      (.ofLists "Invoice" [1, 2] [])).toOption.any fun r => r.statement.any fun q =>
        q.query.tables.map TableRef.name = ["DOCUMENT", "INVOICE", "CUSTOMER"] := by decide +kernel
  obtain ⟨r, hr, hstatement⟩ := Except.exists_of_any hcompiled
  obtain ⟨q, hq, htables⟩ := (Option.any_eq_true _ _).mp hstatement
  exact ⟨r, q, hr, hq, (compile_scoped hr hq).1, by simpa using htables⟩

end ObjectSql
