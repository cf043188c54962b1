import Mathlib.Logic.Relation
import ObjectSql.Proofs.Fetch.Compile

/-!
# Steps of a statement under construction

The compiler changes a draft by a few kinds of steps only, and each part of it is a sequence of them.
So what every step keeps, a whole compilation keeps: positions are those of projected columns, result
types are the types of these columns, and the layouts of related rows are complete.
-/
namespace ObjectSql

open FetchError

/-- Whether all positions of a layout are those of `n` projected expressions. -/
def Layout.Within (l : Layout) (n : Nat) : Prop :=
  ∀ e ∈ l.entries, ∀ i ∈ e.2.columns, 1 ≤ i ∧ i ≤ n

theorem Layout.Within.mono {l : Layout} {m n : Nat} (h : l.Within m) (hmn : m ≤ n) : l.Within n :=
  fun e he i hi => ⟨(h e he i hi).1, Nat.le_trans (h e he i hi).2 hmn⟩

/-- The layout of a related row. Every key of it has a position, and no row is related in turn. -/
structure ClassLayout.IsRelated (child : ClassLayout) (n : Nat) : Prop where
  within : child.layout.Within n
  placed : ∀ e ∈ child.layout.entries, e.2.columns ≠ []
  children : child.children = []

theorem ClassLayout.IsRelated.mono {child : ClassLayout} {m n : Nat} (h : child.IsRelated m)
    (hmn : m ≤ n) : child.IsRelated n :=
  ⟨h.within.mono hmn, h.placed, h.children⟩

theorem ClassLayout.IsRelated.setColumns {child : ClassLayout} {n : Nat} (h : child.IsRelated n)
    (key : MappingKey) {positions : List Nat} (hplaced : positions ≠ [])
    (hwithin : ∀ i ∈ positions, 1 ≤ i ∧ i ≤ n) :
    ClassLayout.IsRelated { child with layout := child.layout.setColumns key positions } n where
  within := Layout.forall_setColumns (Q := fun is => ∀ i ∈ is, 1 ≤ i ∧ i ≤ n) h.within hwithin key
  placed := Layout.forall_setColumns (Q := fun is => is ≠ []) h.placed hplaced key
  children := h.children

def RequestedMember.ReadsRow (r : RequestedMember) (s : FetchScope) (target : String) : Prop :=
  r.member.kind = .relation target ∧ r.storeOnly = false ∧
    FetchDraft.readsRelatedRow s r.member target = .ok true

namespace FetchDraft

def Reads (s : FetchScope) (d : FetchDraft) (t : TableRef) : Prop :=
  (∃ depth, d.HasTable s depth t) ∨ ∃ j ∈ d.query.joins, j.table = t

def HasPosition (d : FetchDraft) (n : Nat) : Prop := 1 ≤ n ∧ n ≤ d.query.projection.length

/-- One change of a draft, which may set the keys in `K` and join the tables of the classes in `T`. -/
inductive Step (s : FetchScope) (K : MappingKey → Prop) (T : String → Prop) :
    FetchDraft → FetchDraft → Prop where
  | project {d d' : FetchDraft} {t : TableRef} {column logicalType : String} {position : Nat}
    (ht : d.Reads s t) (h : d.project t column logicalType = .ok (position, d')) :
    Step s K T d d'
  | setColumns {d : FetchDraft} {key : MappingKey} {positions : List Nat} (hkey : K key)
    (h : ∀ n ∈ positions, d.HasPosition n) : Step s K T d (d.setColumns key positions)
  | joinChain {d : FetchDraft} (t : TableRef) (on : List Expr) (joined : List (Nat × TableRef)) :
    Step s K T d
      { d with
        query := { d.query.join .inner t on with nextAlias := d.query.nextAlias + 1 }
        joined := joined }
  | joinRelated {d : FetchDraft} {target : String} {k : ClassMapping} (htarget : T target)
    (hk : s.catalog.getClass target = .ok k) (aliasName : String) (on : List Expr) :
    Step s K T d
      { d with
        query := { d.query.join .leftOuter ⟨k.table.name, aliasName⟩ on with
          nextAlias := d.query.nextAlias + 1 } }
  | addChild {d : FetchDraft} {number : Nat} {child : ClassLayout} (hkey : K (.member number))
    (h : child.IsRelated d.query.projection.length) :
    Step s K T d { d with layout := d.layout.addChild number child }
  | addCondition {d : FetchDraft} (e : Expr) : Step s K T d (d.addCondition e)

abbrev Steps (s : FetchScope) (K : MappingKey → Prop) (T : String → Prop) :
    FetchDraft → FetchDraft → Prop := Relation.ReflTransGen (Step s K T)

variable {s : FetchScope} {K : MappingKey → Prop} {T : String → Prop} {d d' : FetchDraft}

theorem Steps.trans {d'' : FetchDraft} (h : Steps s K T d d') (h' : Steps s K T d' d'') :
    Steps s K T d d'' := Relation.ReflTransGen.trans h h'

/-! ## What steps keep -/

/-- Projecting a column appends it and its type, or finds it. -/
theorem project_cases {t : TableRef} {column logicalType : String} {position : Nat}
    (h : d.project t column logicalType = .ok (position, d')) :
    ∃ es types, d' = { d with query := { d.query with projection := d.query.projection ++ es },
                              resultTypes := types } ∧
      d'.HasPosition position ∧ (∀ e ∈ es, e = .column t column logicalType) ∧
      (d.resultTypes = d.query.projection.map Expr.logicalType →
        types = (d.query.projection ++ es).map Expr.logicalType) := by
  obtain ⟨⟨position', query⟩, hselect, h⟩ := Except.bind_eq_ok.mp h
  cases h
  rcases select_column_cases (ofSql_eq_ok.mp hselect) with ⟨i, rfl, rfl, hget⟩ | ⟨rfl, rfl⟩
  · have hlt := (List.getElem?_eq_some_iff.mp hget).1
    have hquery : { d.query with projection := d.query.projection ++ [] } = d.query := by
      cases d.query
      simp
    refine ⟨[], _, by rw [hquery], ⟨by omega, hlt⟩, by simp, fun htypes => ?_⟩
    rw [if_neg (by simp [htypes]; omega), List.append_nil, htypes]
  · refine ⟨_, _, rfl, ⟨by omega, by simp⟩, by simp, fun htypes => ?_⟩
    rw [if_pos (by simp [htypes]), htypes, List.map_append]
    rfl

theorem Step.projection (h : Step s K T d d') :
    d.query.projection <+: d'.query.projection := by
  cases h with
  | project _ h =>
    obtain ⟨es, types, rfl, -⟩ := project_cases h
    exact List.prefix_append _ _
  | setColumns | joinChain | joinRelated | addChild | addCondition => exact List.prefix_rfl

theorem Steps.projection (h : Steps s K T d d') :
    d.query.projection <+: d'.query.projection := by
  induction h with
  | refl => exact List.prefix_rfl
  | tail _ hstep ih => exact ih.trans hstep.projection

theorem Steps.length_le (h : Steps s K T d d') :
    d.query.projection.length ≤ d'.query.projection.length := h.projection.length_le

theorem HasPosition.mono {n : Nat} (hn : d.HasPosition n) (h : Steps s K T d d') :
    d'.HasPosition n := ⟨hn.1, Nat.le_trans hn.2 h.length_le⟩

/-- A draft whose layouts are about the columns that it projects. -/
structure Placed (d : FetchDraft) : Prop where
  sorted : d.layout.layout.Sorted
  within : d.layout.layout.Within d.query.projection.length
  children : ∀ e ∈ d.layout.children, e.2.IsRelated d.query.projection.length
  columns : ∀ e ∈ d.query.projection, ∃ t column logicalType, e = .column t column logicalType
  types : d.resultTypes = d.query.projection.map Expr.logicalType

theorem Step.placed (h : Step s K T d d') (hd : d.Placed) : d'.Placed := by
  have hlength := h.projection.length_le
  cases h with
  | project _ h =>
    obtain ⟨es, types, rfl, -, hes, htypes⟩ := project_cases h
    refine ⟨hd.sorted, hd.within.mono hlength, fun e he => (hd.children e he).mono hlength,
      fun e he => ?_, htypes hd.types⟩
    rcases List.mem_append.mp he with he | he
    · exact hd.columns e he
    · exact ⟨_, _, _, hes e he⟩
  | setColumns _ h =>
    exact ⟨hd.sorted.modify _ _,
      Layout.forall_setColumns (Q := fun is => ∀ i ∈ is, 1 ≤ i ∧ i ≤ _) hd.within h _,
      hd.children, hd.columns, hd.types⟩
  | joinChain | joinRelated | addCondition =>
    exact ⟨hd.sorted, hd.within, hd.children, hd.columns, hd.types⟩
  | addChild _ h =>
    refine ⟨hd.sorted, hd.within, fun e he => ?_, hd.columns, hd.types⟩
    rcases ClassLayout.mem_insertChild he with rfl | he
    · exact h
    · exact hd.children e he

theorem Steps.placed (h : Steps s K T d d') (hd : d.Placed) : d'.Placed := by
  induction h with
  | refl => exact hd
  | tail _ hstep ih => exact hstep.placed ih

theorem start_placed (className table : String) : (start className table).Placed where
  sorted := List.Pairwise.nil
  within _ he := nomatch he
  children _ he := nomatch he
  columns _ he := nomatch he
  types := rfl

/-- Steps leave the entry of a key that they do not set. -/
theorem Steps.find?_eq (h : Steps s K T d d') (hd : d.Placed) {key : MappingKey}
    (hkey : ¬K key) : d'.layout.layout.find? key = d.layout.layout.find? key := by
  induction h with
  | refl => rfl
  | tail hrest hstep ih =>
    have hsorted := (Steps.placed hrest hd).sorted
    rw [← ih]
    cases hstep with
    | project _ h =>
      obtain ⟨es, types, rfl, -⟩ := project_cases h
      rfl
    | setColumns hset _ =>
      refine (Layout.find?_modify hsorted).trans (if_neg ?_)
      rintro rfl
      exact hkey hset
    | joinChain | joinRelated | addChild | addCondition => rfl

/-- Steps leave the related layout of a member that they do not set. -/
theorem Steps.child?_eq (h : Steps s K T d d') {number : Nat}
    (hkey : ¬K (.member number)) : d'.layout.child? number = d.layout.child? number := by
  induction h with
  | refl => rfl
  | tail _ hstep ih =>
    rw [← ih]
    cases hstep with
    | project _ h =>
      obtain ⟨es, types, rfl, -⟩ := project_cases h
      rfl
    | addChild hset _ =>
      rw [ClassLayout.child?_addChild, if_neg]
      rintro rfl
      exact hkey hset
    | setColumns | joinChain | joinRelated | addCondition => rfl

/-- Outer joins are those of the tables of the given classes. -/
theorem Steps.leftOuter (h : Steps s K T d d') {j : Join} (hj : j ∈ d'.query.joins)
    (hkind : j.kind = .leftOuter) : j ∈ d.query.joins ∨
      ∃ target k, T target ∧ s.catalog.getClass target = .ok k ∧ j.table.name = k.table.name := by
  induction h with
  | refl => exact .inl hj
  | tail _ hstep ih =>
    cases hstep with
    | project _ h =>
      obtain ⟨es, types, rfl, -⟩ := project_cases h
      exact ih hj
    | joinChain =>
      rcases List.mem_append.mp hj with hj | hj
      · exact ih hj
      · obtain rfl := List.mem_singleton.mp hj
        cases hkind
    | joinRelated htarget hk =>
      rcases List.mem_append.mp hj with hj | hj
      · exact ih hj
      · obtain rfl := List.mem_singleton.mp hj
        exact .inr ⟨_, _, htarget, hk, rfl⟩
    | setColumns | addChild | addCondition => exact ih hj

/-! ## The parts of the compiler as steps -/

theorem reads_joined {query : Select} {kind : JoinKind} {t : TableRef} {on : List Expr}
    (h : d.query = query.join kind t on) : d.Reads s t :=
  .inr ⟨⟨kind, t, on⟩, by rw [h]; exact List.mem_append_right _ List.mem_cons_self, rfl⟩

theorem project_steps {t : TableRef} {column logicalType : String} {position : Nat}
    (ht : d.Reads s t) (h : d.project t column logicalType = .ok (position, d')) :
    Steps s K T d d' ∧ d'.Reads s t ∧ d'.HasPosition position := by
  refine ⟨.single (.project ht h), ?_⟩
  obtain ⟨es, types, rfl, hposition, -⟩ := project_cases h
  exact ⟨ht, hposition⟩

theorem projectAll_steps {t : TableRef} {columns : List (String × String)} {positions : List Nat}
    (ht : d.Reads s t) (h : d.projectAll t columns = .ok (positions, d')) :
    Steps s K T d d' ∧ d'.Reads s t ∧ positions.length = columns.length ∧
      ∀ n ∈ positions, d'.HasPosition n := by
  induction columns generalizing d positions with
  | nil =>
    cases h
    exact ⟨.refl, ht, rfl, by simp⟩
  | cons column columns ih =>
    obtain ⟨⟨position, d₁⟩, hproject, h⟩ := Except.bind_eq_ok.mp h
    obtain ⟨⟨rest, d₂⟩, hrest, h⟩ := Except.bind_eq_ok.mp h
    cases h
    obtain ⟨hsteps, ht₁, hposition⟩ := project_steps ht hproject
    obtain ⟨hsteps', ht₂, hlength, hpositions⟩ := ih ht₁ hrest
    refine ⟨hsteps.trans hsteps', ht₂, congrArg (· + 1) hlength, fun n hn => ?_⟩
    rcases List.mem_cons.mp hn with rfl | hn
    · exact hposition.mono hsteps'
    · exact hpositions n hn

theorem chainTable_steps {depth : Nat} {t : TableRef} (h : chainTable s d depth = .ok (t, d')) :
    Steps s K T d d' ∧ d'.Reads s t := by
  refine ⟨?_, .inl ⟨depth, (chainTable_spec h).2⟩⟩
  unfold chainTable at h
  split at h
  · cases h
    exact .refl
  · split at h
    · cases h
      exact .refl
    · obtain ⟨on, -, h⟩ := Except.bind_eq_ok.mp h
      cases h
      exact .single (.joinChain _ _ _)

theorem restrictIdentity_steps {identity : List IdentityColumn}
    (h : d.restrictIdentity identity = .ok d') : Steps s K T d d' := by
  induction identity generalizing d with
  | nil =>
    cases h
    exact .refl
  | cons c identity ih =>
    obtain ⟨condition, -, h⟩ := Except.bind_eq_ok.mp h
    exact .head (.addCondition condition) (ih h)

theorem restrictTenant_steps (h : restrictTenant s d = .ok d') : Steps s K T d d' := by
  unfold restrictTenant at h
  split at h
  · cases h
    exact .refl
  · obtain ⟨⟨t, d₁⟩, htable, h⟩ := Except.bind_eq_ok.mp h
    have hsteps := (chainTable_steps (K := K) (T := T) htable).1
    dsimp only at h
    split at h
    · cases h
      exact hsteps.tail (.addCondition _)
    · obtain ⟨condition, -, h⟩ := Except.bind_eq_ok.mp h
      cases h
      exact hsteps.tail (.addCondition condition)

theorem restrictDeleted_steps (h : restrictDeleted s d = .ok d') : Steps s K T d d' := by
  unfold restrictDeleted at h
  split at h
  · cases h
    exact .refl
  · obtain ⟨⟨t, d₁⟩, htable, h⟩ := Except.bind_eq_ok.mp h
    obtain ⟨condition, -, h⟩ := Except.bind_eq_ok.mp h
    cases h
    exact (chainTable_steps htable).1.tail (.addCondition condition)

theorem restrict_steps (h : restrict s d = .ok d') : Steps s K T d d' := by
  obtain ⟨d₁, hidentity, h⟩ := Except.bind_eq_ok.mp h
  obtain ⟨d₂, htenant, hdeleted⟩ := Except.bind_eq_ok.mp h
  exact (restrictIdentity_steps hidentity).trans
    ((restrictTenant_steps htenant).trans (restrictDeleted_steps hdeleted))

end FetchDraft

end ObjectSql
