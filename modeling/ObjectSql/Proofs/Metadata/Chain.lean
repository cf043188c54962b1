import Mathlib.Data.List.Nodup
import ObjectSql.Metadata.Catalog
import ObjectSql.Proofs.Except

/-!
# Lookups along a chain

What a successful lookup says about the catalog: a member is found in the nearest class of the chain
that declares it, and the columns of an identity are told apart by member and place.
-/
namespace ObjectSql

theorem exists_of_findSome?_zipIdx {α β : Type} {f : α → Option β} {as : List α} {start n : Nat} {b : β}
    (h : ((as.zipIdx.drop start).findSome? fun (a, i) => (f a).map (i, ·)) = some (n, b)) :
    start ≤ n ∧ ∃ a, as[n]? = some a ∧ f a = some b ∧
      ∀ i, start ≤ i → i < n → ∀ a', as[i]? = some a' → f a' = none := by
  obtain ⟨before, ⟨a, i⟩, after, hsplit, hfound, hnone⟩ := List.findSome?_eq_some_iff.mp h
  obtain ⟨b', hb', hpair⟩ := Option.map_eq_some_iff.mp hfound
  cases hpair
  have hget (j : Nat) : (as.zipIdx.drop start)[j]? = as[start + j]?.map (·, start + j) := by
    simp [List.getElem?_drop, List.getElem?_zipIdx]
  have hlength : (as.zipIdx.drop start)[before.length]? = some (a, n) := by
    rw [hsplit]
    simp
  rw [hget, Option.map_eq_some_iff] at hlength
  obtain ⟨a', ha', hpair⟩ := hlength
  cases hpair
  refine ⟨Nat.le_add_right _ _, a, ha', hb', fun j hstart hj a'' ha'' => ?_⟩
  obtain ⟨k, rfl⟩ := Nat.exists_eq_add_of_le hstart
  have hk : k < before.length := by omega
  have hbefore : before[k]? = some (a'', start + k) := by
    have hat := hget k
    rw [hsplit, List.getElem?_append_left hk, ha''] at hat
    exact hat
  have hmem := hnone _ (List.mem_of_getElem? hbefore)
  simpa using hmem

namespace Catalog

variable {c : Catalog} {name : String} {chain : List ClassMapping} {k : ClassMapping}

theorem find?_of_getClass (h : c.getClass name = .ok k) :
    c.classes.find? (·.name == name) = some k := by
  unfold getClass class? at h
  split at h
  · next hfind =>
    cases h
    exact hfind
  · cases h

theorem mem_of_getClass (h : c.getClass name = .ok k) : k ∈ c.classes :=
  List.mem_of_find?_eq_some (find?_of_getClass h)

theorem name_of_getClass (h : c.getClass name = .ok k) : k.name = name := by
  simpa using List.find?_some (find?_of_getClass h)

/-- A chain is a class and a chain of registered classes. -/
theorem chainFrom_spec {steps : Nat} {seen : List String} (h : c.chainFrom steps seen k = .ok chain) :
    ∃ rest, chain = k :: rest ∧ ∀ k' ∈ rest, k' ∈ c.classes := by
  induction steps generalizing seen k chain with
  | zero => cases h
  | succ steps ih =>
    unfold chainFrom at h
    split at h
    · cases h
      exact ⟨[], rfl, by simp⟩
    · split at h
      · cases h
      · obtain ⟨above, habove, h⟩ := Except.bind_eq_ok.mp h
        obtain ⟨rest, hrest, h⟩ := Except.bind_eq_ok.mp h
        cases h
        obtain ⟨rest', rfl, hmem⟩ := ih hrest
        refine ⟨above :: rest', rfl, fun k' hk' => ?_⟩
        rcases List.mem_cons.mp hk' with rfl | hk'
        · exact mem_of_getClass habove
        · exact hmem k' hk'

/-- The classes above a class have names that differ from each other and from those that have been
seen. -/
theorem chainFrom_names {steps : Nat} {seen : List String} (h : c.chainFrom steps seen k = .ok chain) :
    ∃ rest, chain = k :: rest ∧ (rest.map ClassMapping.name).Nodup ∧
      ∀ k' ∈ rest, k'.name ∉ k.name :: seen := by
  induction steps generalizing seen k chain with
  | zero => cases h
  | succ steps ih =>
    unfold chainFrom at h
    split at h
    · cases h
      exact ⟨[], rfl, by simp⟩
    · split at h
      · cases h
      · next parent _ hnew =>
        obtain ⟨above, habove, h⟩ := Except.bind_eq_ok.mp h
        obtain ⟨rest, hrest, h⟩ := Except.bind_eq_ok.mp h
        cases h
        obtain ⟨rest', rfl, hnodup, hnames⟩ := ih hrest
        have hparent : above.name ∉ k.name :: seen := by
          rw [name_of_getClass habove]
          simpa using hnew
        refine ⟨above :: rest', rfl, List.nodup_cons.mpr ⟨fun hmem => ?_, hnodup⟩,
          List.forall_mem_cons.mpr ⟨hparent, fun k' hk' hseen => ?_⟩⟩
        · obtain ⟨k', hk', hname⟩ := List.mem_map.mp hmem
          exact hnames k' hk' (hname ▸ List.mem_cons_self)
        · exact hnames k' hk' (List.mem_cons_of_mem _ hseen)

/-- No class is in a chain twice. -/
theorem chain_nodup (h : c.chain name = .ok chain) : (chain.map ClassMapping.name).Nodup := by
  obtain ⟨k, -, hchain⟩ := Except.bind_eq_ok.mp h
  obtain ⟨rest, rfl, hnodup, hnames⟩ := chainFrom_names hchain
  refine List.nodup_cons.mpr ⟨fun hmem => ?_, hnodup⟩
  obtain ⟨k', hk', hname⟩ := List.mem_map.mp hmem
  exact hnames k' hk' (hname ▸ List.mem_cons_self)

theorem chain_spec (h : c.chain name = .ok chain) :
    ∃ k rest, c.getClass name = .ok k ∧ chain = k :: rest ∧ ∀ k' ∈ chain, k' ∈ c.classes := by
  obtain ⟨k, hk, hchain⟩ := Except.bind_eq_ok.mp h
  obtain ⟨rest, rfl, hmem⟩ := chainFrom_spec hchain
  refine ⟨k, rest, hk, rfl, fun k' hk' => ?_⟩
  rcases List.mem_cons.mp hk' with rfl | hk'
  · exact mem_of_getClass hk
  · exact hmem k' hk'

/-! ## Members -/

/-- The nearest class of a chain that declares a member. -/
def Declares (chain : List ClassMapping) (number depth : Nat) (m : MemberMapping) : Prop :=
  (∃ k, chain[depth]? = some k ∧ k.declared? number = some m) ∧
    ∀ i < depth, ∀ k, chain[i]? = some k → k.declared? number = none

theorem member_spec {number depth : Nat} {m : MemberMapping}
    (h : c.member name number = .ok (depth, m)) :
    ∃ chain, c.chain name = .ok chain ∧ Declares chain number depth m := by
  obtain ⟨chain, hchain, h⟩ := Except.bind_eq_ok.mp h
  split at h
  · next found hfound =>
    cases h
    rw [← List.drop_zero (l := chain.zipIdx)] at hfound
    obtain ⟨-, k, hk, hm, hnone⟩ :=
      exists_of_findSome?_zipIdx (f := fun k : ClassMapping => k.declared? number) hfound
    exact ⟨chain, hchain, ⟨k, hk, hm⟩, fun i hi k' hk' => hnone i (Nat.zero_le i) hi k' hk'⟩
  · cases h

theorem Declares.unique {number depth depth' : Nat} {m m' : MemberMapping}
    (h : Declares chain number depth m) (h' : Declares chain number depth' m') :
    depth = depth' ∧ m = m' := by
  obtain ⟨⟨k, hk, hm⟩, hnone⟩ := h
  obtain ⟨⟨k', hk', hm'⟩, hnone'⟩ := h'
  rcases Nat.lt_trichotomy depth depth' with hlt | rfl | hlt
  · simp [hnone' depth hlt k hk] at hm
  · simp_all
  · simp [hnone depth' hlt k' hk'] at hm'

theorem Declares.number_eq {number depth : Nat} {m : MemberMapping}
    (h : Declares chain number depth m) : m.number = number := by
  obtain ⟨⟨k, -, hm⟩, -⟩ := h
  simpa using List.find?_some hm

/-! ## Identities -/

/-- No application identity lists a member twice. -/
def DistinctKeys (c : Catalog) : Prop :=
  ∀ k ∈ c.classes, ∀ members, k.identity = some (.application members) → members.Nodup

theorem keyColumns_spec {m : MemberMapping} {columns : List IdentityColumn}
    (h : keyColumns name m = .ok columns) :
    (∀ x ∈ columns, x.member = some m.number) ∧ (columns.map IdentityColumn.position).Nodup := by
  unfold keyColumns at h
  split at h
  · cases h
  · cases h
    constructor
    · intro x hx
      obtain ⟨y, -, rfl⟩ := List.mem_map.mp hx
      rfl
    · simp [Function.comp_def, List.nodup_range']

theorem identity_spec {strategy : IdentityStrategy} (h : c.identity name = .ok strategy) :
    ∃ k ∈ c.classes, k.identity = some strategy := by
  obtain ⟨chain, hchain, h⟩ := Except.bind_eq_ok.mp h
  obtain ⟨-, -, -, -, hmem⟩ := chain_spec hchain
  split at h
  · next found hfound =>
    cases h
    obtain ⟨k, hk, hidentity⟩ := List.exists_of_findSome?_eq_some hfound
    exact ⟨k, hmem k hk, hidentity⟩
  · cases h

/-- Lists of columns of distinct members are told apart by member and place. -/
theorem nodup_flatten_keys {numbers : List Nat} {lists : List (List IdentityColumn)}
    (h : List.Forall₂ (fun number columns => (∀ x ∈ columns, x.member = some number) ∧
      (columns.map IdentityColumn.position).Nodup) numbers lists) (hnodup : numbers.Nodup) :
    (lists.flatten.map fun x => (x.member, x.position)).Nodup ∧
      ∀ x ∈ lists.flatten, ∃ number ∈ numbers, x.member = some number := by
  induction h with
  | nil => simp
  | @cons number columns numbers lists hcolumns _ ih =>
    obtain ⟨hmember, hpositions⟩ := hcolumns
    obtain ⟨hnot, htail⟩ := List.nodup_cons.mp hnodup
    obtain ⟨hrest, hmembers⟩ := ih htail
    constructor
    · rw [List.flatten_cons, List.map_append]
      refine List.nodup_append.mpr ⟨?_, hrest, ?_⟩
      · refine List.Nodup.of_map Prod.snd ?_
        rwa [List.map_map]
      · rintro pair hpair pair' hpair' rfl
        obtain ⟨x, hx, rfl⟩ := List.mem_map.mp hpair
        obtain ⟨y, hy, heq⟩ := List.mem_map.mp hpair'
        obtain ⟨number', hnumber', hy⟩ := hmembers y hy
        have hsame : y.member = x.member := congrArg Prod.fst heq
        rw [hy, hmember x hx, Option.some_inj] at hsame
        exact hnot (hsame ▸ hnumber')
    · intro x hx
      rcases List.mem_append.mp hx with hx | hx
      · exact ⟨number, List.mem_cons_self, hmember x hx⟩
      · obtain ⟨number', hnumber', hx⟩ := hmembers x hx
        exact ⟨number', List.mem_cons_of_mem _ hnumber', hx⟩

/-- Identity columns are told apart by their member and their place in it. -/
theorem identityColumns_nodup (hc : c.DistinctKeys) {columns : List IdentityColumn}
    (h : c.identityColumns name = .ok columns) :
    (columns.map fun x => (x.member, x.position)).Nodup := by
  obtain ⟨strategy, hstrategy, h⟩ := Except.bind_eq_ok.mp h
  cases strategy with
  | surrogate column logicalType =>
    cases h
    simp
  | application members =>
    obtain ⟨lists, hlists, h⟩ := Except.bind_eq_ok.mp h
    cases h
    obtain ⟨k, hk, hidentity⟩ := identity_spec hstrategy
    refine (nodup_flatten_keys ((mapM_eq_ok hlists).imp fun number columns hcolumns => ?_)
      (hc k hk members hidentity)).1
    obtain ⟨⟨depth, m⟩, hm, hcolumns⟩ := Except.bind_eq_ok.mp hcolumns
    obtain ⟨chain, -, hdeclares⟩ := member_spec hm
    rw [← hdeclares.number_eq]
    exact keyColumns_spec hcolumns

theorem chain_of_identityColumns {columns : List IdentityColumn}
    (h : c.identityColumns name = .ok columns) : ∃ chain, c.chain name = .ok chain := by
  obtain ⟨strategy, hstrategy, -⟩ := Except.bind_eq_ok.mp h
  obtain ⟨chain, hchain, -⟩ := Except.bind_eq_ok.mp hstrategy
  exact ⟨chain, hchain⟩

end Catalog

end ObjectSql
