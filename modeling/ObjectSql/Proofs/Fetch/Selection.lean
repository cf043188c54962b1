import ObjectSql.Proofs.Fetch.Compile

/-!
# Selections of members

The lists of members of a request are put in ascending order without repetition. The members to fetch
are looked up first and then those to store only, so no member is requested twice.
-/
namespace ObjectSql

open FetchError

/-! ## Sets of numbers -/

namespace FetchKey

theorem mem_insertMember {n m : Nat} {ns : List Nat} :
    m ∈ insertMember n ns ↔ m = n ∨ m ∈ ns := by
  induction ns with
  | nil => simp [insertMember]
  | cons k ns ih => grind [insertMember]

theorem insertMember_sorted {n : Nat} {ns : List Nat} (h : ns.Pairwise (· < ·)) :
    (insertMember n ns).Pairwise (· < ·) := by
  induction ns with
  | nil => exact List.pairwise_singleton _ _
  | cons k ns ih =>
    obtain ⟨hk, hns⟩ := List.pairwise_cons.mp h
    unfold insertMember
    split
    · next hlt =>
      refine List.pairwise_cons.mpr ⟨fun m hm => ?_, h⟩
      rcases List.mem_cons.mp hm with rfl | hm
      · exact hlt
      · exact Nat.lt_trans hlt (hk m hm)
    · split
      · exact h
      · refine List.pairwise_cons.mpr ⟨fun m hm => ?_, ih hns⟩
        rcases mem_insertMember.mp hm with rfl | hm
        · omega
        · exact hk m hm

theorem mem_memberSet {n : Nat} {ns : List Nat} : n ∈ memberSet ns ↔ n ∈ ns := by
  induction ns with
  | nil => rfl
  | cons m ns ih => rw [memberSet, List.foldr_cons, mem_insertMember, List.mem_cons, ← ih]; rfl

theorem memberSet_sorted (ns : List Nat) : (memberSet ns).Pairwise (· < ·) := by
  induction ns with
  | nil => exact .nil
  | cons n ns ih => exact insertMember_sorted ih

end FetchKey

/-! ## Requested members -/

/-- Requested members in the order of their numbers. -/
structure RequestedMember.IsListing (rs : List RequestedMember) (storeOnly : Bool)
    (P : Nat → Prop) : Prop where
  sorted : (rs.map (·.member.number)).Pairwise (· < ·)
  mem_iff : ∀ n, n ∈ rs.map (·.member.number) ↔ P n
  storeOnly : ∀ r ∈ rs, r.storeOnly = storeOnly

theorem FetchRequest.findMembers_numbers {c : Catalog} {className : String} {storeOnly : Bool}
    {numbers : List Nat} {rs : List RequestedMember}
    (h : findMembers c className storeOnly numbers = .ok rs) :
    rs.map (·.member.number) = numbers := by
  have hall := mapM_eq_ok (ofMetadata_eq_ok.mp h)
  clear h
  induction hall with
  | nil => rfl
  | cons hfound _ ih =>
    obtain ⟨⟨depth, m⟩, hm, rfl⟩ := Except.map_eq_ok.mp hfound
    obtain ⟨chain, -, hdeclares⟩ := Catalog.member_spec hm
    rw [List.map_cons, ih, hdeclares.number_eq]

namespace FetchScope

variable {c : Catalog} {className : String} {fetch store : List Nat} {s : FetchScope}
  {requested : List RequestedMember}

/-- The members to fetch come first, then those to store only. -/
theorem ofKey_listings (h : ofKey c (.ofLists className fetch store) = .ok (s, requested)) :
    ∃ fetched stored, requested = fetched ++ stored ∧
      RequestedMember.IsListing fetched false (· ∈ fetch) ∧
      RequestedMember.IsListing stored true fun n => n ∈ store ∧ n ∉ fetch := by
  obtain ⟨chain, -, h⟩ := Except.bind_eq_ok.mp h
  obtain ⟨fetched, hfetched, h⟩ := Except.bind_eq_ok.mp h
  obtain ⟨stored, hstored, h⟩ := Except.bind_eq_ok.mp h
  obtain ⟨identity, -, h⟩ := Except.bind_eq_ok.mp h
  cases h
  have hfetch : fetched.map (·.member.number) = FetchKey.memberSet fetch :=
    FetchRequest.findMembers_numbers hfetched
  have hstore : stored.map (·.member.number) =
      (FetchKey.memberSet store).filter fun n => !(FetchKey.memberSet fetch).contains n :=
    FetchRequest.findMembers_numbers hstored
  refine ⟨fetched, stored, rfl, ⟨?_, fun n => ?_, fun r hr =>
    (FetchRequest.findMembers_spec hfetched hr).2.1⟩,
    ⟨?_, fun n => ?_, fun r hr =>
    (FetchRequest.findMembers_spec hstored hr).2.1⟩⟩
  · exact hfetch ▸ FetchKey.memberSet_sorted fetch
  · rw [hfetch, FetchKey.mem_memberSet]
  · exact hstore ▸ (FetchKey.memberSet_sorted store).filter _
  · simp [hstore, FetchKey.mem_memberSet]

/-- Every member that is asked for is declared by a class of the chain. -/
theorem declares_of_asked (h : ofKey c (.ofLists className fetch store) = .ok (s, requested)) {n : Nat}
    (hn : n ∈ fetch ∨ n ∈ store) : ∃ depth m, Catalog.Declares s.chain n depth m := by
  have hdeclared := (ofKey_spec h).declared
  obtain ⟨fetched, stored, rfl, hfetched, hstored⟩ := ofKey_listings h
  have hmem : n ∈ (fetched ++ stored).map (·.member.number) := by
    rw [List.map_append, List.mem_append, hfetched.mem_iff, hstored.mem_iff]
    by_cases hfetch : n ∈ fetch
    · exact .inl hfetch
    · exact .inr ⟨hn.resolve_left hfetch, hfetch⟩
  obtain ⟨r, hr, rfl⟩ := List.mem_map.mp hmem
  exact ⟨r.depth, r.member, hdeclared r hr⟩

/-- No member is requested twice. -/
theorem nodup_requested (h : ofKey c (.ofLists className fetch store) = .ok (s, requested)) :
    (requested.map (·.member.number)).Nodup := by
  obtain ⟨fetched, stored, rfl, hfetched, hstored⟩ := ofKey_listings h
  rw [List.map_append]
  refine List.nodup_append.mpr ⟨hfetched.sorted.imp Nat.ne_of_lt, hstored.sorted.imp Nat.ne_of_lt,
    fun n hn m hm heq => ?_⟩
  exact ((hstored.mem_iff m).mp hm).2 (heq ▸ (hfetched.mem_iff n).mp hn)

end FetchScope

/-! ## Uses of members -/

inductive MemberUse where
  | field
  | stored
  | deferred
deriving DecidableEq

/-- How a member is used; only relations are stored as references. -/
def RequestedMember.use (r : RequestedMember) : Option MemberUse :=
  match r.member.kind, r.storeOnly with
  | .scalar, false | .relation _, false => some .field
  | .relation _, true => some .stored
  | .map _, false => some .deferred
  | .scalar, true | .map _, true => none

namespace MemberUse

def Fits : MemberUse → MemberKind → Prop
  | field, kind => ∀ storage, kind ≠ .map storage
  | stored, kind => ∃ target, kind = .relation target
  | deferred, kind => ∃ storage, kind = .map storage

def Asked (fetch store : List Nat) (n : Nat) : MemberUse → Prop
  | field | deferred => n ∈ fetch
  | stored => n ∈ store ∧ n ∉ fetch

end MemberUse

theorem RequestedMember.use_eq_some_iff {r : RequestedMember} {u : MemberUse} :
    r.use = some u ↔ r.storeOnly = decide (u = .stored) ∧ u.Fits r.member.kind := by
  unfold use
  cases hkind : r.member.kind <;> cases hstore : r.storeOnly <;> cases u <;>
    simp [MemberUse.Fits]

namespace RequestedMember.IsListing

variable {chain : List ClassMapping} {rs : List RequestedMember} {storeOnly : Bool}
  {P : Nat → Prop} {u : MemberUse}

theorem filter_eq_nil (h : IsListing rs storeOnly P) (hu : storeOnly ≠ decide (u = .stored)) :
    (rs.filter fun r => r.use = some u) = [] := by
  refine List.filter_eq_nil_iff.mpr fun r hr huse => hu ?_
  rw [← h.storeOnly r hr]
  exact (use_eq_some_iff.mp (of_decide_eq_true huse)).1

theorem filter_sorted (h : IsListing rs storeOnly P) (u : MemberUse) :
    ((rs.filter fun r => r.use = some u).map (·.member.number)).Pairwise (· < ·) :=
  h.sorted.sublist (List.filter_sublist.map _)

theorem mem_filter (h : IsListing rs storeOnly P) (hu : storeOnly = decide (u = .stored))
    (hdeclared : ∀ r ∈ rs, Catalog.Declares chain r.member.number r.depth r.member) (n : Nat) :
    n ∈ (rs.filter fun r => r.use = some u).map (·.member.number) ↔
      P n ∧ ∃ depth m, Catalog.Declares chain n depth m ∧ u.Fits m.kind := by
  constructor
  · intro hn
    obtain ⟨r, hr, rfl⟩ := List.mem_map.mp hn
    obtain ⟨hr, huse⟩ := List.mem_filter.mp hr
    exact ⟨(h.mem_iff _).mp (List.mem_map_of_mem hr), r.depth, r.member, hdeclared r hr,
      (use_eq_some_iff.mp (of_decide_eq_true huse)).2⟩
  · rintro ⟨hn, depth, m, hm, hfits⟩
    obtain ⟨r, hr, rfl⟩ := List.mem_map.mp ((h.mem_iff n).mpr hn)
    obtain ⟨-, rfl⟩ := hm.unique (hdeclared r hr)
    have huse : r.use = some u := use_eq_some_iff.mpr ⟨(h.storeOnly r hr).trans hu, hfits⟩
    exact List.mem_map_of_mem (List.mem_filter.mpr ⟨hr, decide_eq_true huse⟩)

end RequestedMember.IsListing

/-- The members of a use are those that are asked for and fit it, in ascending order. -/
theorem FetchScope.members_of_use {c : Catalog} {className : String} {fetch store : List Nat}
    {s : FetchScope} {requested : List RequestedMember}
    (h : ofKey c (.ofLists className fetch store) = .ok (s, requested)) (u : MemberUse) :
    ((requested.filter fun r => r.use = some u).map (·.member.number)).Pairwise (· < ·) ∧
      ∀ n, n ∈ (requested.filter fun r => r.use = some u).map (·.member.number) ↔
        u.Asked fetch store n ∧ ∃ depth m, Catalog.Declares s.chain n depth m ∧ u.Fits m.kind := by
  have hdeclared := (ofKey_spec h).declared
  obtain ⟨fetched, stored, rfl, hfetched, hstored⟩ := ofKey_listings h
  rw [List.filter_append]
  cases hu : decide (u = .stored) with
  | false =>
    have hasked (n : Nat) : u.Asked fetch store n ↔ n ∈ fetch := by
      cases u <;> simp_all [MemberUse.Asked]
    rw [hstored.filter_eq_nil (by simp [hu]), List.append_nil]
    refine ⟨hfetched.filter_sorted u, fun n => ?_⟩
    rw [hasked, hfetched.mem_filter hu.symm fun r hr => hdeclared r (List.mem_append_left _ hr)]
  | true =>
    obtain rfl := of_decide_eq_true hu
    rw [hfetched.filter_eq_nil (by simp), List.nil_append]
    exact ⟨hstored.filter_sorted _, hstored.mem_filter hu.symm fun r hr =>
      hdeclared r (List.mem_append_right _ hr)⟩

end ObjectSql
