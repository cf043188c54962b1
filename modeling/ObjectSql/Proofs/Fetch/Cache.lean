import Mathlib.Data.Finset.Card
import Mathlib.Data.List.Sort
import ObjectSql.Fetch.Cache
import ObjectSql.Proofs.Fetch.Selection

/-!
# Calls of a cache

A key stands for a class and two sets of members, and compilation depends on nothing else of the lists
that are asked for. So a cache answers as if every request were compiled anew, and it holds one request
for each selection that compiled since it was cleared.
-/
namespace ObjectSql

/-! ## Keys as sets -/

namespace FetchKey

variable {k l : FetchKey} {className className' : String} {fetch store fetch' store' : List Nat}

/-- The class with the sets of members to fetch and to store. -/
def selection (k : FetchKey) : String × Finset Nat × Finset Nat :=
  (k.className, k.fetch.toFinset, k.store.toFinset)

structure IsSorted (k : FetchKey) : Prop where
  fetch : k.fetch.Pairwise (· < ·)
  store : k.store.Pairwise (· < ·)

theorem toFinset_memberSet (ns : List Nat) : (memberSet ns).toFinset = ns.toFinset := by
  ext n
  simp [mem_memberSet]

theorem eq_of_sorted {ms ns : List Nat} (hms : ms.Pairwise (· < ·)) (hns : ns.Pairwise (· < ·))
    (h : ms.toFinset = ns.toFinset) : ms = ns := by
  apply hms.eq_of_mem_iff hns
  intro n
  rw [← List.mem_toFinset, h, List.mem_toFinset]

theorem ofLists_isSorted (className : String) (fetch store : List Nat) :
    (ofLists className fetch store).IsSorted :=
  ⟨memberSet_sorted fetch, memberSet_sorted store⟩

theorem ofLists_selection (className : String) (fetch store : List Nat) :
    (ofLists className fetch store).selection = (className, fetch.toFinset, store.toFinset) := by
  simp only [selection, ofLists, toFinset_memberSet]

/-- Keys that select the same are the same key. -/
theorem IsSorted.eq_of_selection (hk : k.IsSorted) (hl : l.IsSorted)
    (h : k.selection = l.selection) : k = l := by
  obtain ⟨hclass, hfetch, hstore⟩ : k.className = l.className ∧
      k.fetch.toFinset = l.fetch.toFinset ∧ k.store.toFinset = l.store.toFinset := by
    simpa [selection] using h
  calc
    k = ⟨k.className, k.fetch, k.store⟩ := rfl
    _ = ⟨l.className, l.fetch, l.store⟩ := by
      rw [hclass, eq_of_sorted hk.fetch hl.fetch hfetch, eq_of_sorted hk.store hl.store hstore]

/-- Sorting a part of a list gives the part of the sorted list. -/
theorem memberSet_filter (P : Nat → Bool) (ns : List Nat) :
    memberSet (ns.filter P) = (memberSet ns).filter P := by
  apply eq_of_sorted (memberSet_sorted _) ((memberSet_sorted ns).filter P)
  ext n
  simp [mem_memberSet]

end FetchKey

/-! ## Lists of members -/

namespace FetchRequest

/-- Compiles the fetch of the listed members. Members to store are taken as a set once those that are
fetched have been left out. -/
def compileLists (c : Catalog) (p : Profile) (className : String) (fetch store : List Nat) :
    Except FetchError FetchRequest :=
  let fetched := FetchKey.memberSet fetch
  compile c p ⟨className, fetched, FetchKey.memberSet (store.filter fun n => !fetched.contains n)⟩

/-- Compilation reads the key with all members to store as it reads the lists. -/
theorem compileLists_eq (c : Catalog) (p : Profile) (className : String) (fetch store : List Nat) :
    compileLists c p className fetch store = compile c p (.ofLists className fetch store) := by
  have hstored : (FetchKey.memberSet (store.filter fun n =>
        !(FetchKey.memberSet fetch).contains n)).filter
          (fun n => !(FetchKey.memberSet fetch).contains n) =
      (FetchKey.memberSet store).filter fun n => !(FetchKey.memberSet fetch).contains n := by
    rw [FetchKey.memberSet_filter, List.filter_filter]
    simp only [Bool.and_self]
  simp only [compileLists, compile, FetchKey.ofLists, hstored]

end FetchRequest

/-! ## Runs of calls -/

inductive CacheCall where
  | request (className : String) (fetch store : List Nat)
  | clear

namespace CacheCall

def isRequest : CacheCall → Bool
  | request _ _ _ => true
  | clear => false

def compiled? (c : Catalog) (p : Profile) : CacheCall → Option (String × Finset Nat × Finset Nat)
  | request className fetch store =>
    (FetchRequest.compileLists c p className fetch store).toOption.map fun _ =>
      (className, fetch.toFinset, store.toFinset)
  | clear => none

def sinceClear (calls : List CacheCall) : List CacheCall := calls.reverse.takeWhile isRequest

theorem sinceClear_clear (calls : List CacheCall) : sinceClear (calls ++ [clear]) = [] := by
  rw [sinceClear, List.reverse_concat]
  rfl

theorem sinceClear_request (calls : List CacheCall) (className : String) (fetch store : List Nat) :
    sinceClear (calls ++ [request className fetch store]) =
      request className fetch store :: sinceClear calls := by
  rw [sinceClear, List.reverse_concat, List.takeWhile_cons_of_pos rfl]
  rfl

/-- The selections that compiled since the cache was cleared. -/
def selections (c : Catalog) (p : Profile) (calls : List CacheCall) :
    Finset (String × Finset Nat × Finset Nat) :=
  ((sinceClear calls).filterMap (compiled? c p)).toFinset

variable {c : Catalog} {p : Profile} {className : String} {fetch store : List Nat}

theorem selections_clear (c : Catalog) (p : Profile) (calls : List CacheCall) :
    selections c p (calls ++ [.clear]) = ∅ := by
  rw [selections, sinceClear_clear]
  rfl

theorem selections_error (calls : List CacheCall) {e : FetchError}
    (h : FetchRequest.compile c p (.ofLists className fetch store) = .error e) :
    selections c p (calls ++ [.request className fetch store]) = selections c p calls := by
  have hnone : compiled? c p (.request className fetch store) = none := by
    simp [compiled?, FetchRequest.compileLists_eq, h, Except.toOption]
  rw [selections, sinceClear_request, List.filterMap_cons_none hnone]
  rfl

theorem selections_ok (calls : List CacheCall) {r : FetchRequest}
    (h : FetchRequest.compile c p (.ofLists className fetch store) = .ok r) :
    selections c p (calls ++ [.request className fetch store]) =
      insert (FetchKey.ofLists className fetch store).selection (selections c p calls) := by
  have hsome : compiled? c p (.request className fetch store) =
      some (FetchKey.ofLists className fetch store).selection := by
    simp [compiled?, FetchRequest.compileLists_eq, h, Except.toOption, FetchKey.ofLists_selection]
  rw [selections, sinceClear_request, List.filterMap_cons_some hsome, List.toFinset_cons]
  rfl

end CacheCall

namespace FetchCache

variable {c : Catalog} {p : Profile} {cache : FetchCache} {key : FetchKey} {r : FetchRequest}
  {selections : Finset (String × Finset Nat × Finset Nat)}

def call (c : Catalog) (p : Profile) (cache : FetchCache) : CacheCall → FetchCache
  | .request className fetch store =>
    (cache.getOrCompile c p (.ofLists className fetch store)).2
  | .clear => cache.clear

def after (c : Catalog) (p : Profile) (calls : List CacheCall) : FetchCache :=
  calls.foldl (call c p) empty

theorem after_concat (c : Catalog) (p : Profile) (calls : List CacheCall) (next : CacheCall) :
    after c p (calls ++ [next]) = (after c p calls).call c p next :=
  List.foldl_concat ..

/-- The cache holds a compiled request for each of the selections and no other. -/
structure Holds (c : Catalog) (p : Profile) (cache : FetchCache)
    (selections : Finset (String × Finset Nat × Finset Nat)) : Prop where
  compiled : ∀ e ∈ cache.entries, FetchRequest.compile c p e.1 = .ok e.2
  sorted : ∀ e ∈ cache.entries, e.1.IsSorted
  nodup : (cache.entries.map fun e => e.1.selection).Nodup
  selections : (cache.entries.map fun e => e.1.selection).toFinset = selections

theorem mem_of_find? (h : cache.find? key = some r) : (key, r) ∈ cache.entries := by
  obtain ⟨before, after, hentries, -⟩ := List.lookup_eq_some_iff.mp h
  rw [hentries]
  exact List.mem_append_right _ List.mem_cons_self

theorem ne_of_find? (h : cache.find? key = none) : ∀ e ∈ cache.entries, e.1 ≠ key := by
  intro e he hkey
  have hne := List.lookup_eq_none_iff.mp h e he
  simp [hkey] at hne

namespace Holds

theorem empty (c : Catalog) (p : Profile) : Holds c p .empty ∅ where
  compiled e he := by cases he
  sorted e he := by cases he
  nodup := List.nodup_nil
  selections := rfl

theorem size (h : Holds c p cache selections) : cache.size = selections.card := by
  rw [← h.selections, List.toFinset_card_of_nodup h.nodup, List.length_map]
  rfl

/-- A new request is held beside the others. -/
theorem add (h : Holds c p cache selections) (hkey : key.IsSorted) (hnew : cache.find? key = none)
    (hr : FetchRequest.compile c p key = .ok r) :
    Holds c p ⟨cache.entries ++ [(key, r)]⟩ (insert key.selection selections) where
  compiled e he := by
    rcases List.mem_append.mp he with he | he
    · exact h.compiled e he
    · rw [List.mem_singleton.mp he]
      exact hr
  sorted e he := by
    rcases List.mem_append.mp he with he | he
    · exact h.sorted e he
    · rw [List.mem_singleton.mp he]
      exact hkey
  nodup := by
    rw [List.map_append, List.map_singleton, ← List.concat_eq_append]
    apply h.nodup.concat
    intro hmem
    obtain ⟨e, he, hselection⟩ := List.mem_map.mp hmem
    exact ne_of_find? hnew e he ((h.sorted e he).eq_of_selection hkey hselection)
  selections := by
    rw [List.map_append, List.toFinset_append, h.selections, Finset.union_comm]
    rfl

theorem mem_selections (h : Holds c p cache selections) (hfound : cache.find? key = some r) :
    key.selection ∈ selections := by
  rw [← h.selections, List.mem_toFinset]
  exact List.mem_map_of_mem (mem_of_find? hfound)

/-- A request is answered as it compiles. What the cache holds then includes it, and is the same as
before where it does not compile. -/
theorem getOrCompile (h : Holds c p cache selections) (hkey : key.IsSorted) :
    (∃ e, FetchRequest.compile c p key = .error e ∧
      cache.getOrCompile c p key = (.error e, cache)) ∨
    ∃ r, FetchRequest.compile c p key = .ok r ∧ (cache.getOrCompile c p key).1 = .ok r ∧
      Holds c p (cache.getOrCompile c p key).2 (insert key.selection selections) := by
  unfold FetchCache.getOrCompile
  cases hfound : cache.find? key with
  | some r =>
    refine .inr ⟨r, h.compiled _ (mem_of_find? hfound), rfl, ?_⟩
    rw [Finset.insert_eq_self.mpr (h.mem_selections hfound)]
    exact h
  | none =>
    cases hcompile : FetchRequest.compile c p key with
    | error e => exact .inl ⟨e, rfl, rfl⟩
    | ok r =>
      simp only [insertOrKeep, hfound]
      exact .inr ⟨r, rfl, rfl, h.add hkey hfound hcompile⟩

/-- One call keeps what the cache holds in step with the calls. -/
theorem call {calls : List CacheCall} (h : Holds c p cache (CacheCall.selections c p calls))
    (next : CacheCall) :
    Holds c p (cache.call c p next) (CacheCall.selections c p (calls ++ [next])) := by
  cases next with
  | clear =>
    rw [CacheCall.selections_clear]
    exact .empty c p
  | request className fetch store =>
    rcases h.getOrCompile (FetchKey.ofLists_isSorted className fetch store) with
      ⟨e, hcompile, hfails⟩ | ⟨r, hcompile, -, hholds⟩
    · rw [FetchCache.call, hfails, CacheCall.selections_error calls hcompile]
      exact h
    · rw [FetchCache.call, CacheCall.selections_ok calls hcompile]
      exact hholds

end Holds

theorem after_holds (c : Catalog) (p : Profile) (calls : List CacheCall) :
    Holds c p (after c p calls) (CacheCall.selections c p calls) := by
  induction calls using List.reverseRecOn with
  | nil => exact .empty c p
  | append_singleton calls next ih =>
    rw [after_concat]
    exact ih.call next

/-- After any calls, a request is answered just as it compiles, a request that does not compile leaves
the cache as it is, and the size of the cache is the number of selections that compiled since the last
time it was cleared. -/
theorem after_refines (c : Catalog) (p : Profile) (calls : List CacheCall) :
    (after c p calls).size = (CacheCall.selections c p calls).card ∧
      ∀ className fetch store,
        ((after c p calls).getOrCompile c p (.ofLists className fetch store)).1 =
            FetchRequest.compileLists c p className fetch store ∧
          ∀ e, FetchRequest.compileLists c p className fetch store = .error e →
            after c p (calls ++ [.request className fetch store]) = after c p calls := by
  have hholds := after_holds c p calls
  refine ⟨hholds.size, fun className fetch store => ?_⟩
  rw [FetchRequest.compileLists_eq, after_concat, call]
  rcases hholds.getOrCompile (FetchKey.ofLists_isSorted className fetch store) with
    ⟨e, hcompile, hfails⟩ | ⟨r, hcompile, hanswer, -⟩
  · rw [hcompile, hfails]
    exact ⟨rfl, fun _ _ => rfl⟩
  · rw [hcompile, hanswer]
    exact ⟨rfl, fun _ he => nomatch he⟩

end FetchCache

end ObjectSql
