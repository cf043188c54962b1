import ObjectSql.Proofs.Fetch.Cache

/-!
# A cache that is shared

A call looks its request up, compiles it from the catalog that it was given if it is not found, and
inserts it unless another call has done so. Calls take these steps in any order, and the cache may be
cleared between any two of them. What a call inserts after the cache was cleared may be compiled from
a catalog of before, so clearing helps exactly if no call is in progress that compiles something else.
-/
namespace ObjectSql

/-! ## Steps of calls -/

inductive CallProgress where
  | missed
  | compiled (r : FetchRequest)
  | returned (result : Except FetchError FetchRequest)

def CallProgress.rank : CallProgress → Nat
  | missed => 0
  | compiled _ => 1
  | returned _ => 2

structure CacheCaller where
  catalog : Catalog
  key : FetchKey
  progress : CallProgress

namespace CacheCaller

def lookUp (cache : FetchCache) (catalog : Catalog) (key : FetchKey) : CacheCaller :=
  match cache.find? key with
  | some r => ⟨catalog, key, .returned (.ok r)⟩
  | none => ⟨catalog, key, .missed⟩

def compile (p : Profile) (caller : CacheCaller) : CacheCaller :=
  match caller.progress with
  | .missed =>
    match FetchRequest.compile caller.catalog p caller.key with
    | .ok r => { caller with progress := .compiled r }
    | .error e => { caller with progress := .returned (.error e) }
  | _ => caller

def insert (cache : FetchCache) (caller : CacheCaller) : CacheCaller × FetchCache :=
  match caller.progress with
  | .compiled r =>
    let (kept, cache) := cache.insertOrKeep caller.key r
    ({ caller with progress := .returned (.ok kept) }, cache)
  | _ => (caller, cache)

end CacheCaller

inductive CacheStep where
  /-- A new call. -/
  | lookUp (catalog : Catalog) (key : FetchKey)
  | compile (caller : Nat)
  | insert (caller : Nat)
  | clear

structure SharedCache where
  cache : FetchCache
  /-- In the order in which they looked up their requests. -/
  callers : List CacheCaller

namespace SharedCache

def empty : SharedCache := ⟨.empty, []⟩

def advance (s : SharedCache) (i : Nat) (f : CacheCaller → CacheCaller × FetchCache) :
    SharedCache :=
  match s.callers[i]? with
  | some caller => ⟨(f caller).2, s.callers.set i (f caller).1⟩
  | none => s

/-- A step for which a call is not ready changes nothing. -/
def step (p : Profile) (s : SharedCache) : CacheStep → SharedCache
  | .lookUp catalog key => ⟨s.cache, s.callers ++ [.lookUp s.cache catalog key]⟩
  | .compile i => s.advance i fun caller => (caller.compile p, s.cache)
  | .insert i => s.advance i (CacheCaller.insert s.cache)
  | .clear => ⟨s.cache.clear, s.callers⟩

def run (p : Profile) (s : SharedCache) (steps : List CacheStep) : SharedCache :=
  steps.foldl (step p) s

end SharedCache

/-! ## What a step does -/

namespace CacheCaller

variable {p : Profile} {caller : CacheCaller} {cache : FetchCache} {r kept : FetchRequest}
  {e : FetchError}

theorem lookUp_found {c : Catalog} {key : FetchKey} (h : cache.find? key = some r) :
    lookUp cache c key = ⟨c, key, .returned (.ok r)⟩ := by
  rw [lookUp, h]

theorem lookUp_missed {c : Catalog} {key : FetchKey} (h : cache.find? key = none) :
    lookUp cache c key = ⟨c, key, .missed⟩ := by
  rw [lookUp, h]

theorem compile_ok (h : caller.progress = .missed)
    (hr : FetchRequest.compile caller.catalog p caller.key = .ok r) :
    caller.compile p = { caller with progress := .compiled r } := by
  simp only [compile, h, hr]

theorem compile_error (h : caller.progress = .missed)
    (he : FetchRequest.compile caller.catalog p caller.key = .error e) :
    caller.compile p = { caller with progress := .returned (.error e) } := by
  simp only [compile, h, he]

theorem compile_idle (h : caller.progress ≠ .missed) : caller.compile p = caller := by
  unfold compile
  split
  · contradiction
  · rfl

theorem insert_new (h : caller.progress = .compiled r) (hnew : cache.find? caller.key = none) :
    caller.insert cache =
      ({ caller with progress := .returned (.ok r) }, ⟨cache.entries ++ [(caller.key, r)]⟩) := by
  simp only [insert, h, FetchCache.insertOrKeep, hnew]

theorem insert_kept (h : caller.progress = .compiled r)
    (hkept : cache.find? caller.key = some kept) :
    caller.insert cache = ({ caller with progress := .returned (.ok kept) }, cache) := by
  simp only [insert, h, FetchCache.insertOrKeep, hkept]

theorem insert_idle (h : ∀ r, caller.progress ≠ .compiled r) :
    caller.insert cache = (caller, cache) := by
  unfold insert
  split
  · next r hr => exact absurd hr (h r)
  · rfl

/-- A call that is ready to compile has compiled or failed after the step. -/
theorem compile_cases (p : Profile) (caller : CacheCaller) :
    (∃ r, caller.progress = .missed ∧ FetchRequest.compile caller.catalog p caller.key = .ok r ∧
        caller.compile p = { caller with progress := .compiled r }) ∨
      (∃ e, caller.progress = .missed ∧
        FetchRequest.compile caller.catalog p caller.key = .error e ∧
        caller.compile p = { caller with progress := .returned (.error e) }) ∨
      caller.progress ≠ .missed ∧ caller.compile p = caller := by
  by_cases hmissed : caller.progress = .missed
  · cases hcompile : FetchRequest.compile caller.catalog p caller.key with
    | ok r => exact .inl ⟨r, hmissed, rfl, compile_ok hmissed hcompile⟩
    | error e => exact .inr (.inl ⟨e, hmissed, rfl, compile_error hmissed hcompile⟩)
  · exact .inr (.inr ⟨hmissed, compile_idle hmissed⟩)

/-- A call that is ready to insert returns what is found for its key after the step. -/
theorem insert_cases (cache : FetchCache) (caller : CacheCaller) :
    (∃ r, caller.progress = .compiled r ∧ cache.find? caller.key = none ∧
        caller.insert cache =
          ({ caller with progress := .returned (.ok r) }, ⟨cache.entries ++ [(caller.key, r)]⟩)) ∨
      (∃ r kept, caller.progress = .compiled r ∧ cache.find? caller.key = some kept ∧
        caller.insert cache = ({ caller with progress := .returned (.ok kept) }, cache)) ∨
      (∀ r, caller.progress ≠ .compiled r) ∧ caller.insert cache = (caller, cache) := by
  by_cases hready : ∃ r, caller.progress = .compiled r
  · obtain ⟨r, hr⟩ := hready
    cases hfound : cache.find? caller.key with
    | none => exact .inl ⟨r, hr, rfl, insert_new hr hfound⟩
    | some kept => exact .inr (.inl ⟨r, kept, hr, rfl, insert_kept hr hfound⟩)
  · have hready := not_exists.mp hready
    exact .inr (.inr ⟨hready, insert_idle hready⟩)

end CacheCaller

theorem FetchCache.find?_concat {cache : FetchCache} {key k : FetchKey} (r : FetchRequest)
    (h : cache.find? k = none) :
    (FetchCache.mk (cache.entries ++ [(k, r)])).find? key =
      if key = k then some r else cache.find? key := by
  unfold FetchCache.find? at h ⊢
  rw [List.lookup_append]
  by_cases hkey : key = k
  · subst hkey
    simp [h]
  · have hne : (key == k) = false := beq_eq_false_iff_ne.mpr hkey
    simp [List.lookup_cons, hne, hkey]

namespace SharedCache

variable {p : Profile} {s : SharedCache} {i : Nat} {f : CacheCaller → CacheCaller × FetchCache}
  {caller : CacheCaller}

theorem run_cons (p : Profile) (s : SharedCache) (a : CacheStep) (steps : List CacheStep) :
    run p s (a :: steps) = run p (s.step p a) steps := rfl

theorem run_append (p : Profile) (s : SharedCache) (before after : List CacheStep) :
    run p s (before ++ after) = run p (run p s before) after :=
  List.foldl_append ..

theorem advance_some (h : s.callers[i]? = some caller) :
    s.advance i f = ⟨(f caller).2, s.callers.set i (f caller).1⟩ := by
  rw [advance, h]

theorem advance_none (h : s.callers[i]? = none) : s.advance i f = s := by
  rw [advance, h]

/-- A call that takes its steps at once is an ordinary call of the cache. -/
theorem run_call (p : Profile) (s : SharedCache) (c : Catalog) (key : FetchKey) :
    run p s [.lookUp c key, .compile s.callers.length, .insert s.callers.length] =
      ⟨(s.cache.getOrCompile c p key).2,
        s.callers ++ [⟨c, key, .returned (s.cache.getOrCompile c p key).1⟩]⟩ := by
  unfold FetchCache.getOrCompile
  cases hfound : s.cache.find? key with
  | some r =>
    simp [run, step, advance, CacheCaller.lookUp_found hfound, CacheCaller.compile,
      CacheCaller.insert]
  | none =>
    cases hcompile : FetchRequest.compile c p key with
    | error e =>
      simp [run, step, advance, CacheCaller.lookUp_missed hfound, CacheCaller.compile, hcompile,
        CacheCaller.insert]
    | ok r =>
      simp [run, step, advance, CacheCaller.lookUp_missed hfound, CacheCaller.compile, hcompile,
        CacheCaller.insert, FetchCache.insertOrKeep, hfound]

theorem forall_concat {P : Nat → CacheCaller → Prop} {callers : List CacheCaller}
    (h : ∀ i caller, callers[i]? = some caller → P i caller) (hnew : P callers.length caller) :
    ∀ i other, (callers ++ [caller])[i]? = some other → P i other := by
  intro i other hi
  rcases Nat.lt_trichotomy i callers.length with hlt | rfl | hgt
  · rw [List.getElem?_append_left hlt] at hi
    exact h i other hi
  · rw [List.getElem?_concat_length] at hi
    rwa [← Option.some.inj hi]
  · rw [List.getElem?_eq_none (by simp; omega)] at hi
    cases hi

theorem forall_set {P : Nat → CacheCaller → Prop} {callers : List CacheCaller}
    (h : ∀ i caller, callers[i]? = some caller → P i caller) (hnew : P i caller) :
    ∀ j other, (callers.set i caller)[j]? = some other → P j other := by
  intro j other hj
  rw [List.getElem?_set] at hj
  split at hj
  · next hij =>
    subst hij
    split at hj
    · rwa [← Option.some.inj hj]
    · cases hj
  · exact h j other hj

/-- What holds of all calls goes on to hold if it holds of new calls and every step of a call keeps
it. -/
theorem step_callers {P : Nat → CacheCaller → Prop} {a : CacheStep}
    (h : ∀ i caller, s.callers[i]? = some caller → P i caller)
    (hlookUp : ∀ c key, a = .lookUp c key → P s.callers.length (.lookUp s.cache c key))
    (hcompile : ∀ i caller, P i caller → P i (caller.compile p))
    (hinsert : ∀ i caller, P i caller → P i (caller.insert s.cache).1) :
    ∀ i caller, (s.step p a).callers[i]? = some caller → P i caller := by
  have hadvance (i : Nat) {f : CacheCaller → CacheCaller × FetchCache}
      (hf : ∀ caller, P i caller → P i (f caller).1) :
      ∀ j other, (s.advance i f).callers[j]? = some other → P j other := by
    cases hi : s.callers[i]? with
    | none =>
      rw [advance_none hi]
      exact h
    | some caller =>
      rw [advance_some hi]
      exact forall_set h (hf caller (h i caller hi))
  cases a with
  | clear => exact h
  | lookUp c key => exact forall_concat h (hlookUp c key rfl)
  | compile i => exact hadvance i (hcompile i)
  | insert i => exact hadvance i (hinsert i)

end SharedCache

/-! ## Calls return -/

namespace CacheCaller

theorem rank_compile (p : Profile) (caller : CacheCaller) :
    caller.progress.rank ≤ (caller.compile p).progress.rank ∧
      1 ≤ (caller.compile p).progress.rank := by
  rcases caller.compile_cases p with ⟨r, hmissed, -, heq⟩ | ⟨e, hmissed, -, heq⟩ | ⟨hne, heq⟩
  · simp [heq, hmissed, CallProgress.rank]
  · simp [heq, hmissed, CallProgress.rank]
  · rw [heq]
    refine ⟨Nat.le_refl _, ?_⟩
    cases hprogress : caller.progress with
    | missed => exact absurd hprogress hne
    | compiled r => exact Nat.le_refl 1
    | returned result => exact Nat.le_succ 1

theorem rank_insert (cache : FetchCache) (caller : CacheCaller) :
    caller.progress.rank ≤ (caller.insert cache).1.progress.rank ∧
      (1 ≤ caller.progress.rank → 2 ≤ (caller.insert cache).1.progress.rank) := by
  cases hprogress : caller.progress <;> simp [insert, hprogress, CallProgress.rank]

end CacheCaller

namespace SharedCache

variable {p : Profile} {s : SharedCache} {i n : Nat}

def Reaches (s : SharedCache) (i n : Nat) : Prop :=
  ∃ caller, s.callers[i]? = some caller ∧ n ≤ caller.progress.rank

/-- A step of a call takes it from one rank to another and leaves the other calls alone. -/
theorem Reaches.advance {m : Nat} {j : Nat} {f : CacheCaller → CacheCaller × FetchCache}
    (h : s.Reaches i m) (hmn : i ≠ j → n ≤ m)
    (hf : ∀ caller, m ≤ caller.progress.rank → n ≤ (f caller).1.progress.rank) :
    (s.advance j f).Reaches i n := by
  obtain ⟨caller, hi, hrank⟩ := h
  cases hj : s.callers[j]? with
  | none =>
    rw [advance_none hj]
    refine ⟨caller, hi, (hmn ?_).trans hrank⟩
    rintro rfl
    cases hi.symm.trans hj
  | some other =>
    rw [advance_some hj]
    by_cases hij : j = i
    · subst hij
      obtain rfl : caller = other := Option.some.inj (hi.symm.trans hj)
      exact ⟨_, List.getElem?_set_self (List.getElem?_eq_some_iff.mp hi).1, hf caller hrank⟩
    · exact ⟨caller, (List.getElem?_set_ne hij).trans hi, (hmn (Ne.symm hij)).trans hrank⟩

theorem Reaches.step (h : s.Reaches i n) (a : CacheStep) : (s.step p a).Reaches i n := by
  cases a with
  | clear => exact h
  | lookUp c key =>
    obtain ⟨caller, hi, hrank⟩ := h
    have hlt : i < s.callers.length := (List.getElem?_eq_some_iff.mp hi).1
    exact ⟨caller, (List.getElem?_append_left hlt).trans hi, hrank⟩
  | compile j =>
    apply h.advance fun _ => Nat.le_refl n
    exact fun caller hrank => hrank.trans (caller.rank_compile p).1
  | insert j =>
    apply h.advance fun _ => Nat.le_refl n
    exact fun caller hrank => hrank.trans (caller.rank_insert s.cache).1

theorem Reaches.run (h : s.Reaches i n) (steps : List CacheStep) : (run p s steps).Reaches i n := by
  induction steps generalizing s with
  | nil => exact h
  | cons a steps ih => exact ih (h.step a)

theorem Reaches.compile (h : s.Reaches i 0) : (s.step p (.compile i)).Reaches i 1 :=
  h.advance (fun hne => absurd rfl hne) fun caller _ => (caller.rank_compile p).2

theorem Reaches.insert (h : s.Reaches i 1) : (s.step p (.insert i)).Reaches i 2 :=
  h.advance (fun hne => absurd rfl hne) fun caller => (caller.rank_insert s.cache).2

/-- A call has returned once it has taken its steps, whatever other calls do in between. -/
theorem run_returns (p : Profile) (hi : i < s.callers.length) {steps : List CacheStep}
    (hsteps : [CacheStep.compile i, .insert i].Sublist steps) : (run p s steps).Reaches i 2 := by
  obtain ⟨first, rest, rfl, hcompile, hrest⟩ := List.cons_sublist_iff.mp hsteps
  obtain ⟨before, between, rfl⟩ := List.append_of_mem hcompile
  obtain ⟨between', after, rfl⟩ := List.append_of_mem (List.singleton_sublist.mp hrest)
  have hbegun : s.Reaches i 0 := ⟨s.callers[i], List.getElem?_eq_getElem hi, Nat.zero_le _⟩
  simp only [run_append, run_cons]
  exact ((((hbegun.run before).compile.run between).run between').insert).run after

end SharedCache

/-! ## Calls after the cache was cleared -/

def CacheStep.Gives (c : Catalog) : CacheStep → Prop
  | lookUp catalog _ => catalog = c
  | _ => True

/-- What is found for a key is what compiles from a catalog. -/
def FetchCache.IsSound (p : Profile) (c : Catalog) (key : FetchKey) (cache : FetchCache) : Prop :=
  ∀ r, cache.find? key = some r → FetchRequest.compile c p key = .ok r

def CacheCaller.IsHonest (p : Profile) (caller : CacheCaller) : Prop :=
  ∀ r, caller.progress = .compiled r → FetchRequest.compile caller.catalog p caller.key = .ok r

/-- As long as a call is in progress, what it compiles for a key is what compiles from a catalog. If
it began after the cache was cleared, it is given that catalog and returns what compiles. -/
structure CacheCaller.IsSound (p : Profile) (c : Catalog) (key : FetchKey) (begun : Prop)
    (caller : CacheCaller) : Prop where
  honest : caller.IsHonest p
  catalog : begun → caller.catalog = c
  pending : caller.key = key → caller.progress.rank < 2 →
    ∀ r, FetchRequest.compile caller.catalog p key = .ok r → FetchRequest.compile c p key = .ok r
  returned : begun → caller.key = key → ∀ result, caller.progress = .returned result →
    result = FetchRequest.compile c p key

namespace CacheCaller

variable {p : Profile} {c : Catalog} {key : FetchKey} {begun : Prop} {caller : CacheCaller}
  {cache : FetchCache}

theorem lookUp_isHonest (p : Profile) (cache : FetchCache) (c : Catalog) (key : FetchKey) :
    (lookUp cache c key).IsHonest p := by
  intro r hr
  unfold lookUp at hr
  split at hr <;> cases hr

theorem IsHonest.compile (h : caller.IsHonest p) : (caller.compile p).IsHonest p := by
  rcases caller.compile_cases p with ⟨r, -, hr, heq⟩ | ⟨e, -, -, heq⟩ | ⟨-, heq⟩
  · rw [heq]
    rintro _ ⟨rfl⟩
    exact hr
  · rw [heq]
    rintro _ ⟨⟩
  · rwa [heq]

theorem IsHonest.insert (h : caller.IsHonest p) (cache : FetchCache) :
    (caller.insert cache).1.IsHonest p := by
  rcases caller.insert_cases cache with ⟨r, -, -, heq⟩ | ⟨r, kept, -, -, heq⟩ | ⟨-, heq⟩
  · rw [heq]
    rintro _ ⟨⟩
  · rw [heq]
    rintro _ ⟨⟩
  · rwa [heq]

theorem lookUp_isSound (hcache : cache.IsSound p c key) (k : FetchKey) :
    (lookUp cache c k).IsSound p c key begun := by
  have hhonest := lookUp_isHonest p cache c k
  cases hfound : cache.find? k with
  | some r =>
    rw [lookUp_found hfound] at hhonest ⊢
    refine ⟨hhonest, fun _ => rfl, fun _ _ _ hr => hr, ?_⟩
    rintro - rfl _ ⟨⟩
    exact (hcache r hfound).symm
  | none =>
    rw [lookUp_missed hfound] at hhonest ⊢
    exact ⟨hhonest, fun _ => rfl, fun _ _ _ hr => hr, fun _ _ _ h => nomatch h⟩

theorem IsSound.compile (h : caller.IsSound p c key begun) :
    (caller.compile p).IsSound p c key begun := by
  have hhonest := h.honest.compile
  rcases caller.compile_cases p with ⟨r, hmissed, -, heq⟩ | ⟨e, hmissed, he, heq⟩ | ⟨-, heq⟩
  · rw [heq] at hhonest ⊢
    refine ⟨hhonest, h.catalog, fun hkey _ => h.pending hkey ?_, fun _ _ _ hr => nomatch hr⟩
    simp [hmissed, CallProgress.rank]
  · rw [heq] at hhonest ⊢
    refine ⟨hhonest, h.catalog, fun _ hlt => absurd hlt (Nat.lt_irrefl 2), ?_⟩
    rintro hbegun rfl _ ⟨⟩
    rw [← h.catalog hbegun, he]
  · rwa [heq]

/-- A call that inserts its request leaves a sound cache, from which it returns. -/
theorem IsSound.insert (h : caller.IsSound p c key begun) (hcache : cache.IsSound p c key) :
    (caller.insert cache).1.IsSound p c key begun ∧ (caller.insert cache).2.IsSound p c key := by
  have hhonest := h.honest.insert cache
  rcases caller.insert_cases cache with
    ⟨r, hr, hnew, heq⟩ | ⟨r, kept, hr, hkept, heq⟩ | ⟨-, heq⟩
  · have hcompiles : caller.key = key → FetchRequest.compile c p key = .ok r := by
      rintro rfl
      exact h.pending rfl (by simp [hr, CallProgress.rank]) r (h.honest r hr)
    rw [heq] at hhonest ⊢
    refine ⟨⟨hhonest, h.catalog, fun _ hlt => absurd hlt (Nat.lt_irrefl 2), ?_⟩, fun r' hr' => ?_⟩
    · rintro - hkey _ ⟨⟩
      exact (hcompiles hkey).symm
    · rw [FetchCache.find?_concat r hnew] at hr'
      split at hr'
      · next hkey =>
        rw [← Option.some.inj hr']
        exact hcompiles hkey.symm
      · exact hcache r' hr'
  · rw [heq] at hhonest ⊢
    refine ⟨⟨hhonest, h.catalog, fun _ hlt => absurd hlt (Nat.lt_irrefl 2), ?_⟩, hcache⟩
    rintro - rfl _ ⟨⟩
    exact (hcache kept hkept).symm
  · rw [heq]
    exact ⟨h, hcache⟩

end CacheCaller

namespace SharedCache

variable {p : Profile} {s : SharedCache} {c : Catalog} {key : FetchKey} {n : Nat}

/-- The cache and all calls are sound, of which those from a number on began after the cache was
cleared. -/
structure IsSound (p : Profile) (c : Catalog) (key : FetchKey) (n : Nat) (s : SharedCache) : Prop where
  cache : s.cache.IsSound p c key
  callers : ∀ (i : Nat) (caller : CacheCaller), s.callers[i]? = some caller →
    caller.IsSound p c key (n ≤ i)

theorem IsSound.step (h : s.IsSound p c key n) {a : CacheStep} (ha : a.Gives c) :
    (s.step p a).IsSound p c key n where
  cache := by
    cases a with
    | clear => exact fun r hr => nomatch hr
    | lookUp c' k => exact h.cache
    | compile i =>
      cases hi : s.callers[i]? with
      | none => rw [SharedCache.step, advance_none hi]; exact h.cache
      | some caller => rw [SharedCache.step, advance_some hi]; exact h.cache
    | insert i =>
      cases hi : s.callers[i]? with
      | none => rw [SharedCache.step, advance_none hi]; exact h.cache
      | some caller =>
        rw [SharedCache.step, advance_some hi]
        exact ((h.callers i caller hi).insert h.cache).2
  callers := by
    apply step_callers h.callers
    · rintro c' k rfl
      obtain rfl : c' = c := ha
      exact CacheCaller.lookUp_isSound h.cache k
    · exact fun i caller hcaller => hcaller.compile
    · exact fun i caller hcaller => (hcaller.insert h.cache).1

theorem IsSound.run (h : s.IsSound p c key n) {steps : List CacheStep}
    (hsteps : ∀ a ∈ steps, a.Gives c) : (run p s steps).IsSound p c key n := by
  induction steps generalizing s with
  | nil => exact h
  | cons a steps ih =>
    obtain ⟨ha, hsteps⟩ := List.forall_mem_cons.mp hsteps
    exact ih (h.step ha) hsteps

theorem run_isHonest (p : Profile) (steps : List CacheStep) {i : Nat} {caller : CacheCaller}
    (hi : (run p empty steps).callers[i]? = some caller) : caller.IsHonest p := by
  induction steps using List.reverseRecOn generalizing i caller with
  | nil => cases hi
  | append_singleton steps a ih =>
    rw [run_append] at hi
    exact step_callers (P := fun _ caller => caller.IsHonest p) (fun _ _ h => ih h)
      (fun c key _ => CacheCaller.lookUp_isHonest p _ c key) (fun _ _ h => h.compile)
      (fun _ _ h => h.insert _) i caller hi

def cleared (p : Profile) (before : List CacheStep) : SharedCache :=
  (run p empty before).step p .clear

/-- Every call for a key that begins after the cache was cleared returns just what compiles from a
catalog, provided that all calls that begin after it are given the catalog. -/
def FreshAfter (p : Profile) (before : List CacheStep) (c : Catalog) (key : FetchKey) : Prop :=
  ∀ after : List CacheStep, (∀ a ∈ after, a.Gives c) →
    ∀ i caller, (run p (cleared p before) after).callers[i]? = some caller →
      (cleared p before).callers.length ≤ i → caller.key = key →
        ∀ result, caller.progress = .returned result → result = FetchRequest.compile c p key

variable {before : List CacheStep}

theorem freshAfter_of_pending
    (h : ∀ caller ∈ (run p empty before).callers, caller.key = key → caller.progress.rank < 2 →
      ∀ r, FetchRequest.compile caller.catalog p key = .ok r →
        FetchRequest.compile c p key = .ok r) : FreshAfter p before c key := by
  have hcleared : (cleared p before).IsSound p c key (cleared p before).callers.length := by
    refine ⟨fun r hr => (nomatch hr), fun i caller hi => ?_⟩
    have hlt : i < (cleared p before).callers.length := (List.getElem?_eq_some_iff.mp hi).1
    exact ⟨run_isHonest p before hi, fun hle => absurd hle (Nat.not_le.mpr hlt),
      h caller (List.mem_of_getElem? hi), fun hle => absurd hle (Nat.not_le.mpr hlt)⟩
  intro after hafter i caller hi hbegun hkey result hresult
  exact ((hcleared.run hafter).callers i caller hi).returned hbegun hkey result hresult

/-- A call in progress puts what it compiles into the cleared cache, and the next call for its key
returns it. -/
theorem run_leaks {i : Nat} {caller : CacheCaller} {r : FetchRequest} (hempty : s.cache = .empty)
    (hi : s.callers[i]? = some caller) (hhonest : caller.IsHonest p)
    (hpending : caller.progress.rank < 2)
    (hr : FetchRequest.compile caller.catalog p caller.key = .ok r) (c : Catalog) :
    (run p s [.compile i, .insert i, .lookUp c caller.key]).callers[s.callers.length]? =
      some ⟨c, caller.key, .returned (.ok r)⟩ := by
  have hlt : i < s.callers.length := (List.getElem?_eq_some_iff.mp hi).1
  have hcompiled : caller.compile p = { caller with progress := .compiled r } := by
    cases hprogress : caller.progress with
    | missed => exact CacheCaller.compile_ok hprogress hr
    | compiled r' =>
      have hr' := hhonest r' hprogress
      obtain rfl : r = r' := Except.ok.inj (hr.symm.trans hr')
      rw [CacheCaller.compile_idle (by simp [hprogress]), ← hprogress]
    | returned result => simp [hprogress, CallProgress.rank] at hpending
  let compiled : CacheCaller := { caller with progress := .compiled r }
  have hcompile : s.step p (.compile i) = ⟨s.cache, s.callers.set i compiled⟩ := by
    rw [step, advance_some hi, hcompiled]
  have hnew : s.cache.find? compiled.key = none := by
    rw [hempty]
    rfl
  have hinsert : step p ⟨s.cache, s.callers.set i compiled⟩ (.insert i) =
      ⟨⟨s.cache.entries ++ [(caller.key, r)]⟩,
        (s.callers.set i compiled).set i { caller with progress := .returned (.ok r) }⟩ := by
    rw [step, advance_some (List.getElem?_set_self hlt), CacheCaller.insert_new rfl hnew]
  have hfound : (FetchCache.mk (s.cache.entries ++ [(caller.key, r)])).find? caller.key = some r := by
    rw [FetchCache.find?_concat r hnew]
    exact if_pos rfl
  rw [run_cons, hcompile, run_cons, hinsert, run_cons, step, CacheCaller.lookUp_found hfound]
  simp [run]

/-- If every call after the cache was cleared returns what compiles, then so do all calls in progress
when it was cleared. -/
theorem FreshAfter.pending (h : FreshAfter p before c key) {caller : CacheCaller}
    (hcaller : caller ∈ (run p empty before).callers) (hkey : caller.key = key)
    (hpending : caller.progress.rank < 2) {r : FetchRequest}
    (hr : FetchRequest.compile caller.catalog p key = .ok r) :
    FetchRequest.compile c p key = .ok r := by
  subst hkey
  obtain ⟨i, hi⟩ := List.mem_iff_getElem?.mp hcaller
  have hleak := run_leaks (s := cleared p before) rfl hi (run_isHonest p before hi) hpending hr c
  refine (h _ ?_ _ _ hleak (Nat.le_refl _) rfl _ rfl).symm
  simp [CacheStep.Gives]

/-- Calls return once they have taken their steps. Those that begin after the cache was cleared, and
are all given one catalog, return what compiles from it exactly if this is also what every call for
the key compiles that is in progress when the cache is cleared. -/
theorem freshAfter_iff (p : Profile) (before : List CacheStep) (c : Catalog) (key : FetchKey) :
    (∀ (s : SharedCache) (i : Nat) (steps : List CacheStep), i < s.callers.length →
        [CacheStep.compile i, .insert i].Sublist steps →
          ∃ caller result, (run p s steps).callers[i]? = some caller ∧
            caller.progress = .returned result) ∧
      (FreshAfter p before c key ↔
        ∀ caller ∈ (run p empty before).callers, caller.key = key → caller.progress.rank < 2 →
          ∀ r, FetchRequest.compile caller.catalog p key = .ok r →
            FetchRequest.compile c p key = .ok r) := by
  refine ⟨fun s i steps hi hsteps => ?_, ?_, freshAfter_of_pending⟩
  · obtain ⟨caller, hcaller, hrank⟩ := run_returns p hi hsteps
    cases hprogress : caller.progress with
    | missed => simp [hprogress, CallProgress.rank] at hrank
    | compiled r => simp [hprogress, CallProgress.rank] at hrank
    | returned result => exact ⟨caller, result, hcaller, hprogress⟩
  · intro h caller hcaller hkey hpending r hr
    exact h.pending hcaller hkey hpending hr

end SharedCache

def notesIn (table : String) : Catalog := ⟨[{
  name := "Note"
  table := ⟨table, none, none, none, none⟩
  superclass := none
  isAbstract := false
  identity := some (.surrogate "ID" "i64")
  members := [⟨1, "text", ["TEXT"], "string", .scalar, none⟩] }]⟩

/-- A note is looked up before its table is replaced and the cache is cleared, and compiled after
that. Whoever asks for a note then is given the request for the old table. -/
theorem SharedCache.clear_keeps_pending :
    ¬∀ (p : Profile) (before : List CacheStep) (c : Catalog) (key : FetchKey),
      FreshAfter p before c key := by
  intro h
  let p := Profile.ofVendor .mysql ⟨8, 0, 0⟩
  let key := FetchKey.ofLists "Note" [1] []
  have hold : (FetchRequest.compile (notesIn "NOTE") p key).toOption.any fun r =>
      r.table = "NOTE" := by decide +kernel
  have hnew : (FetchRequest.compile (notesIn "MEMO") p key).toOption.any fun r =>
      r.table = "MEMO" := by decide +kernel
  obtain ⟨r, hr, htable⟩ := Except.exists_of_any hold
  obtain ⟨r', hr', htable'⟩ := Except.exists_of_any hnew
  have hstale := (h p [.lookUp (notesIn "NOTE") key] (notesIn "MEMO") key).pending
    List.mem_cons_self rfl (by decide) hr
  cases hr'.symm.trans hstale
  simp_all

end ObjectSql
