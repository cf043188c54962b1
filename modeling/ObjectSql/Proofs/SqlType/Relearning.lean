import Mathlib.Data.List.Induction
import ObjectSql.Proofs.SqlType.Learning

/-!
# Learning the same reports again

What a table has just learned brings it no candidate, and under each name it has the driver type that was
reported last. So the same reports leave its candidates and driver types as they are. Whether something
was new is told report by report, though, and of two types under one name each was replaced by the other:
the version stays exactly if no name was reported for two types.
-/
namespace ObjectSql

open Text

/-! ## Driver types by name -/

namespace SqlType

def key (s : SqlType) : String := asciiUpper s.name

/-- Driver types after one more was recorded in place of what had its name. -/
def recordIn (s : SqlType) (known : List (String × SqlType)) : List (String × SqlType) :=
  (s.key, s) :: known.filter fun d => d.1 != s.key

def recordEach (types : List SqlType) (known : List (String × SqlType)) : List (String × SqlType) :=
  types.foldl (fun known s => s.recordIn known) known

variable {s : SqlType} {types : List SqlType} {known : List (String × SqlType)}

theorem lookup_filter_ne {name key : String} (h : name ≠ key) (known : List (String × SqlType)) :
    (known.filter fun d => d.1 != key).lookup name = known.lookup name := by
  induction known with
  | nil => rfl
  | cons d known ih =>
    obtain ⟨k, s⟩ := d
    by_cases hk : k = key
    · have hskip : (name == k) = false := beq_false_of_ne (hk ▸ h)
      rw [List.filter_cons_of_neg (by simp [hk]), List.lookup_cons, hskip, ih]
    · rw [List.filter_cons_of_pos (by simp [hk]), List.lookup_cons, List.lookup_cons, ih]

theorem lookup_recordIn (s : SqlType) (known : List (String × SqlType)) (name : String) :
    (s.recordIn known).lookup name = if name = s.key then some s else known.lookup name := by
  rw [recordIn, List.lookup_cons]
  by_cases hname : name = s.key
  · simp [hname]
  · rw [if_neg hname, beq_false_of_ne hname, lookup_filter_ne hname]

theorem recordEach_concat (types : List SqlType) (s : SqlType) (known : List (String × SqlType)) :
    recordEach (types ++ [s]) known = s.recordIn (recordEach types known) := by
  rw [recordEach, List.foldl_append]
  rfl

/-- Recorded types stand in front of those whose names were not recorded. -/
theorem recordEach_eq (types : List SqlType) (known : List (String × SqlType)) :
    recordEach types known =
      recordEach types [] ++ known.filter fun d => types.all fun s => d.1 != s.key := by
  induction types using List.reverseRecOn with
  | nil => simp [recordEach]
  | append_singleton types s ih =>
    rw [recordEach_concat, recordEach_concat, ih]
    simp [recordIn, List.filter_append, List.filter_filter, Bool.and_comm]

theorem key_of_mem_recordEach {d : String × SqlType} (h : d ∈ recordEach types []) :
    ∃ s ∈ types, d.1 = s.key := by
  induction types using List.reverseRecOn with
  | nil => cases h
  | append_singleton types s ih =>
    rw [recordEach_concat, recordIn, List.mem_cons] at h
    rcases h with rfl | h
    · exact ⟨s, by simp, rfl⟩
    · obtain ⟨s', hs', heq⟩ := ih (List.mem_of_mem_filter h)
      exact ⟨s', List.mem_append_left _ hs', heq⟩

/-- Types that are recorded once more take the places that they have. -/
theorem recordEach_recordEach (types : List SqlType) (known : List (String × SqlType)) :
    recordEach types (recordEach types known) = recordEach types known := by
  have hold : (recordEach types []).filter (fun d => types.all fun s => d.1 != s.key) = [] := by
    rw [List.filter_eq_nil_iff]
    intro d hd hall
    obtain ⟨s, hs, heq⟩ := key_of_mem_recordEach hd
    simpa [heq] using List.all_eq_true.mp hall s hs
  rw [recordEach_eq types (recordEach types known), recordEach_eq types known, List.filter_append,
    hold, List.nil_append, List.filter_filter]
  simp

/-- A name that was recorded is that of the type that was recorded last under it. -/
theorem exists_lookup_recordEach (known : List (String × SqlType)) (h : s ∈ types) :
    ∃ s' ∈ types, s'.key = s.key ∧ (recordEach types known).lookup s.key = some s' := by
  induction types using List.reverseRecOn with
  | nil => cases h
  | append_singleton types last ih =>
    rw [recordEach_concat, lookup_recordIn]
    by_cases hlast : s.key = last.key
    · exact ⟨last, by simp, hlast.symm, if_pos hlast⟩
    · have hs : s ∈ types := by
        rcases List.mem_append.mp h with hs | hs
        · exact hs
        · exact absurd (congrArg key (List.mem_singleton.mp hs)) hlast
      obtain ⟨s', hs', hkey, hlookup⟩ := ih hs
      exact ⟨s', List.mem_append_left _ hs', hkey, by rw [if_neg hlast, hlookup]⟩

end SqlType

/-! ## Entries that know a type -/

namespace TypeEntry

variable {e e' : TypeEntry} {s : SqlType}

theorem Extends.default?_eq (h : e.Extends e') : e'.default? = e.default? := by
  obtain ⟨-, learned, heq, hlearned⟩ := h
  have hnone : learned.find? TypeCandidate.isDefault = none :=
    List.find?_eq_none.mpr fun c hc => by simp [(hlearned c hc).1]
  rw [TypeEntry.default?, heq, List.find?_append, hnone, Option.or_none]
  rfl

theorem Extends.takes_eq_false (h : e.Extends e') (hs : e.takes s = false) : e'.takes s = false := by
  obtain ⟨learned, heq, -⟩ := h.candidates
  rw [takes, h.default?_eq, heq, List.any_append]
  rw [takes, Bool.and_eq_false_iff] at hs
  rcases hs with hcode | hnamed
  · rw [hcode, Bool.false_and]
  · rw [Bool.not_eq_false'] at hnamed
    rw [hnamed, Bool.true_or, Bool.not_true, Bool.and_false]

theorem takes_learn (e : TypeEntry) (hs : trim s.name = s.name) : (e.learn s).takes s = false := by
  by_cases htakes : e.takes s
  · have hname : s.hasName s.name := by simp [SqlType.hasName, hs, sameIgnoringCase]
    rw [learn, if_pos htakes, takes]
    simp [hname]
  · rw [learn, if_neg htakes]
    simpa using htakes

theorem learn_of_takes_eq_false (h : e.takes s = false) : e.learn s = e := by
  rw [learn, h]
  rfl

end TypeEntry

/-! ## Tables that know a type -/

namespace TypeTable

attribute [ext] TypeTable

variable {t t' : TypeTable} {s : SqlType} {reported : List DriverType}

/-- No logical type takes the type as a candidate. -/
def Knows (t : TypeTable) (s : SqlType) : Prop := ∀ e ∈ t.entries, e.takes s = false

theorem Extends.knows (h : t.Extends t') (hs : t.Knows s) : t'.Knows s := by
  unfold Extends at h
  unfold Knows at hs ⊢
  generalize t.entries = es, t'.entries = es' at h hs ⊢
  induction h with
  | nil => exact hs
  | cons he _ ih =>
    rw [List.forall_mem_cons] at hs ⊢
    exact ⟨he.takes_eq_false hs.1, ih hs.2⟩

theorem knows_record (t : TypeTable) (hs : trim s.name = s.name) : (t.record s).Knows s :=
  List.forall_mem_map.mpr fun e _ => e.takes_learn hs

theorem knows_recordAll {raw : DriverType} (h : raw ∈ reported) :
    (t.recordAll reported).1.Knows (raw.normalized t.vendor) := by
  induction reported generalizing t with
  | nil => cases h
  | cons first reported ih =>
    rcases List.mem_cons.mp h with rfl | h
    · exact (extends_recordAll reported _).knows (t.knows_record (raw.trim_normalized t.vendor))
    · exact ih (t := t.record (first.normalized t.vendor)) h

theorem Knows.record_entries (h : t.Knows s) : (t.record s).entries = t.entries := by
  have hself : t.entries.map (fun e => e.learn s) = t.entries.map id :=
    List.map_congr_left fun e he => TypeEntry.learn_of_takes_eq_false (h e he)
  rwa [List.map_id] at hself

/-- Types that a table knows bring it no candidate. -/
theorem recordAll_of_knows (h : ∀ raw ∈ reported, t.Knows (raw.normalized t.vendor)) :
    (t.recordAll reported).1.entries = t.entries ∧ (t.recordAll reported).2.1 = 0 := by
  induction reported generalizing t with
  | nil => exact ⟨rfl, rfl⟩
  | cons raw reported ih =>
    rw [List.forall_mem_cons] at h
    have hentries := h.1.record_entries
    have hrest : ∀ raw' ∈ reported, (t.record (raw.normalized t.vendor)).Knows
        (raw'.normalized t.vendor) := by
      simpa only [Knows, hentries] using h.2
    obtain ⟨hsame, hnone⟩ := ih (t := t.record (raw.normalized t.vendor)) hrest
    have htaken : t.entries.countP (fun e => e.takes (raw.normalized t.vendor)) = 0 :=
      List.countP_eq_zero.mpr fun e he => by simp [h.1 e he]
    refine ⟨hsame.trans hentries, ?_⟩
    show t.entries.countP _ + _ = 0
    rw [htaken, hnone]

/-! ## What learning leaves alone -/

theorem recordAll_version (t : TypeTable) (reported : List DriverType) :
    (t.recordAll reported).1.version = t.version := by
  induction reported generalizing t with
  | nil => rfl
  | cons raw reported ih => exact ih _

theorem recordAll_driverTypes (t : TypeTable) (reported : List DriverType) :
    (t.recordAll reported).1.driverTypes =
      SqlType.recordEach (reported.map (·.normalized t.vendor)) t.driverTypes := by
  induction reported generalizing t with
  | nil => rfl
  | cons raw reported ih => exact ih _

/-- Nothing is new among reports exactly if each is what the table has under its name. -/
theorem recordAll_changed_eq_false (t : TypeTable) (reported : List DriverType) :
    (t.recordAll reported).2.2 = false ↔ ∀ s ∈ reported.map (·.normalized t.vendor),
      t.driverTypes.lookup s.key = some s := by
  induction reported generalizing t with
  | nil => simp [recordAll]
  | cons raw reported ih =>
    have hlacks : t.lacks (raw.normalized t.vendor) = false ↔
        t.driverTypes.lookup (raw.normalized t.vendor).key = some (raw.normalized t.vendor) := by
      simp [lacks, SqlType.key]
    have hchanged : (t.recordAll (raw :: reported)).2.2 =
        (t.lacks (raw.normalized t.vendor) ||
          ((t.record (raw.normalized t.vendor)).recordAll reported).2.2) := rfl
    rw [hchanged, Bool.or_eq_false_iff, hlacks, ih, List.map_cons, List.forall_mem_cons]
    refine and_congr_right fun hknown => forall₂_congr fun s _ => ?_
    -- a type that the table has is recorded again, so no lookup changes
    have hrecord : (t.record (raw.normalized t.vendor)).driverTypes =
        (raw.normalized t.vendor).recordIn t.driverTypes := rfl
    rw [hrecord, SqlType.lookup_recordIn]
    split
    · next hkey => rw [hkey, hknown]
    · rfl

theorem learn_driverTypes (t : TypeTable) (reported : List DriverType) :
    (t.learn reported).1.driverTypes =
      SqlType.recordEach (reported.map (·.normalized t.vendor)) t.driverTypes := by
  simp only [learn]
  split <;> exact t.recordAll_driverTypes reported

/-! ## Learning twice -/

/-- No two reports of a name, in whatever case, are of different types. -/
def OneTypePerName (v : Vendor) (reported : List DriverType) : Prop :=
  ∀ s ∈ reported.map (·.normalized v), ∀ s' ∈ reported.map (·.normalized v), s.key = s'.key → s = s'

instance (v : Vendor) (reported : List DriverType) : Decidable (OneTypePerName v reported) :=
  inferInstanceAs (Decidable (∀ s ∈ _, ∀ s' ∈ _, _ → _))

/-- Right after reports each of them is what the table has under its name exactly if no name was reported
for two types. -/
theorem lookup_recordEach_iff (v : Vendor) (reported : List DriverType)
    (known : List (String × SqlType)) :
    (∀ s ∈ reported.map (·.normalized v),
      (SqlType.recordEach (reported.map (·.normalized v)) known).lookup s.key = some s) ↔
      OneTypePerName v reported := by
  constructor
  · intro h s hs s' hs' hkey
    have hsame := h s hs
    rw [hkey, h s' hs', Option.some.injEq] at hsame
    exact hsame.symm
  · intro h s hs
    obtain ⟨s', hs', hkey, hlookup⟩ := SqlType.exists_lookup_recordEach known hs
    rw [hlookup, h s' hs' s hs hkey]

/-- Reports that were just learned bring nothing but a new version, and not that unless a name was
reported for two types. -/
theorem learn_learn (t : TypeTable) (reported : List DriverType) :
    let learned := (t.learn reported).1
    learned.learn reported =
      (if OneTypePerName t.vendor reported then learned
        else { learned with version := learned.version + 1 }, 0) := by
  intro learned
  have hvendor : learned.vendor = t.vendor := t.learn_vendor reported
  have hknows : ∀ raw ∈ reported, learned.Knows (raw.normalized learned.vendor) := by
    intro raw hraw
    rw [hvendor, Knows, learn_entries]
    exact knows_recordAll hraw
  obtain ⟨hentries, hadded⟩ := recordAll_of_knows hknows
  have hdriverTypes : (learned.recordAll reported).1.driverTypes = learned.driverTypes := by
    rw [recordAll_driverTypes, hvendor, t.learn_driverTypes, SqlType.recordEach_recordEach]
  have hchanged : (learned.recordAll reported).2.2 = false ↔ OneTypePerName t.vendor reported := by
    rw [recordAll_changed_eq_false, hvendor, t.learn_driverTypes, lookup_recordEach_iff]
  have hsame : (learned.recordAll reported).1 = learned := by
    ext1
    · exact learned.recordAll_vendor reported
    · exact hentries
    · exact hdriverTypes
    · exact learned.recordAll_version reported
  have hrecorded : learned.recordAll reported =
      (learned, 0, !decide (OneTypePerName t.vendor reported)) := by
    refine Prod.ext hsame (Prod.ext hadded ?_)
    rw [Bool.eq_iff_iff, Bool.not_eq_true', decide_eq_false_iff_not, ← hchanged,
      Bool.not_eq_false]
  rw [TypeTable.learn, hrecorded]
  by_cases hone : OneTypePerName t.vendor reported <;> simp [hone]

/-- Learning the same reports again adds no candidate and changes nothing but the version, which stays
exactly if no name was reported for two types. -/
theorem learn_learn_version_iff (t : TypeTable) (reported : List DriverType) :
    let learned := (t.learn reported).1
    let again := learned.learn reported
    again.2 = 0 ∧ { again.1 with version := learned.version } = learned ∧
      (again.1.version = learned.version ↔ OneTypePerName t.vendor reported) := by
  intro learned again
  have hagain : again = _ := t.learn_learn reported
  rw [hagain]
  by_cases hone : OneTypePerName t.vendor reported <;> simp [hone, learned]

/-- A driver that reports one name for integers and for fractions moves the version each time. -/
theorem learn_learn_moves_version :
    let number : DriverType := ⟨"NUMBER", 2, some 38, some "(P,S)"⟩
    let integer : DriverType := ⟨"NUMBER", -5, some 19, none⟩
    let learned := ((ofVendor .oracle ⟨19, 0, 0⟩).learn [integer, number]).1
    learned.version = 1 ∧ (learned.learn [integer, number]).1.version = 2 ∧
      ¬∀ (v : Vendor) (version : Version) (batches : List (List DriverType)) (reported : List DriverType),
        let learned := (((ofVendor v version).learnAll batches).learn reported).1
        learned.learn reported = (learned, 0) := by
  refine ⟨by decide +kernel, by decide +kernel, fun h => ?_⟩
  have hagain := h .oracle ⟨19, 0, 0⟩ [] [⟨"NUMBER", -5, some 19, none⟩, ⟨"NUMBER", 2, some 38, some "(P,S)"⟩]
  exact absurd (congrArg (fun r => r.1.version) hagain) (by decide +kernel)

end TypeTable

end ObjectSql
