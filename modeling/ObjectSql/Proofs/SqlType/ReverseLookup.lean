import Mathlib.Data.List.Nodup
import Mathlib.Data.List.Pairwise
import ObjectSql.Proofs.SqlType.Learning

/-!
# Looking up logical types by a type

Forward and reverse lookup both settle on the first candidate that has the name, so the logical types found
for a name are those that resolve it. Those found through their default stand first. In a table of a
product a resolved type is the default exactly if its candidate is: there is one default, and no other
candidate has its name.
-/
namespace ObjectSql

open Text

/-! ## Defaults -/

namespace TypeEntry

variable {e : TypeEntry} {c : TypeCandidate}

/-- Candidates with the same type are the same candidate. -/
theorem Distinct.eq_of_type_eq (h : e.Distinct) {d : TypeCandidate} (hc : c ∈ e.candidates)
    (hd : d ∈ e.candidates) (htype : c.type = d.type) : c = d := by
  by_contra hne
  have hsymm : Std.Symm fun c d : TypeCandidate => sameIgnoringCase c.type.name d.type.name = false :=
    ⟨fun c d hcd => by rwa [sameIgnoringCase, Bool.beq_comm]⟩
  have hapart : sameIgnoringCase c.type.name d.type.name = false := h.forall hc hd hne
  simp [htype, sameIgnoringCase] at hapart

/-- Where there is one default, the type of a candidate is the default exactly if the candidate is. -/
theorem default?_eq_some_iff (hdistinct : e.Distinct)
    (hone : ∃ d, e.candidates.filter TypeCandidate.isDefault = [d]) (hc : c ∈ e.candidates) :
    e.default? = some c.type ↔ c.isDefault = true := by
  obtain ⟨d, hd⟩ := hone
  have hmem : d ∈ e.candidates ∧ d.isDefault = true := List.mem_filter.mp (by rw [hd]; simp)
  have hdefault : e.default? = some d.type := by
    rw [default?, ← List.head?_filter, hd]
    rfl
  rw [hdefault, Option.some.injEq]
  constructor
  · intro htype
    rw [← hdistinct.eq_of_type_eq hmem.1 hc htype]
    exact hmem.2
  · intro hisDefault
    have hcd : c ∈ e.candidates.filter TypeCandidate.isDefault := List.mem_filter.mpr ⟨hc, hisDefault⟩
    rw [hd, List.mem_singleton] at hcd
    rw [hcd]

end TypeEntry

namespace TypeTable

variable {t : TypeTable} {name sqlType : String} {e : TypeEntry} {c : TypeCandidate}

/-! ## Entries -/

theorem entry?_eq_some_iff (hnodup : (t.entries.map TypeEntry.logicalType).Nodup) :
    t.entry? name = some e ↔ e ∈ t.entries ∧ e.logicalType = name := by
  constructor
  · intro h
    exact ⟨List.mem_of_find?_eq_some h, by simpa using List.find?_some h⟩
  · rintro ⟨he, rfl⟩
    cases hfound : t.entry? e.logicalType with
    | none =>
      have hnone := List.find?_eq_none.mp hfound e he
      simp at hnone
    | some e' =>
      have hname : e'.logicalType = e.logicalType := by simpa using List.find?_some hfound
      rw [List.inj_on_of_nodup_map hnodup (List.mem_of_find?_eq_some hfound) he hname]

theorem resolve_eq_ok_iff {s : SqlType} :
    t.resolve name sqlType = .ok s ↔
      ∃ e c, t.entry? name = some e ∧ e.candidate? sqlType = some c ∧ c.type = s := by
  unfold resolve
  split
  · simp [*]
  · split <;> simp [*]

theorem default_eq_ok_iff {s : SqlType} :
    t.default name = .ok s ↔ ∃ e, t.entry? name = some e ∧ e.default? = some s := by
  rw [← Option.bind_eq_some_iff]
  unfold TypeTable.default
  split <;> simp [*]

/-- The entries that have a candidate of a name, the first of which is their default or is not. -/
def holding (t : TypeTable) (sqlType : String) (isDefault : Bool) : List TypeEntry :=
  t.entries.filter fun e => (e.candidate? sqlType).any fun c => c.isDefault == isDefault

theorem mem_holding {isDefault : Bool} :
    e ∈ t.holding sqlType isDefault ↔
      e ∈ t.entries ∧ ∃ c, e.candidate? sqlType = some c ∧ c.isDefault = isDefault := by
  simp [holding, Option.any_eq_true]

theorem mem_map_holding (hnodup : (t.entries.map TypeEntry.logicalType).Nodup) {isDefault : Bool} :
    name ∈ (t.holding sqlType isDefault).map TypeEntry.logicalType ↔
      ∃ e c, t.entry? name = some e ∧ e.candidate? sqlType = some c ∧ c.isDefault = isDefault := by
  simp only [List.mem_map, mem_holding, entry?_eq_some_iff hnodup]
  constructor
  · rintro ⟨e, ⟨he, c, hc, hdefault⟩, hname⟩
    exact ⟨e, c, ⟨he, hname⟩, hc, hdefault⟩
  · rintro ⟨e, c, ⟨he, hname⟩, hc, hdefault⟩
    exact ⟨e, ⟨he, c, hc, hdefault⟩, hname⟩

/-- The names that a search keeps by a mark are those of the entries whose candidate has it. -/
theorem map_filter_found (t : TypeTable) (sqlType : String) (isDefault : Bool) :
    ((t.entries.filterMap fun e => (e.candidate? sqlType).map fun c =>
        (c.isDefault, e.logicalType)).filter fun f => f.1 == isDefault).map Prod.snd =
      (t.holding sqlType isDefault).map TypeEntry.logicalType := by
  unfold holding
  induction t.entries with
  | nil => rfl
  | cons e es ih =>
    cases hc : e.candidate? sqlType with
    | none => simpa [hc] using ih
    | some c => by_cases hdefault : c.isDefault = isDefault <;> simp [hc, hdefault, ih]

theorem logicalTypesFor_eq (t : TypeTable) (sqlType : String) :
    t.logicalTypesFor sqlType = (t.holding sqlType true).map TypeEntry.logicalType ++
      (t.holding sqlType false).map TypeEntry.logicalType := by
  rw [← map_filter_found, ← map_filter_found, logicalTypesFor]
  simp only [beq_true, beq_false]

/-- The reverse lookup finds the logical types that the forward lookup resolves. -/
theorem mem_logicalTypesFor (hnodup : (t.entries.map TypeEntry.logicalType).Nodup) :
    name ∈ t.logicalTypesFor sqlType ↔ ∃ s, t.resolve name sqlType = .ok s := by
  simp only [logicalTypesFor_eq, List.mem_append, mem_map_holding hnodup, resolve_eq_ok_iff]
  constructor
  · rintro (⟨e, c, he, hc, -⟩ | ⟨e, c, he, hc, -⟩) <;> exact ⟨c.type, e, c, he, hc, rfl⟩
  · rintro ⟨-, e, c, he, hc, -⟩
    cases hdefault : c.isDefault with
    | true => exact .inl ⟨e, c, he, hc, hdefault⟩
    | false => exact .inr ⟨e, c, he, hc, hdefault⟩

theorem logicalTypesFor_nodup (hnodup : (t.entries.map TypeEntry.logicalType).Nodup)
    (sqlType : String) : (t.logicalTypesFor sqlType).Nodup := by
  rw [logicalTypesFor_eq]
  refine List.nodup_append.mpr ⟨hnodup.sublist (List.filter_sublist.map _),
    hnodup.sublist (List.filter_sublist.map _), ?_⟩
  rintro name hdefault _ hother rfl
  obtain ⟨e, c, he, hc, htrue⟩ := (mem_map_holding hnodup).mp hdefault
  obtain ⟨e', c', he', hc', hfalse⟩ := (mem_map_holding hnodup).mp hother
  -- one entry of the name has one first candidate, which is marked as default or is not
  rw [he, Option.some.injEq] at he'
  rw [← he', hc, Option.some.injEq] at hc'
  rw [← hc', htrue] at hfalse
  cases hfalse

/-! ## Tables of a product -/

variable {v : Vendor} {version : Version} {batches : List (List DriverType)}

theorem ofVendor_sorted :
    ((ofVendor v version).entries.map TypeEntry.logicalType).Pairwise (· < ·) := by
  have hnames : (ofVendor v version).entries.map TypeEntry.logicalType =
      Registration.common.map Prod.fst := by
    simp [ofVendor, Registration.candidates, TypeEntry.registered, Function.comp_def]
  rw [hnames]
  decide +kernel

theorem learnAll_sorted (isDefault : Bool) :
    ((((ofVendor v version).learnAll batches).holding sqlType isDefault).map
      TypeEntry.logicalType).Pairwise (· < ·) := by
  have hsorted : ((ofVendor v version).entries.map TypeEntry.logicalType).Pairwise (· < ·) :=
    ofVendor_sorted
  rw [← (extends_learnAll batches (ofVendor v version)).logicalTypes] at hsorted
  exact hsorted.sublist (List.filter_sublist.map _)

/-- What the lookup of a name in a table of a product resolves to is the default exactly if it is the
candidate that is marked as default. -/
theorem resolve_eq_default_iff (he : entry? ((ofVendor v version).learnAll batches) name = some e)
    (hc : e.candidate? sqlType = some c) :
    ((ofVendor v version).learnAll batches).resolve name sqlType =
      ((ofVendor v version).learnAll batches).default name ↔ c.isDefault = true := by
  have hext := extends_learnAll batches (ofVendor v version)
  have hdistinct : ((ofVendor v version).learnAll batches).Distinct :=
    Distinct.learnAll (forall_ofVendor fun _ _ => TypeEntry.registered_distinct) batches
  obtain ⟨e₀, he₀, hentry⟩ := hext.exists_of_entry? he
  have hone : ∃ d, e.candidates.filter TypeCandidate.isDefault = [d] := by
    rw [hentry.filter_isDefault]
    exact forall_ofVendor (P := fun e => ∃ d, e.candidates.filter TypeCandidate.isDefault = [d])
      (fun _ _ => TypeEntry.registered_default) e₀ (List.mem_of_find?_eq_some he₀)
  rw [← TypeEntry.default?_eq_some_iff (hdistinct e (List.mem_of_find?_eq_some he)) hone
    (List.mem_of_find?_eq_some hc), resolve_eq_ok_iff.mpr ⟨e, c, he, hc, rfl⟩, eq_comm,
    default_eq_ok_iff]
  simp [he]

/-- The logical types that a lookup by a type lists: some whose default the type is, then others. -/
structure Lists (t : TypeTable) (sqlType : String) (defaults others : List String) : Prop where
  mem_iff : ∀ name, name ∈ defaults ++ others ↔ ∃ s, t.resolve name sqlType = .ok s
  nodup : (defaults ++ others).Nodup
  eq_default : ∀ name ∈ defaults, t.resolve name sqlType = t.default name
  ne_default : ∀ name ∈ others, t.resolve name sqlType ≠ t.default name
  sorted_defaults : defaults.Pairwise (· < ·)
  sorted_others : others.Pairwise (· < ·)

/-- Whatever drivers report, the reverse lookup lists once each logical type that resolves the name, first
those that resolve it to their default and then the others, each in ascending order. -/
theorem logicalTypesFor_lists (v : Vendor) (version : Version) (batches : List (List DriverType))
    (sqlType : String) :
    ∃ defaults others,
      ((ofVendor v version).learnAll batches).logicalTypesFor sqlType = defaults ++ others ∧
        ((ofVendor v version).learnAll batches).Lists sqlType defaults others := by
  have hnodup : (((ofVendor v version).learnAll batches).entries.map TypeEntry.logicalType).Nodup := by
    rw [(extends_learnAll batches _).logicalTypes]
    exact ofVendor_nodup
  refine ⟨_, _, logicalTypesFor_eq _ sqlType, ?_⟩
  constructor
  case mem_iff =>
    intro name
    rw [← logicalTypesFor_eq]
    exact mem_logicalTypesFor hnodup
  case nodup =>
    rw [← logicalTypesFor_eq]
    exact logicalTypesFor_nodup hnodup sqlType
  case eq_default =>
    intro name hname
    obtain ⟨e, c, he, hc, hdefault⟩ := (mem_map_holding hnodup).mp hname
    exact (resolve_eq_default_iff he hc).mpr hdefault
  case ne_default =>
    intro name hname heq
    obtain ⟨e, c, he, hc, hother⟩ := (mem_map_holding hnodup).mp hname
    rw [(resolve_eq_default_iff he hc).mp heq] at hother
    cases hother
  case sorted_defaults => exact learnAll_sorted true
  case sorted_others => exact learnAll_sorted false

example : (ofVendor .postgresql ⟨16, 0, 0⟩).logicalTypesFor " text(10) " = ["text", "json", "string"] := by
  decide +kernel

end TypeTable

end ObjectSql
