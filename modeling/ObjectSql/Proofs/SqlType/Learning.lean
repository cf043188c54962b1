import Mathlib.Data.List.DropRight
import Mathlib.Data.List.Forall2
import ObjectSql.SqlType.Table

/-!
# Learning types

A table that learns appends candidates to its entries, each of them marked as learned and none of them
a default. So the defaults of the registration remain, and what a type name was resolved to once it is
resolved to for good. A name is learned only if no candidate has it in any case of its letters.
-/
namespace ObjectSql

open Text

/-! ## Names without blanks around them -/

theorem Text.trimChars_trimChars (cs : List Char) : trimChars (trimChars cs) = trimChars cs := by
  have hkept : (trimChars cs).dropWhile isBlank = trimChars cs := by
    rw [List.dropWhile_eq_self_iff]
    intro hpos
    obtain ⟨rest, hrest⟩ : trimChars cs <+: cs.dropWhile isBlank := List.rdropWhile_prefix isBlank _
    have hlength : 0 < (cs.dropWhile isBlank).length := by
      rw [← hrest, List.length_append]
      omega
    have hhead : (cs.dropWhile isBlank)[0] = (trimChars cs)[0] := by
      simp only [← hrest, List.getElem_append_left hpos]
    rw [← hhead]
    exact List.dropWhile_get_zero_not isBlank cs hlength
  unfold trimChars at hkept ⊢
  rw [hkept, List.reverse_reverse, List.dropWhile_idempotent]

theorem Text.trim_trim (s : String) : trim (trim s) = trim s := by
  rw [trim, trim, String.toList_ofList, trimChars_trimChars]

theorem DriverType.trim_normalized (v : Vendor) (raw : DriverType) :
    trim (raw.normalized v).name = (raw.normalized v).name := trim_trim raw.name

/-! ## Entries -/

namespace TypeEntry

variable {e e' : TypeEntry} {s : SqlType}

/-- One entry is another one with learned candidates after those that it had. -/
structure Extends (e e' : TypeEntry) : Prop where
  logicalType : e'.logicalType = e.logicalType
  candidates : ∃ learned, e'.candidates = e.candidates ++ learned ∧
    ∀ c ∈ learned, c.isDefault = false ∧ c.learned = true

theorem Extends.refl (e : TypeEntry) : e.Extends e := ⟨rfl, [], by simp⟩

theorem Extends.trans {e'' : TypeEntry} (h : e.Extends e') (h' : e'.Extends e'') :
    e.Extends e'' := by
  obtain ⟨hname, learned, heq, hlearned⟩ := h
  obtain ⟨hname', learned', heq', hlearned'⟩ := h'
  refine ⟨hname'.trans hname, learned ++ learned', ?_, List.forall_mem_append.mpr
    ⟨hlearned, hlearned'⟩⟩
  rw [heq', heq, List.append_assoc]

theorem extends_learn (e : TypeEntry) (s : SqlType) : e.Extends (e.learn s) := by
  unfold learn
  split
  · exact ⟨rfl, _, rfl, by simp⟩
  · exact .refl e

/-- The defaults of an entry remain. -/
theorem Extends.filter_isDefault (h : e.Extends e') :
    e'.candidates.filter TypeCandidate.isDefault = e.candidates.filter TypeCandidate.isDefault := by
  obtain ⟨-, learned, heq, hlearned⟩ := h
  have hnone : learned.filter TypeCandidate.isDefault = [] :=
    List.filter_eq_nil_iff.mpr fun c hc => by simp [(hlearned c hc).1]
  rw [heq, List.filter_append, hnone, List.append_nil]

theorem Extends.default? (h : e.Extends e') {s : SqlType} (hs : e.default? = some s) :
    e'.default? = some s := by
  obtain ⟨c, hc, rfl⟩ := Option.map_eq_some_iff.mp hs
  obtain ⟨-, learned, heq, -⟩ := h
  rw [TypeEntry.default?, heq, List.find?_append, hc]
  rfl

theorem Extends.candidate? (h : e.Extends e') {name : String} {c : TypeCandidate}
    (hc : e.candidate? name = some c) : e'.candidate? name = some c := by
  obtain ⟨-, learned, heq, -⟩ := h
  unfold TypeEntry.candidate? at hc ⊢
  rw [heq, List.find?_append, hc]
  rfl

/-- No two candidates have names that differ in the case of their letters only. -/
def Distinct (e : TypeEntry) : Prop :=
  e.candidates.Pairwise fun c d => sameIgnoringCase c.type.name d.type.name = false

theorem Distinct.learn (h : e.Distinct) (hs : trim s.name = s.name) : (e.learn s).Distinct := by
  unfold TypeEntry.learn
  split
  · next htakes =>
    refine List.pairwise_append.mpr ⟨h, List.pairwise_singleton _ _, fun c hc d hd => ?_⟩
    obtain rfl := List.mem_singleton.mp hd
    have hnew : ¬c.type.hasName s.name := by
      simp only [takes, Bool.and_eq_true, Bool.not_eq_true', List.any_eq_false] at htakes
      exact htakes.2 c hc
    rw [SqlType.hasName, hs, Bool.or_eq_true, not_or] at hnew
    simpa using hnew.1
  · exact h

theorem length_learn (e : TypeEntry) (s : SqlType) :
    (e.learn s).candidates.length = e.candidates.length + if e.takes s then 1 else 0 := by
  unfold learn
  split <;> simp

end TypeEntry

/-! ## Registered entries -/

namespace Registration

/-- Types of which the first is the default: there is one, and no two share a name. -/
def Registers (types : List SqlType) : Prop :=
  types ≠ [] ∧ types.Pairwise fun s t => sameIgnoringCase s.name t.name = false

instance (types : List SqlType) : Decidable (Registers types) :=
  inferInstanceAs (Decidable (_ ∧ _))

/-- All that counts of a version for the candidates of a product is whether it is 10.7 or later. -/
theorem replacements_eq (v : Vendor) (version : Version) :
    replacements v version = replacements v ⟨0, 0, 0⟩ ∨
      replacements v version = replacements v ⟨10, 7, 0⟩ := by
  cases v with
  | derby =>
    by_cases hversion : version.atLeast 10 7
    · right
      simp only [replacements, hversion]
      rfl
    · left
      simp only [replacements, hversion]
      rfl
  | _ => exact .inl rfl

/-- What holds of the common candidates and of all that replace them holds of the candidates of every
product. -/
theorem forall_candidates {P : List SqlType → Prop} (hcommon : ∀ entry ∈ common, P entry.2)
    (hearly : ∀ v, ∀ entry ∈ replacements v ⟨0, 0, 0⟩, P entry.2)
    (hlate : ∀ v, ∀ entry ∈ replacements v ⟨10, 7, 0⟩, P entry.2) (v : Vendor) (version : Version) :
    ∀ entry ∈ candidates v version, P entry.2 := by
  refine List.forall_mem_map.mpr fun entry hentry => ?_
  cases hlookup : (replacements v version).lookup entry.1 with
  | none => exact hcommon entry hentry
  | some types =>
    obtain ⟨before, after, hsplit, -⟩ := List.lookup_eq_some_iff.mp hlookup
    have hmem : (entry.1, types) ∈ replacements v version := by simp [hsplit]
    rcases replacements_eq v version with heq | heq
    · exact hearly v (entry.1, types) (heq ▸ hmem)
    · exact hlate v (entry.1, types) (heq ▸ hmem)

theorem candidates_register (v : Vendor) (version : Version) :
    ∀ entry ∈ candidates v version, Registers entry.2 :=
  forall_candidates (by decide +kernel) (fun v => by cases v <;> decide +kernel)
    (fun v => by cases v <;> decide +kernel) v version

/-- A registered type with a scale has a precision as well. -/
theorem candidates_acceptLength (v : Vendor) (version : Version) :
    ∀ entry ∈ candidates v version, ∀ s ∈ entry.2, s.acceptsScale → s.acceptsLength :=
  forall_candidates (P := fun types => ∀ s ∈ types, s.acceptsScale → s.acceptsLength)
    (by decide +kernel) (fun v => by cases v <;> decide +kernel)
    (fun v => by cases v <;> decide +kernel) v version

theorem candidates_nodup (v : Vendor) (version : Version) :
    ((candidates v version).map Prod.fst).Nodup := by
  rw [candidates, List.map_map]
  exact (by decide +kernel : (common.map Prod.fst).Nodup)

end Registration

namespace TypeEntry

variable {logicalType : String} {types : List SqlType}

theorem registered_candidates (logicalType : String) (h : types ≠ []) :
    ∃ t ts, types = t :: ts ∧ (registered logicalType types).candidates =
      ⟨t, true, false⟩ :: ts.map fun t => ⟨t, false, false⟩ := by
  obtain ⟨t, ts, rfl⟩ := List.exists_cons_of_ne_nil h
  exact ⟨t, ts, rfl, rfl⟩

theorem registered_default (h : Registration.Registers types) : ∃ c,
    (registered logicalType types).candidates.filter TypeCandidate.isDefault = [c] := by
  obtain ⟨t, ts, rfl, heq⟩ := registered_candidates logicalType h.1
  refine ⟨⟨t, true, false⟩, ?_⟩
  rw [heq]
  simp

theorem registered_learned (types : List SqlType) :
    ∀ c ∈ (registered logicalType types).candidates, c.learned = false := by
  cases types with
  | nil => simp [registered]
  | cons t ts => simp [registered]

theorem registered_distinct (h : Registration.Registers types) :
    (registered logicalType types).Distinct := by
  obtain ⟨t, ts, rfl, heq⟩ := registered_candidates logicalType h.1
  rw [Distinct, heq]
  simpa [List.pairwise_map] using h.2

end TypeEntry

/-! ## Tables -/

namespace TypeTable

variable {t t' : TypeTable} {name : String}

def Extends (t t' : TypeTable) : Prop := List.Forall₂ TypeEntry.Extends t.entries t'.entries

theorem Extends.refl (t : TypeTable) : t.Extends t :=
  List.forall₂_same.mpr fun e _ => TypeEntry.Extends.refl e

theorem Extends.trans {t'' : TypeTable} (h : t.Extends t') (h' : t'.Extends t'') :
    t.Extends t'' := by
  unfold Extends at *
  generalize t.entries = es, t'.entries = es', t''.entries = es'' at h h'
  induction h generalizing es'' with
  | nil =>
    cases h'
    exact .nil
  | cons he _ ih =>
    cases h' with
    | cons he' hes' => exact .cons (he.trans he') (ih _ hes')

theorem Extends.logicalTypes (h : t.Extends t') :
    t'.entries.map TypeEntry.logicalType = t.entries.map TypeEntry.logicalType := by
  unfold Extends at h
  generalize t.entries = es, t'.entries = es' at h ⊢
  induction h with
  | nil => rfl
  | cons he _ ih => rw [List.map_cons, List.map_cons, he.logicalType, ih]

/-- The entries of a logical type extend one another, if there are any. -/
theorem Extends.entry? (h : t.Extends t') (name : String) :
    Option.Rel TypeEntry.Extends (t.entry? name) (t'.entry? name) := by
  unfold Extends at h
  unfold TypeTable.entry?
  generalize t.entries = es, t'.entries = es' at h ⊢
  induction h with
  | nil => exact .none
  | @cons e e' es es' he _ ih =>
    rw [List.find?_cons, List.find?_cons, he.logicalType]
    cases e.logicalType == name with
    | true => exact .some he
    | false => exact ih

theorem Extends.exists_entry? (h : t.Extends t') {e : TypeEntry} (he : t.entry? name = some e) :
    ∃ e', t'.entry? name = some e' ∧ e.Extends e' := by
  have hrel := h.entry? name
  rw [he] at hrel
  generalize t'.entry? name = found at hrel
  cases hrel with
  | some hext => exact ⟨_, rfl, hext⟩

theorem Extends.exists_of_entry? (h : t.Extends t') {e' : TypeEntry}
    (he : t'.entry? name = some e') : ∃ e, t.entry? name = some e ∧ e.Extends e' := by
  have hrel := h.entry? name
  rw [he] at hrel
  generalize t.entry? name = found at hrel
  cases hrel with
  | some hext => exact ⟨_, rfl, hext⟩

theorem Extends.default (h : t.Extends t') {s : SqlType} (hs : t.default name = .ok s) :
    t'.default name = .ok s := by
  unfold TypeTable.default at hs ⊢
  split at hs
  · next s' hfound =>
    cases hs
    obtain ⟨e, he, hdefault⟩ := Option.bind_eq_some_iff.mp hfound
    obtain ⟨e', he', hext⟩ := h.exists_entry? he
    rw [he', Option.bind_some, hext.default? hdefault]
  · cases hs

theorem Extends.resolve (h : t.Extends t') {sqlType : String} {s : SqlType}
    (hs : t.resolve name sqlType = .ok s) : t'.resolve name sqlType = .ok s := by
  unfold TypeTable.resolve at hs ⊢
  split at hs
  · cases hs
  · next e he =>
    obtain ⟨e', he', hext⟩ := h.exists_entry? he
    split at hs
    · next c hc =>
      cases hs
      simp only [he', hext.candidate? hc]
    · cases hs

def Distinct (t : TypeTable) : Prop := ∀ e ∈ t.entries, e.Distinct

def candidates (t : TypeTable) : List TypeCandidate := t.entries.flatMap TypeEntry.candidates

/-! ## Recording a type -/

theorem extends_record (t : TypeTable) (s : SqlType) : t.Extends (t.record s) :=
  List.forall₂_map_right_iff.mpr (List.forall₂_same.mpr fun e _ => e.extends_learn s)

theorem Distinct.record (h : t.Distinct) {s : SqlType} (hs : trim s.name = s.name) :
    (t.record s).Distinct :=
  List.forall_mem_map.mpr fun e he => (h e he).learn hs

theorem length_record (t : TypeTable) (s : SqlType) : (t.record s).candidates.length =
    t.candidates.length + t.entries.countP fun e => e.takes s := by
  unfold candidates record
  induction t.entries with
  | nil => rfl
  | cons e es ih =>
    simp only [List.map_cons, List.flatMap_cons, List.length_append, ih, e.length_learn,
      List.countP_cons]
    omega

/-! ## Learning from reports -/

theorem extends_recordAll (reported : List DriverType) (t : TypeTable) :
    t.Extends (t.recordAll reported).1 := by
  induction reported generalizing t with
  | nil => exact .refl t
  | cons raw reported ih => exact (t.extends_record _).trans (ih _)

theorem Distinct.recordAll (reported : List DriverType) (h : t.Distinct) :
    (t.recordAll reported).1.Distinct := by
  induction reported generalizing t with
  | nil => exact h
  | cons raw reported ih => exact ih (h.record (raw.trim_normalized t.vendor))

theorem length_recordAll (reported : List DriverType) (t : TypeTable) :
    (t.recordAll reported).1.candidates.length =
      t.candidates.length + (t.recordAll reported).2.1 := by
  induction reported generalizing t with
  | nil => rfl
  | cons raw reported ih => exact (ih _).trans (by rw [length_record, Nat.add_assoc]; rfl)

theorem recordAll_vendor (t : TypeTable) (reported : List DriverType) :
    (t.recordAll reported).1.vendor = t.vendor := by
  induction reported generalizing t with
  | nil => rfl
  | cons raw reported ih => exact ih _

theorem learn_vendor (t : TypeTable) (reported : List DriverType) :
    (t.learn reported).1.vendor = t.vendor := by
  simp only [learn]
  split <;> exact t.recordAll_vendor reported

theorem learn_entries (t : TypeTable) (reported : List DriverType) :
    (t.learn reported).1.entries = (t.recordAll reported).1.entries := by
  simp only [learn]
  split <;> rfl

theorem extends_learn (t : TypeTable) (reported : List DriverType) :
    t.Extends (t.learn reported).1 := by
  rw [Extends, learn_entries]
  exact extends_recordAll reported t

theorem Distinct.learn (h : t.Distinct) (reported : List DriverType) :
    (t.learn reported).1.Distinct := by
  rw [Distinct, learn_entries]
  exact h.recordAll reported

/-- Learning tells how many candidates it has added. -/
theorem length_learn (t : TypeTable) (reported : List DriverType) :
    (t.learn reported).1.candidates.length = t.candidates.length + (t.learn reported).2 := by
  rw [candidates, learn_entries]
  exact length_recordAll reported t

def learnAll (t : TypeTable) (batches : List (List DriverType)) : TypeTable :=
  batches.foldl (fun t reported => (t.learn reported).1) t

theorem extends_learnAll (batches : List (List DriverType)) (t : TypeTable) :
    t.Extends (t.learnAll batches) := by
  induction batches generalizing t with
  | nil => exact .refl t
  | cons reported batches ih => exact (t.extends_learn reported).trans (ih _)

theorem Distinct.learnAll (h : t.Distinct) (batches : List (List DriverType)) :
    (t.learnAll batches).Distinct := by
  induction batches generalizing t with
  | nil => exact h
  | cons reported batches ih => exact ih (h.learn reported)

/-! ## Tables of a product -/

variable {v : Vendor} {version : Version}

theorem forall_ofVendor {P : TypeEntry → Prop}
    (h : ∀ name types, Registration.Registers types → P (.registered name types)) :
    ∀ e ∈ (ofVendor v version).entries, P e :=
  List.forall_mem_map.mpr fun entry hentry =>
    h entry.1 entry.2 (Registration.candidates_register v version entry hentry)

theorem ofVendor_nodup :
    ((ofVendor v version).entries.map TypeEntry.logicalType).Nodup := by
  have hnames : (ofVendor v version).entries.map TypeEntry.logicalType =
      (Registration.candidates v version).map Prod.fst := List.map_map
  rw [hnames]
  exact Registration.candidates_nodup v version

/-- What one table has that another one keeps. -/
structure Keeps (t t' : TypeTable) : Prop where
  entry? : ∀ name e, t.entry? name = some e → ∃ e', t'.entry? name = some e' ∧ e.Extends e'
  default : ∀ name s, t.default name = .ok s → t'.default name = .ok s
  resolve : ∀ name sqlType s, t.resolve name sqlType = .ok s → t'.resolve name sqlType = .ok s

theorem Extends.keeps (h : t.Extends t') : t.Keeps t' where
  entry? _ _ := h.exists_entry?
  default _ _ := h.default
  resolve _ _ _ := h.resolve

/-- What holds of a table that has learned since its registration. -/
structure LearnedFrom (registration t : TypeTable) : Prop where
  logicalTypes : t.entries.map TypeEntry.logicalType =
    registration.entries.map TypeEntry.logicalType
  nodup : (t.entries.map TypeEntry.logicalType).Nodup
  /-- There is one default, that of the registration, and what comes after the registration is
  learned. -/
  entry? : ∀ name e, t.entry? name = some e → ∃ e₀, registration.entry? name = some e₀ ∧
    e₀.Extends e ∧ (∀ c ∈ e₀.candidates, c.learned = false) ∧
      ∃ c, e₀.candidates.filter TypeCandidate.isDefault = [c] ∧
        e.candidates.filter TypeCandidate.isDefault = [c]
  distinct : ∀ name e, t.entry? name = some e → e.candidates.Pairwise fun c d =>
    sameIgnoringCase c.type.name d.type.name = false
  keeps : ∀ batches, t.Keeps (t.learnAll batches)
  /-- Learning tells how many candidates it adds. -/
  length_learn : ∀ reported,
    (t.learn reported).1.candidates.length = t.candidates.length + (t.learn reported).2

/-- Whatever drivers report, a table keeps its defaults and all that could be resolved, and has no
name twice. -/
theorem ofVendor_learnedFrom (v : Vendor) (version : Version) (batches : List (List DriverType)) :
    LearnedFrom (ofVendor v version) ((ofVendor v version).learnAll batches) := by
  have hext := extends_learnAll batches (ofVendor v version)
  have hdistinct : ((ofVendor v version).learnAll batches).Distinct :=
    Distinct.learnAll (forall_ofVendor fun _ _ => TypeEntry.registered_distinct) batches
  constructor
  case logicalTypes => exact hext.logicalTypes
  case nodup =>
    rw [hext.logicalTypes]
    exact ofVendor_nodup
  case entry? =>
    intro name e he
    obtain ⟨e₀, he₀, hentry⟩ := hext.exists_of_entry? he
    have hmem : e₀ ∈ (ofVendor v version).entries := List.mem_of_find?_eq_some he₀
    obtain ⟨c, hc⟩ := forall_ofVendor
      (P := fun e => ∃ c, e.candidates.filter TypeCandidate.isDefault = [c])
      (fun _ _ => TypeEntry.registered_default) e₀ hmem
    have hlearned := forall_ofVendor (P := fun e => ∀ c ∈ e.candidates, c.learned = false)
      (fun _ types _ => TypeEntry.registered_learned types) e₀ hmem
    exact ⟨e₀, he₀, hentry, hlearned, c, hc, hentry.filter_isDefault.trans hc⟩
  case distinct =>
    intro name e he
    exact hdistinct e (List.mem_of_find?_eq_some he)
  case keeps =>
    intro more
    exact (extends_learnAll more _).keeps
  case length_learn => exact length_learn _

end TypeTable

end ObjectSql
