import ObjectSql.Proofs.SqlType.Learning

/-!
# Precision and scale of a type

A type that takes a scale is written with a precision and a scale exactly if it takes a length as well.
Registered types do. A reported type takes what the text of its parameters names, and a text can name a
scale without a length, so a table writes all that is declared exactly if no such report is kept in it.
-/
namespace ObjectSql

open Text

/-! ## Parameters of a report -/

namespace DriverType

theorem isPart_iff {part text : List Char} : isPart part text ↔ part <:+: text := by
  induction text with
  | nil => simp [isPart]
  | cons c cs ih => rw [isPart, Bool.or_eq_true, List.isPrefixOf_iff_prefix, ih, List.infix_cons_iff]

def parameters (raw : DriverType) : List Char := (raw.createParams.getD "").toList

/-- The parameters stand in parentheses, or one of them is called a length. -/
def NamesLength (raw : DriverType) : Prop :=
  '(' ∈ raw.parameters ∨ "length".toList <:+: raw.parameters

/-- There are several parameters, or one of them is called a scale. -/
def NamesScale (raw : DriverType) : Prop :=
  ',' ∈ raw.parameters ∨ "scale".toList <:+: raw.parameters

variable {v : Vendor} {raw : DriverType}

theorem acceptsLength_normalized : (raw.normalized v).acceptsLength ↔ raw.NamesLength := by
  simp only [normalized, Bool.or_eq_true, List.contains_iff_mem, isPart_iff]
  rfl

theorem acceptsScale_normalized : (raw.normalized v).acceptsScale ↔ raw.NamesScale := by
  simp only [normalized, Bool.or_eq_true, List.contains_iff_mem, isPart_iff]
  rfl

end DriverType

/-! ## Writing precision and scale -/

namespace SqlType

variable {s : SqlType}

/-- The type is written with every precision, up to its maximum, and every scale that is declared. -/
def WritesBoth (s : SqlType) : Prop :=
  ∀ precision scale, s.render (some precision) (some scale) =
    s.name ++ "(" ++ toString (s.maxPrecision.elim precision (min precision)) ++ "," ++
      toString scale ++ ")"

theorem render_of_acceptsLength_eq_false (h : s.acceptsLength = false) (length scale : Option Nat) :
    s.render length scale = s.name := by
  rw [render, h]
  rfl

theorem writesBoth_iff (h : s.acceptsScale) : s.WritesBoth ↔ s.acceptsLength := by
  constructor
  · intro hwrites
    by_contra hlength
    have hname := hwrites 0 0
    rw [render_of_acceptsLength_eq_false (by simpa using hlength)] at hname
    have hchars := congrArg String.length hname
    simp only [String.length_append] at hchars
    have hopen : "(".length = 1 := rfl
    omega
  · intro hlength precision scale
    have hprecision : s.lengthFor (some precision) =
        some (s.maxPrecision.elim precision (min precision)) := by
      cases hmax : s.maxPrecision <;> simp [lengthFor, hmax]
    simp only [render, hlength, hprecision, h, if_true, Option.getD_some]

end SqlType

/-! ## Types of a table -/

theorem TypeEntry.mem_candidates_learn {e : TypeEntry} {s : SqlType} {c : TypeCandidate}
    (h : c ∈ (e.learn s).candidates) : c ∈ e.candidates ∨ c.type = s := by
  unfold TypeEntry.learn at h
  split at h
  · rcases List.mem_append.mp h with h | h
    · exact .inl h
    · exact .inr (by rw [List.mem_singleton.mp h])
  · exact .inl h

theorem TypeEntry.type_mem_of_mem_registered {logicalType : String} {types : List SqlType}
    {c : TypeCandidate} (h : c ∈ (registered logicalType types).candidates) : c.type ∈ types := by
  cases types with
  | nil => cases h
  | cons s types =>
    rcases List.mem_cons.mp h with rfl | h
    · exact List.mem_cons_self
    · obtain ⟨s', hs', rfl⟩ := List.mem_map.mp h
      exact List.mem_cons_of_mem _ hs'

namespace TypeTable

variable {t : TypeTable} {s s' : SqlType}

def types (t : TypeTable) : List SqlType :=
  t.candidates.map TypeCandidate.type ++ t.driverTypes.map Prod.snd

theorem mem_types : s ∈ t.types ↔ (∃ e ∈ t.entries, ∃ c ∈ e.candidates, c.type = s) ∨
    ∃ d ∈ t.driverTypes, d.2 = s := by
  simp only [types, candidates, List.mem_append, List.mem_map, List.mem_flatMap]
  grind

theorem mem_types_record (h : s' ∈ (t.record s).types) : s' ∈ t.types ∨ s' = s := by
  rw [mem_types] at h ⊢
  rcases h with ⟨e, he, c, hc, rfl⟩ | ⟨d, hd, rfl⟩
  · obtain ⟨e₀, he₀, rfl⟩ := List.mem_map.mp he
    rcases TypeEntry.mem_candidates_learn hc with hc | hc
    · exact .inl (.inl ⟨e₀, he₀, c, hc, rfl⟩)
    · exact .inr hc
  · rcases List.mem_cons.mp hd with rfl | hd
    · exact .inr rfl
    · exact .inl (.inr ⟨d, List.mem_of_mem_filter hd, rfl⟩)

theorem mem_types_recordAll {reported : List DriverType} (h : s ∈ (t.recordAll reported).1.types) :
    s ∈ t.types ∨ ∃ raw ∈ reported, raw.normalized t.vendor = s := by
  induction reported generalizing t with
  | nil => exact .inl h
  | cons raw reported ih =>
    rcases ih (t := t.record (raw.normalized t.vendor)) h with h | ⟨raw', hraw', heq⟩
    · rcases mem_types_record h with h | rfl
      · exact .inl h
      · exact .inr ⟨raw, List.mem_cons_self, rfl⟩
    · exact .inr ⟨raw', List.mem_cons_of_mem _ hraw', heq⟩

theorem types_learn (t : TypeTable) (reported : List DriverType) :
    (t.learn reported).1.types = (t.recordAll reported).1.types := by
  simp only [learn]
  split <;> rfl

/-- Every type of a table was there before or was reported. -/
theorem mem_types_learnAll {batches : List (List DriverType)} (h : s ∈ (t.learnAll batches).types) :
    s ∈ t.types ∨ ∃ raw ∈ batches.flatten, raw.normalized t.vendor = s := by
  induction batches generalizing t with
  | nil => exact .inl h
  | cons reported batches ih =>
    rw [List.flatten_cons]
    rcases ih (t := (t.learn reported).1) h with h | ⟨raw, hraw, heq⟩
    · rw [types_learn] at h
      rcases mem_types_recordAll h with h | ⟨raw, hraw, heq⟩
      · exact .inl h
      · exact .inr ⟨raw, List.mem_append_left _ hraw, heq⟩
    · rw [learn_vendor] at heq
      exact .inr ⟨raw, List.mem_append_right _ hraw, heq⟩

/-- A registered type with a scale has a precision as well. -/
theorem acceptsLength_of_mem_ofVendor {v : Vendor} {version : Version}
    (h : s ∈ (ofVendor v version).types) (hscale : s.acceptsScale) : s.acceptsLength := by
  rcases mem_types.mp h with ⟨e, he, c, hc, rfl⟩ | ⟨d, hd, -⟩
  · obtain ⟨entry, hentry, rfl⟩ := List.mem_map.mp he
    refine Registration.candidates_acceptLength v version entry hentry c.type ?_ hscale
    exact TypeEntry.type_mem_of_mem_registered hc
  · cases hd

/-- Whatever drivers report, every type of a table that takes a scale takes a length and is written with
both, exactly if every report that is kept in the table and names a scale names a length. -/
theorem types_writeBoth_iff (v : Vendor) (version : Version) (batches : List (List DriverType)) :
    (∀ s ∈ ((ofVendor v version).learnAll batches).types, s.acceptsScale →
        s.acceptsLength ∧ s.WritesBoth) ↔
      ∀ raw ∈ batches.flatten, raw.normalized v ∈ ((ofVendor v version).learnAll batches).types →
        raw.NamesScale → raw.NamesLength := by
  constructor
  · intro h raw _ hkept hscale
    exact DriverType.acceptsLength_normalized.mp
      (h _ hkept (DriverType.acceptsScale_normalized.mpr hscale)).1
  · intro h s hs hscale
    have hlength : s.acceptsLength := by
      rcases mem_types_learnAll hs with hregistered | ⟨raw, hraw, rfl⟩
      · exact acceptsLength_of_mem_ofVendor hregistered hscale
      · exact DriverType.acceptsLength_normalized.mpr
          (h raw hraw hs (DriverType.acceptsScale_normalized.mp hscale))
    exact ⟨hlength, (SqlType.writesBoth_iff hscale).mpr hlength⟩

/-- A report that calls its parameters a precision and a scale is learned as a type with a scale and
without a length, and written with neither. -/
theorem scale_without_length :
    let t := (ofVendor .generic ⟨0, 0, 0⟩).learnAll [[⟨"DEC", 3, some 31, some "precision,scale"⟩]]
    let dec : SqlType := ⟨"DEC", .decimal, some 31, false, true, none⟩
    t.resolve "decimal" "DEC" = .ok dec ∧ dec.render (some 10) (some 2) = "DEC" ∧
      ¬∀ v version batches, ∀ s ∈ ((ofVendor v version).learnAll batches).types,
        s.acceptsScale → s.acceptsLength ∧ s.WritesBoth := by
  refine ⟨by decide +kernel, by decide +kernel, fun h => ?_⟩
  have hdec := h .generic ⟨0, 0, 0⟩ [[⟨"DEC", 3, some 31, some "precision,scale"⟩]]
    ⟨"DEC", .decimal, some 31, false, true, none⟩ (by decide +kernel) rfl
  exact absurd hdec.1 (by decide)

end TypeTable

end ObjectSql
