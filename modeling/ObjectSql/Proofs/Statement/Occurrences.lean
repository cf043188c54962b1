import Mathlib.Data.List.Induction
import ObjectSql.Proofs.Statement.Layout

/-!
# Occurrences of members

The parameters of a statement are noted one after the other. Each adds its position to the occurrences of its
own key, behind those that it has: a parameter for column 0 begins an occurrence, a later column goes to the
latest one. Occurrences grow at their ends only, so what a step adds is found in the finished layout.
-/
namespace ObjectSql

/-- Whether no placeholder has been noted in a layout. -/
def Layout.Unbound (l : Layout) : Prop := ∀ e ∈ l.entries, e.2.params = []

def BoundParameter.positionsOf (key : MappingKey) (params : List BoundParameter) : List Nat :=
  ((params.zipIdx 1).filter (·.1.key = key)).map Prod.snd

namespace BoundParameter

variable {p : BoundParameter} {params before after : List BoundParameter} {key : MappingKey}

theorem positionsOf_sorted (key : MappingKey) (params : List BoundParameter) :
    (positionsOf key params).Pairwise (· < ·) := by
  have hall : ((params.zipIdx 1).map Prod.snd).Pairwise (· < ·) := by
    rw [List.zipIdx_map_snd]
    exact List.pairwise_lt_range' 1
  exact hall.sublist (List.filter_sublist.map Prod.snd)

/-- A parameter has the position behind those before it. -/
theorem position_mem_positionsOf (before : List BoundParameter) (p : BoundParameter)
    (after : List BoundParameter) : before.length + 1 ∈ positionsOf p.key (before ++ p :: after) := by
  have hmem : (p, before.length + 1) ∈ (before ++ p :: after).zipIdx 1 := by
    rw [List.zipIdx_append, List.zipIdx_cons, Nat.add_comm 1]
    simp
  exact List.mem_map.mpr ⟨_, List.mem_filter.mpr ⟨hmem, by simp⟩, rfl⟩

/-- The latest position of a key is that of its last parameter. -/
theorem positionsOf_latest (before : List BoundParameter) {q : BoundParameter} (hq : q.key = key)
    {between : List BoundParameter} (hbetween : ∀ r ∈ between, r.key ≠ key) :
    positionsOf key (before ++ q :: between) = positionsOf key before ++ [before.length + 1] := by
  have hnone : ((between.zipIdx (1 + before.length + 1)).filter (·.1.key = key)) = [] := by
    refine List.filter_eq_nil_iff.mpr fun e he => ?_
    simpa using hbetween e.1 (List.fst_mem_of_mem_zipIdx he)
  rw [positionsOf, List.zipIdx_append, List.zipIdx_cons, List.filter_append,
    List.filter_cons_of_pos (by simpa using hq), hnone, List.map_append, Nat.add_comm 1]
  rfl

end BoundParameter

namespace Layout

open BoundParameter

variable {l : Layout} {key : MappingKey} {params before after : List BoundParameter}
  {p : BoundParameter}

theorem Unbound.setColumns (h : l.Unbound) (key : MappingKey) (positions : List Nat) :
    (l.setColumns key positions).Unbound :=
  forall_modifyEntries (P := fun m => m.params = []) h rfl fun _ hm => hm

/-! ## Occurrences of a key -/

/-- The occurrences of a key, none if the layout does not have it. -/
def occurrences (l : Layout) (key : MappingKey) : List (List Nat) :=
  ((l.find? key).map MemberLayout.params).getD []

theorem flatten_occurrences (l : Layout) (key : MappingKey) :
    (l.occurrences key).flatten = l.placeholders key := by
  unfold occurrences Layout.placeholders
  cases l.find? key <;> rfl

theorem Unbound.occurrences (h : l.Unbound) (key : MappingKey) : l.occurrences key = [] := by
  unfold Layout.occurrences
  cases hfind : l.find? key with
  | none => rfl
  | some m =>
    obtain ⟨e, he, rfl⟩ := mem_of_find? hfind
    simp [h e he]

theorem Unbound.noted (h : l.Unbound) : l.noted = [] :=
  List.flatMap_eq_nil_iff.mpr fun e he => by rw [h e he, List.flatten_nil]

/-- A key has exactly the placeholders that have been noted for it, in their order. -/
theorem Unbound.placeholders_recordParameters (h : l.Unbound) (hl : l.Sorted)
    (params : List BoundParameter) (key : MappingKey) :
    (l.recordParameters params).placeholders key = BoundParameter.positionsOf key params := by
  rw [recordParameters, placeholders_recordFrom params hl, ← flatten_occurrences, h.occurrences,
    List.flatten_nil, List.nil_append]
  rfl

/-! ## One parameter more -/

theorem Sorted.recordFrom (h : l.Sorted) (params : List BoundParameter) (position : Nat) :
    (l.recordFrom position params).Sorted := by
  induction params generalizing l position with
  | nil => exact h
  | cons p ps ih => exact ih (h.modify _ _) (position + 1)

theorem Sorted.recordParameters (h : l.Sorted) (params : List BoundParameter) :
    (l.recordParameters params).Sorted := h.recordFrom params 1

theorem recordFrom_append (l : Layout) (position : Nat) (params params' : List BoundParameter) :
    l.recordFrom position (params ++ params') =
      (l.recordFrom position params).recordFrom (position + params.length) params' := by
  induction params generalizing l position with
  | nil => rfl
  | cons p ps ih =>
    rw [List.cons_append, recordFrom, ih, recordFrom, List.length_cons, Nat.add_right_comm]
    rfl

/-- The last parameter is noted at the end, under its key. -/
theorem recordParameters_concat (l : Layout) (params : List BoundParameter) (p : BoundParameter) :
    l.recordParameters (params ++ [p]) = (l.recordParameters params).modify p.key fun m =>
      m.addParam p.column (params.length + 1) := by
  rw [recordParameters, recordFrom_append, Nat.add_comm 1]
  rfl

theorem extendLast_concat (position : Nat) (occurrences : List (List Nat)) (o : List Nat) :
    MemberLayout.extendLast position (occurrences ++ [o]) = occurrences ++ [o ++ [position]] := by
  induction occurrences with
  | nil => rfl
  | cons o' rest ih => cases rest <;> simp_all [MemberLayout.extendLast]

/-- How the occurrences of a key change by a parameter: they stay if it has another key, a new one begins if
it is for column 0 or there is none, and else the latest one is extended. -/
theorem occurrences_concat (h : l.Sorted) (params : List BoundParameter) (p : BoundParameter)
    (key : MappingKey) : (l.recordParameters (params ++ [p])).occurrences key =
      if key = p.key then
        if 0 < p.column then
          MemberLayout.extendLast (params.length + 1) ((l.recordParameters params).occurrences key)
        else (l.recordParameters params).occurrences key ++ [[params.length + 1]]
      else (l.recordParameters params).occurrences key := by
  rw [recordParameters_concat, Layout.occurrences, find?_modify (h.recordParameters params)]
  by_cases hkey : key = p.key
  · subst hkey
    rw [if_pos rfl, if_pos rfl]
    unfold Layout.occurrences
    cases (l.recordParameters params).find? p.key <;> rfl
  · rw [if_neg hkey, if_neg hkey]
    rfl

/-- A new occurrence holds the position of its parameter. -/
theorem occurrences_begin (h : l.Sorted)
    (hbegins : p.column = 0 ∨ (l.recordParameters params).occurrences p.key = []) :
    (l.recordParameters (params ++ [p])).occurrences p.key =
      (l.recordParameters params).occurrences p.key ++ [[params.length + 1]] := by
  rw [occurrences_concat h, if_pos rfl]
  split
  · next hcolumn =>
    rw [hbegins.resolve_left (Nat.ne_of_gt hcolumn)]
    rfl
  · rfl

theorem occurrences_extend (h : l.Sorted) (hcolumn : 0 < p.column) {older : List (List Nat)}
    {latest : List Nat} (hlatest : (l.recordParameters params).occurrences p.key = older ++ [latest]) :
    (l.recordParameters (params ++ [p])).occurrences p.key =
      older ++ [latest ++ [params.length + 1]] := by
  rw [occurrences_concat h, if_pos rfl, if_pos hcolumn, hlatest, extendLast_concat]

/-- What happens to a key when a parameter is noted. -/
theorem occurrences_cases (h : l.Sorted) (params : List BoundParameter) (p : BoundParameter)
    (key : MappingKey) :
    (l.recordParameters (params ++ [p])).occurrences key = (l.recordParameters params).occurrences key ∨
    (l.recordParameters (params ++ [p])).occurrences key =
      (l.recordParameters params).occurrences key ++ [[params.length + 1]] ∨
    ∃ older latest, (l.recordParameters params).occurrences key = older ++ [latest] ∧
      (l.recordParameters (params ++ [p])).occurrences key =
        older ++ [latest ++ [params.length + 1]] := by
  by_cases hkey : key = p.key
  · subst hkey
    rcases List.eq_nil_or_concat ((l.recordParameters params).occurrences p.key) with
      hnil | ⟨older, latest, hlatest⟩
    · exact .inr (.inl (occurrences_begin h (.inr hnil)))
    · rw [List.concat_eq_append] at hlatest
      rcases Nat.eq_zero_or_pos p.column with hcolumn | hcolumn
      · exact .inr (.inl (occurrences_begin h (.inl hcolumn)))
      · exact .inr (.inr ⟨older, latest, hlatest, occurrences_extend h hcolumn hlatest⟩)
  · exact .inl ((occurrences_concat h params p key).trans (if_neg hkey))

/-! ## Runs of parameters -/

theorem ne_nil_of_mem_occurrences (h : l.Sorted) (hunbound : l.Unbound) (params : List BoundParameter)
    {o : List Nat} (ho : o ∈ (l.recordParameters params).occurrences key) : o ≠ [] := by
  induction params using List.reverseRecOn generalizing o with
  | nil => exact absurd (hunbound.occurrences key ▸ ho) List.not_mem_nil
  | append_singleton params p ih =>
    rcases occurrences_cases h params p key with hsame | hnew | ⟨older, latest, hlatest, hmore⟩
    · exact ih (hsame ▸ ho)
    · rw [hnew, List.mem_append, List.mem_singleton] at ho
      rcases ho with ho | rfl
      · exact ih ho
      · exact List.cons_ne_nil _ _
    · rw [hmore, List.mem_append, List.mem_singleton] at ho
      rcases ho with ho | rfl
      · exact ih (by rw [hlatest]; exact List.mem_append_left _ ho)
      · exact List.append_ne_nil_of_right_ne_nil _ (List.cons_ne_nil _ _)

/-- Occurrences only grow, each at its end. -/
theorem occurrences_grow (h : l.Sorted) (params after : List BoundParameter) {o : List Nat}
    (ho : o ∈ (l.recordParameters params).occurrences key) :
    ∃ o' ∈ (l.recordParameters (params ++ after)).occurrences key, o <+: o' := by
  induction after using List.reverseRecOn with
  | nil => exact ⟨o, by rwa [List.append_nil], List.prefix_rfl⟩
  | append_singleton after p ih =>
    obtain ⟨o', ho', hprefix⟩ := ih
    rw [← List.append_assoc]
    rcases occurrences_cases h (params ++ after) p key with hsame | hnew | ⟨older, latest, hlatest, hmore⟩
    · exact ⟨o', hsame ▸ ho', hprefix⟩
    · exact ⟨o', hnew ▸ List.mem_append_left _ ho', hprefix⟩
    · rw [hlatest, List.mem_append, List.mem_singleton] at ho'
      rw [hmore]
      rcases ho' with ho' | rfl
      · exact ⟨o', List.mem_append_left _ ho', hprefix⟩
      · exact ⟨_, List.mem_append_right _ (List.mem_singleton_self _),
          hprefix.trans (List.prefix_append _ _)⟩

/-- The latest occurrence ends with the latest position. -/
theorem eq_concat_of_flatten {occurrences : List (List Nat)} {positions : List Nat} {position : Nat}
    (h : occurrences.flatten = positions ++ [position]) (hne : ∀ o ∈ occurrences, o ≠ []) :
    ∃ older init, occurrences = older ++ [init ++ [position]] := by
  rcases List.eq_nil_or_concat occurrences with rfl | ⟨older, latest, rfl⟩
  · simp at h
  · rcases List.eq_nil_or_concat latest with rfl | ⟨init, last, rfl⟩
    · exact absurd rfl (hne [] (by simp))
    · simp only [List.concat_eq_append, List.flatten_append, List.flatten_singleton,
        ← List.append_assoc] at h ⊢
      exact ⟨older, init, by rw [List.append_inj_right' h rfl]⟩

variable {q : BoundParameter} {between : List BoundParameter}

/-- The occurrences of a key hold the positions of its parameters, in their order. -/
theorem flatten_occurrences_recordParameters (h : l.Sorted) (hunbound : l.Unbound)
    (params : List BoundParameter) (key : MappingKey) :
    ((l.recordParameters params).occurrences key).flatten = positionsOf key params :=
  (flatten_occurrences _ _).trans (hunbound.placeholders_recordParameters h params key)

theorem exists_begun (h : l.Sorted) (hunbound : l.Unbound)
    (hbegins : p.column = 0 ∨ ∀ q ∈ before, q.key ≠ p.key) (after : List BoundParameter) :
    ∃ rest, (before.length + 1) :: rest ∈
      (l.recordParameters (before ++ p :: after)).occurrences p.key := by
  have hempty : p.column = 0 ∨ (l.recordParameters before).occurrences p.key = [] := by
    refine hbegins.imp_right fun hnone => ?_
    rw [Layout.occurrences, find?_recordParameters h hnone]
    exact hunbound.occurrences p.key
  have hnew : [before.length + 1] ∈ (l.recordParameters (before ++ [p])).occurrences p.key := by
    rw [occurrences_begin h hempty]
    exact List.mem_append_right _ (List.mem_singleton_self _)
  obtain ⟨o, ho, rest, rfl⟩ := occurrences_grow h _ after hnew
  exact ⟨rest, by rwa [List.append_cons]⟩

theorem exists_continued (h : l.Sorted) (hunbound : l.Unbound) (hq : q.key = p.key)
    (hbetween : ∀ r ∈ between, r.key ≠ p.key) (hcolumn : 0 < p.column)
    (before after : List BoundParameter) :
    ∃ o ∈ (l.recordParameters (before ++ q :: (between ++ p :: after))).occurrences p.key,
      [before.length + 1, before.length + 1 + between.length + 1] <:+: o := by
  have hlatest := (flatten_occurrences_recordParameters h hunbound _ p.key).trans
    (positionsOf_latest before hq hbetween)
  obtain ⟨older, init, hsplit⟩ := eq_concat_of_flatten hlatest
    fun o ho => ne_nil_of_mem_occurrences h hunbound _ ho
  have hmore : init ++ [before.length + 1] ++ [(before ++ q :: between).length + 1] ∈
      (l.recordParameters (before ++ q :: between ++ [p])).occurrences p.key := by
    rw [occurrences_extend h hcolumn hsplit]
    exact List.mem_append_right _ (List.mem_singleton_self _)
  have hlength : (before ++ q :: between).length + 1 = before.length + 1 + between.length + 1 := by
    rw [List.length_append, List.length_cons]
    omega
  obtain ⟨o, ho, rest, rfl⟩ := occurrences_grow h _ after hmore
  exact ⟨_, by simpa using ho, init, rest, by rw [← hlength]; simp⟩

/-- How a layout tells the placeholders of a list of parameters, which are numbered from one. -/
structure Tells (l : Layout) (params : List BoundParameter) : Prop where
  /-- Each position stands in the layout once. -/
  once : l.noted.Perm (List.range' 1 params.length)
  /-- It stands under the key of its parameter. -/
  under : ∀ before p after, params = before ++ p :: after →
    ∃ o ∈ l.occurrences p.key, before.length + 1 ∈ o
  /-- Positions ascend within an occurrence, and from one occurrence of a key to the next. -/
  ascending : ∀ key, (l.occurrences key).flatten.Pairwise (· < ·)
  /-- A parameter for column 0 begins an occurrence, as does the first one of its key. -/
  begins : ∀ before p after, params = before ++ p :: after →
    p.column = 0 ∨ (∀ q ∈ before, q.key ≠ p.key) →
      ∃ rest, (before.length + 1) :: rest ∈ l.occurrences p.key
  /-- A parameter for a later column follows the latest one of its key, in the same occurrence. -/
  continues : ∀ before q between p after, params = before ++ q :: (between ++ p :: after) →
    q.key = p.key → (∀ r ∈ between, r.key ≠ p.key) → 0 < p.column →
      ∃ o ∈ l.occurrences p.key,
        [before.length + 1, before.length + 1 + between.length + 1] <:+: o
  width : l.paramWidth = params.length

/-- A list of parameters that is noted in a layout without placeholders is told by it, and the result
positions stay as they are. -/
theorem recordParameters_tells (h : l.Sorted) (hunbound : l.Unbound) (params : List BoundParameter) :
    (l.recordParameters params).Tells params ∧
      (∀ key, (l.recordParameters params).positions key = l.positions key) ∧
      (l.recordParameters params).resultMembers = l.resultMembers := by
  have hperm : (l.recordParameters params).noted.Perm (List.range' 1 params.length) := by
    have hfrom := recordFrom_perm params l 1
    rwa [hunbound.noted, List.nil_append] at hfrom
  have hflatten := flatten_occurrences_recordParameters h hunbound params
  refine ⟨⟨hperm, ?under, fun key => ?ascending, ?begins, ?continues, ?width⟩,
    positions_recordParameters h params, resultMembers_recordFrom params l 1⟩
  case under =>
    rintro before p after rfl
    exact List.mem_flatten.mp (hflatten p.key ▸ position_mem_positionsOf before p after)
  case ascending => exact hflatten key ▸ positionsOf_sorted key params
  case begins =>
    rintro before p after rfl hbegins
    exact exists_begun h hunbound hbegins after
  case continues =>
    rintro before q between p after rfl hq hbetween hcolumn
    exact exists_continued h hunbound hq hbetween hcolumn before after
  case width => exact hperm.length_eq.trans List.length_range'

def interleavedParameters : List BoundParameter :=
  [.deferred (.member 1) 0, .deferred (.member 3) 0, .deferred (.member 1) 1, .deferred .tenant 2,
    .deferred (.member 1) 0, .deferred (.member 3) 1]

def versionedLayout : Layout := (empty.setColumns (.member 3) [2, 3]).setColumns .version [1]

theorem recordParameters_tells_interleaved :
    (versionedLayout.Sorted ∧ versionedLayout.Unbound) ∧
      (versionedLayout.recordParameters interleavedParameters).Tells interleavedParameters ∧
      (versionedLayout.recordParameters interleavedParameters).positions (.member 3) = [2, 3] ∧
      [MappingKey.member 1, .member 3, .tenant].map
          (versionedLayout.recordParameters interleavedParameters).occurrences =
        [[[1, 3], [5]], [[2, 6]], [[4]]] := by
  have hempty : empty.Sorted ∧ empty.Unbound := ⟨.nil, fun _ he => nomatch he⟩
  have hsorted : versionedLayout.Sorted := (hempty.1.modify _ _).modify _ _
  have hunbound : versionedLayout.Unbound := (hempty.2.setColumns _ _).setColumns _ _
  obtain ⟨htells, hpositions, -⟩ := recordParameters_tells hsorted hunbound interleavedParameters
  exact ⟨⟨hsorted, hunbound⟩, htells, (hpositions _).trans (by decide), by decide⟩

end Layout

end ObjectSql
