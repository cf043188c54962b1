import Mathlib.Data.List.Basic
import ObjectSql.Statement.Layout

/-!
# Layouts

Noting a placeholder adds one position to the layout, whatever occurrence it falls to, so a list of
placeholders adds as many positions as it is long. Entries stand in the order of their keys, so a
change of one key leaves what is found for the others.
-/
namespace ObjectSql

namespace MemberLayout

theorem extendLast_flatten (position : Nat) (occurrences : List (List Nat)) :
    (extendLast position occurrences).flatten = occurrences.flatten ++ [position] := by
  fun_induction extendLast position occurrences with
  | case1 => rfl
  | case2 occurrence => simp
  | case3 occurrence rest _ ih => rw [List.flatten_cons, ih, List.flatten_cons, List.append_assoc]

theorem addParam_flatten (m : MemberLayout) (column position : Nat) :
    (m.addParam column position).params.flatten = m.params.flatten ++ [position] := by
  unfold addParam
  split
  · exact extendLast_flatten position m.params
  · simp

end MemberLayout

namespace Layout

/-- The placeholder positions that are noted, over all entries. -/
def noted (l : Layout) : List Nat := l.entries.flatMap fun e => e.2.params.flatten

/-- Positions that are added to one entry are added to those of all entries. -/
theorem modifyEntries_perm (key : MappingKey) {f : MemberLayout → MemberLayout} {added : List Nat}
    (hf : ∀ m, (f m).params.flatten = m.params.flatten ++ added)
    (entries : List (MappingKey × MemberLayout)) :
    ((modifyEntries key f entries).flatMap fun e => e.2.params.flatten).Perm
      ((entries.flatMap fun e => e.2.params.flatten) ++ added) := by
  have hempty : (f .empty).params.flatten = added := (hf .empty).trans (List.nil_append added)
  fun_induction modifyEntries key f entries with
  | case1 => simp [hempty]
  | case2 m rest =>
    rw [List.flatMap_cons, List.flatMap_cons, hf, List.append_assoc, List.append_assoc]
    exact List.perm_append_comm.append_left _
  | case3 k m rest =>
    rw [List.flatMap_cons, hempty]
    exact List.perm_append_comm
  | case4 k m rest _ _ ih =>
    rw [List.flatMap_cons, List.flatMap_cons, List.append_assoc]
    exact ih.append_left _

/-- Placeholders that are noted have the next positions. -/
theorem recordFrom_perm (params : List BoundParameter) (l : Layout) (position : Nat) :
    (l.recordFrom position params).noted.Perm (l.noted ++ List.range' position params.length) := by
  induction params generalizing l position with
  | nil => simp [recordFrom]
  | cons p ps ih =>
    have hstep : (l.modify p.key fun m => m.addParam p.column position).noted.Perm
        (l.noted ++ [position]) :=
      modifyEntries_perm p.key (fun m => m.addParam_flatten p.column position) l.entries
    rw [recordFrom, List.length_cons, List.range'_succ, List.append_cons]
    exact (ih _ _).trans (hstep.append_right _)

theorem recordFrom_width (params : List BoundParameter) (l : Layout) (position : Nat) :
    (l.recordFrom position params).paramWidth = l.paramWidth + params.length :=
  (recordFrom_perm params l position).length_eq.trans (by rw [List.length_append, List.length_range']; rfl)

/-- A new layout has as many placeholder positions as there are placeholders. -/
theorem recordParameters_width (params : List BoundParameter) :
    (Layout.empty.recordParameters params).paramWidth = params.length := by
  have hempty : Layout.empty.paramWidth = 0 := rfl
  rw [recordParameters, recordFrom_width, hempty, Nat.zero_add]

end Layout

/-! ## Looking up keys -/

theorem lookup_cons_eq {α β : Type} [DecidableEq α] (k k' : α) (b : β) (rest : List (α × β)) :
    List.lookup k ((k', b) :: rest) = if k = k' then some b else rest.lookup k := by
  rw [List.lookup_cons]
  by_cases hk : k = k'
  · simp [hk]
  · rw [if_neg hk, beq_false_of_ne hk]

namespace MappingKey

variable {k l m : MappingKey}

theorem before_iff : k.before l ↔
    k.rank.1 < l.rank.1 ∨ k.rank.1 = l.rank.1 ∧ k.rank.2 < l.rank.2 := by
  simp [before]

theorem rank_injective (h : k.rank = l.rank) : k = l := by
  cases k <;> cases l <;> simp_all [rank]

theorem before_trans (hkl : k.before l) (hlm : l.before m) : k.before m := by
  rw [before_iff] at *
  omega

theorem ne_of_before (h : k.before l) : k ≠ l := by
  rintro rfl
  rw [before_iff] at h
  omega

theorem before_of_not (hne : k ≠ l) (h : ¬l.before k) : k.before l := by
  rw [before_iff] at *
  have hrank : ¬(k.rank.1 = l.rank.1 ∧ k.rank.2 = l.rank.2) := fun hr =>
    hne (rank_injective (Prod.ext hr.1 hr.2))
  omega

end MappingKey

namespace Layout

/-- The entries stand in the order of their keys. -/
def Sorted (l : Layout) : Prop := l.entries.Pairwise fun e e' => e.1.before e'.1

variable {key k : MappingKey} {f : MemberLayout → MemberLayout}
  {entries : List (MappingKey × MemberLayout)} {l : Layout}

theorem key_of_mem_modify {e : MappingKey × MemberLayout} (h : e ∈ modifyEntries key f entries) :
    e.1 = key ∨ ∃ e' ∈ entries, e'.1 = e.1 := by
  fun_induction modifyEntries key f entries with
  | case1 => simp_all
  | case2 => grind
  | case3 => grind
  | case4 => grind

theorem modifyEntries_sorted (h : entries.Pairwise fun e e' => e.1.before e'.1) :
    (modifyEntries key f entries).Pairwise fun e e' => e.1.before e'.1 := by
  fun_induction modifyEntries key f entries with
  | case1 => simp
  | case2 m rest => simpa using h
  | case3 k m rest hne hbefore =>
    refine List.pairwise_cons.mpr ⟨fun e he => ?_, h⟩
    rcases List.mem_cons.mp he with rfl | he
    · exact hbefore
    · exact MappingKey.before_trans hbefore ((List.pairwise_cons.mp h).1 e he)
  | case4 k m rest hne hbefore ih =>
    obtain ⟨hk, hrest⟩ := List.pairwise_cons.mp h
    refine List.pairwise_cons.mpr ⟨fun e he => ?_, ih hrest⟩
    rcases key_of_mem_modify he with hkey | ⟨e', he', heq⟩
    · exact hkey ▸ MappingKey.before_of_not hne (by simpa using hbefore)
    · exact heq ▸ hk e' he'

theorem Sorted.modify (h : l.Sorted) (key : MappingKey) (f : MemberLayout → MemberLayout) :
    (l.modify key f).Sorted := modifyEntries_sorted h

theorem lookup_of_before (h : ∀ e ∈ entries, key.before e.1) : entries.lookup key = none := by
  rw [List.lookup_eq_none_iff]
  intro e he
  simpa using MappingKey.ne_of_before (h e he)

theorem lookup_modify (h : entries.Pairwise fun e e' => e.1.before e'.1) :
    (modifyEntries key f entries).lookup k =
      if k = key then some (f ((entries.lookup key).getD .empty)) else entries.lookup k := by
  fun_induction modifyEntries key f entries with
  | case1 => simp [lookup_cons_eq]
  | case2 m rest =>
    rw [lookup_cons_eq, lookup_cons_eq, lookup_cons_eq]
    by_cases hk : k = key <;> simp [hk]
  | case3 k' m rest hne hbefore =>
    have hall : ∀ e ∈ (k', m) :: rest, key.before e.1 := by
      intro e he
      rcases List.mem_cons.mp he with rfl | he
      · exact hbefore
      · exact MappingKey.before_trans hbefore ((List.pairwise_cons.mp h).1 e he)
    rw [lookup_of_before hall, lookup_cons_eq, Option.getD_none]
  | case4 k' m rest hne hbefore ih =>
    rw [lookup_cons_eq, lookup_cons_eq, lookup_cons_eq, ih (List.pairwise_cons.mp h).2,
      if_neg (Ne.symm hne)]
    by_cases hk : k = key
    · rw [if_pos hk, if_pos hk, if_neg (hk ▸ Ne.symm hne)]
    · rw [if_neg hk, if_neg hk]

theorem find?_modify (h : l.Sorted) : (l.modify key f).find? k =
    if k = key then some (f ((l.find? key).getD .empty)) else l.find? k := lookup_modify h

theorem positions_setColumns (h : l.Sorted) (key k : MappingKey) (positions : List Nat) :
    (l.setColumns key positions).positions k = if k = key then positions else l.positions k := by
  rw [Layout.positions, setColumns, find?_modify h]
  by_cases hk : k = key <;> simp [hk, Layout.positions]

theorem positions_recordFrom (params : List BoundParameter) (h : l.Sorted) (position : Nat)
    (k : MappingKey) : (l.recordFrom position params).positions k = l.positions k := by
  induction params generalizing l position with
  | nil => rfl
  | cons p ps ih =>
    rw [recordFrom, ih (h.modify _ _), Layout.positions, find?_modify h]
    by_cases hk : k = p.key
    · subst hk
      cases hfind : l.find? p.key <;>
        simp [hfind, Layout.positions, MemberLayout.addParam, MemberLayout.empty]
    · simp [hk, Layout.positions]

/-- Noting placeholders leaves the result positions. -/
theorem positions_recordParameters (h : l.Sorted) (params : List BoundParameter) (k : MappingKey) :
    (l.recordParameters params).positions k = l.positions k := positions_recordFrom params h 1 k

/-- A member without result columns is none of the members that have them. -/
theorem resultMembers_modify (hf : ∀ m, (f m).columns = m.columns) (l : Layout) (key : MappingKey) :
    (l.modify key f).resultMembers = l.resultMembers := by
  obtain ⟨entries⟩ := l
  have hempty : (f .empty).columns = [] := hf .empty
  simp only [resultMembers, modify]
  fun_induction modifyEntries key f entries with
  | case1 => cases key <;> simp [hempty]
  | case2 m rest => cases key <;> simp [List.filterMap_cons, hf]
  | case3 => cases key <;> simp [List.filterMap_cons, hempty]
  | case4 k m rest _ _ ih => rw [List.filterMap_cons, List.filterMap_cons, ih]

theorem resultMembers_recordFrom (params : List BoundParameter) (l : Layout) (position : Nat) :
    (l.recordFrom position params).resultMembers = l.resultMembers := by
  induction params generalizing l position with
  | nil => rfl
  | cons p ps ih =>
    have hcolumns (m : MemberLayout) : (m.addParam p.column position).columns = m.columns := rfl
    rw [recordFrom, ih, resultMembers_modify hcolumns]

theorem find?_recordFrom (params : List BoundParameter) (h : l.Sorted) (position : Nat)
    (hk : ∀ p ∈ params, p.key ≠ k) : (l.recordFrom position params).find? k = l.find? k := by
  induction params generalizing l position with
  | nil => rfl
  | cons p ps ih =>
    rw [recordFrom, ih (h.modify _ _) _ fun q hq => hk q (List.mem_cons_of_mem p hq),
      find?_modify h, if_neg (Ne.symm (hk p List.mem_cons_self))]

/-- Noting placeholders leaves the entries of other keys. -/
theorem find?_recordParameters (h : l.Sorted) {params : List BoundParameter}
    (hk : ∀ p ∈ params, p.key ≠ k) : (l.recordParameters params).find? k = l.find? k :=
  find?_recordFrom params h 1 hk

/-! ## Placeholder positions -/

def placeholders (l : Layout) (key : MappingKey) : List Nat :=
  ((l.find? key).map fun m => m.params.flatten).getD []

/-- A new placeholder takes its position after those that its key has. -/
theorem placeholders_recordFrom (params : List BoundParameter) (h : l.Sorted) (position : Nat)
    (k : MappingKey) : (l.recordFrom position params).placeholders k =
      l.placeholders k ++ ((params.zipIdx position).filter (·.1.key = k)).map Prod.snd := by
  induction params generalizing l position with
  | nil => simp [recordFrom]
  | cons p ps ih =>
    rw [recordFrom, ih (h.modify _ _), Layout.placeholders, find?_modify h]
    by_cases hk : k = p.key
    · subst hk
      cases hfind : l.find? p.key <;>
        simp [hfind, Layout.placeholders, MemberLayout.addParam_flatten, MemberLayout.empty]
    · simp [hk, Ne.symm hk, Layout.placeholders]

/-! ## All entries -/

variable {P : MemberLayout → Prop}

theorem forall_modifyEntries (h : ∀ e ∈ entries, P e.2) (hempty : P (f .empty))
    (hf : ∀ m, P m → P (f m)) : ∀ e ∈ modifyEntries key f entries, P e.2 := by
  fun_induction modifyEntries key f entries with
  | case1 => simpa using hempty
  | case2 m rest =>
    obtain ⟨hm, hrest⟩ := List.forall_mem_cons.mp h
    exact List.forall_mem_cons.mpr ⟨hf m hm, hrest⟩
  | case3 => exact List.forall_mem_cons.mpr ⟨hempty, h⟩
  | case4 k m rest _ _ ih =>
    obtain ⟨hm, hrest⟩ := List.forall_mem_cons.mp h
    exact List.forall_mem_cons.mpr ⟨hm, ih hrest⟩

theorem forall_setColumns {Q : List Nat → Prop} (h : ∀ e ∈ l.entries, Q e.2.columns)
    {positions : List Nat} (hpositions : Q positions) (key : MappingKey) :
    ∀ e ∈ (l.setColumns key positions).entries, Q e.2.columns :=
  forall_modifyEntries (P := fun m => Q m.columns) h hpositions fun _ _ => hpositions

/-- Noting placeholders adds entries without columns at most. -/
theorem forall_recordParameters {Q : List Nat → Prop} (h : ∀ e ∈ l.entries, Q e.2.columns)
    (hempty : Q []) (params : List BoundParameter) :
    ∀ e ∈ (l.recordParameters params).entries, Q e.2.columns := by
  have hfrom (position : Nat) : ∀ e ∈ (l.recordFrom position params).entries, Q e.2.columns := by
    induction params generalizing l position with
    | nil => exact h
    | cons p ps ih =>
      have hstep : ∀ e ∈ (l.modify p.key fun m => m.addParam p.column position).entries,
          Q e.2.columns :=
        forall_modifyEntries (P := fun m => Q m.columns) h hempty fun _ hm => hm
      exact ih hstep (position + 1)
  exact hfrom 1

theorem mem_of_find? {m : MemberLayout} (h : l.find? k = some m) : ∃ e ∈ l.entries, e.2 = m := by
  obtain ⟨before, after, hsplit, -⟩ := List.lookup_eq_some_iff.mp h
  exact ⟨(k, m), by rw [hsplit]; simp, rfl⟩

theorem exists_find? {e : MappingKey × MemberLayout} (he : e ∈ l.entries) :
    ∃ m, l.find? e.1 = some m := by
  rw [← Option.ne_none_iff_exists', Layout.find?, Ne, List.lookup_eq_none_iff]
  intro hall
  simpa using hall e he

theorem mem_positions {n : Nat} (h : n ∈ l.positions k) : ∃ e ∈ l.entries, n ∈ e.2.columns := by
  unfold Layout.positions at h
  cases hfind : l.find? k with
  | none => simp [hfind] at h
  | some m =>
    obtain ⟨e, he, rfl⟩ := mem_of_find? hfind
    exact ⟨e, he, by simpa [hfind] using h⟩

/-! ## Numbers of columns -/

/-- Whether a key has an entry with a number of result columns. -/
def HasColumns (l : Layout) (k : MappingKey) (n : Nat) : Prop :=
  ∃ m, l.find? k = some m ∧ m.columns.length = n

variable {n : Nat}

theorem HasColumns.length_positions (h : l.HasColumns k n) : (l.positions k).length = n := by
  obtain ⟨m, hfind, hlength⟩ := h
  simpa [Layout.positions, hfind] using hlength

theorem hasColumns_setColumns (h : l.Sorted) (key : MappingKey) (positions : List Nat) :
    (l.setColumns key positions).HasColumns key positions.length :=
  ⟨_, (find?_modify h).trans (if_pos rfl), rfl⟩

theorem HasColumns.recordFrom (params : List BoundParameter) (h : l.Sorted) (hk : l.HasColumns k n)
    (position : Nat) : (l.recordFrom position params).HasColumns k n := by
  induction params generalizing l position with
  | nil => exact hk
  | cons p ps ih =>
    refine ih (h.modify _ _) ?_ (position + 1)
    obtain ⟨m, hfind, hlength⟩ := hk
    by_cases hkey : k = p.key
    · refine ⟨_, (find?_modify h).trans (if_pos hkey), ?_⟩
      rw [← hkey, hfind]
      exact hlength
    · exact ⟨m, (find?_modify h).trans ((if_neg hkey).trans hfind), hlength⟩

/-- Noting placeholders keeps the entries that there are. -/
theorem HasColumns.recordParameters (h : l.Sorted) (hk : l.HasColumns k n)
    (params : List BoundParameter) : (l.recordParameters params).HasColumns k n :=
  hk.recordFrom params h 1

end Layout

/-! ## Related layouts -/

namespace ClassLayout

variable {number n : Nat} {child : ClassLayout} {children : List (Nat × ClassLayout)}

theorem mem_insertChild {e : Nat × ClassLayout} (h : e ∈ insertChild number child children) :
    e = (number, child) ∨ e ∈ children := by
  fun_induction insertChild number child children with
  | case1 => simpa using h
  | case2 => grind
  | case3 => grind
  | case4 => grind

theorem lookup_insertChild : (insertChild number child children).lookup n =
    if n = number then some child else children.lookup n := by
  fun_induction insertChild number child children with
  | case1 => exact lookup_cons_eq n number child []
  | case2 c rest =>
    rw [lookup_cons_eq, lookup_cons_eq]
    by_cases hn : n = number <;> simp [hn]
  | case3 => rw [lookup_cons_eq]
  | case4 m c rest hne _ ih =>
    rw [lookup_cons_eq, lookup_cons_eq, ih]
    by_cases hm : n = m
    · rw [if_pos hm, if_pos hm, if_neg (hm ▸ hne)]
    · rw [if_neg hm, if_neg hm]

theorem mem_of_child? {l : ClassLayout} (h : l.child? number = some child) :
    (number, child) ∈ l.children := by
  obtain ⟨before, after, hsplit, -⟩ := List.lookup_eq_some_iff.mp h
  simp [hsplit]

theorem child?_addChild (l : ClassLayout) (number n : Nat) (child : ClassLayout) :
    (l.addChild number child).child? n = if n = number then some child else l.child? n :=
  lookup_insertChild

end ClassLayout

end ObjectSql
