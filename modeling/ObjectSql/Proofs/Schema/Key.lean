import Mathlib.Data.List.Basic
import ObjectSql.Schema.Key

/-!
# Keys that are filled out of order

An edit of a key appends a column or places one at a position. At an ordinal that a key can have it either
fails and leaves the key as it is or sets one position that was not set, so what is set stays set, whatever
edits follow.
-/
namespace ObjectSql.Key

/-- The column at a position; nothing where the position is not set or past the end. -/
def column? (k : Key) (i : Nat) : Option Column := k.columns[i]?.join

variable {k k' : Key} {c : Column} {i : Nat}

theorem column?_eq_none_iff :
    k.column? i = none ↔ k.size ≤ i ∨ k.columns[i]? = some none := by
  rw [column?, Option.join_eq_none_iff, List.getElem?_eq_none_iff, size]

theorem column?_eq_some_iff : k.column? i = some c ↔ k.columns[i]? = some (some c) :=
  Option.join_eq_some_iff

/-! ## Placing a column -/

/-- One key is another one with a column at a position. -/
structure Places (k : Key) (i : Nat) (c : Column) (k' : Key) : Prop where
  frame : { k' with columns := k.columns } = k
  size : k'.size = max k.size (i + 1)
  column? : ∀ j, k'.column? j = if j = i then some c else k.column? j

theorem append_places (k : Key) (c : Column) :
    k.Places k.size c { k with columns := k.columns ++ [some c] } where
  frame := rfl
  size := by simp [Key.size]
  column? j := by
    unfold Key.column? Key.size
    rcases Nat.lt_trichotomy j k.columns.length with hlt | rfl | hlt
    · rw [List.getElem?_append_left hlt, if_neg (Nat.ne_of_lt hlt)]
    · simp
    · rw [if_neg (Nat.ne_of_gt hlt), List.getElem?_eq_none (by simp; omega),
        List.getElem?_eq_none (Nat.le_of_lt hlt)]

theorem grow_size (k : Key) (i : Nat) : (k.grow i).size = max k.size (i + 1) := by
  simp only [grow, size, List.length_append, List.length_replicate]
  omega

theorem grow_column? (k : Key) (i j : Nat) : (k.grow i).column? j = k.column? j := by
  unfold column? grow
  by_cases hlt : j < k.columns.length
  · rw [List.getElem?_append_left hlt]
  · have hle : k.columns.length ≤ j := Nat.le_of_not_lt hlt
    rw [List.getElem?_append_right hle, List.getElem?_eq_none hle, List.getElem?_replicate]
    split <;> rfl

/-- A key does not grow for a position that it has. -/
theorem grow_eq_self (h : i < k.size) : k.grow i = k := by
  unfold grow
  rw [Nat.sub_eq_zero_of_le h, List.replicate_zero, List.append_nil]

theorem set_grow_places (k : Key) (i : Nat) (c : Column) :
    k.Places i c { k.grow i with columns := (k.grow i).columns.set i (some c) } where
  frame := rfl
  size := by
    rw [← grow_size, Key.size, List.length_set]
    rfl
  column? j := by
    have hlt : i < (k.grow i).columns.length := by
      have hsize := k.grow_size i
      unfold Key.size at hsize
      omega
    have hgrow := k.grow_column? i j
    unfold Key.column? at hgrow ⊢
    by_cases hj : j = i
    · subst hj
      rw [if_pos rfl, List.getElem?_set_self hlt]
      rfl
    · rw [if_neg hj, List.getElem?_set_ne (Ne.symm hj), hgrow]

/-! ## Results of edits -/

theorem addColumn_owned (h : c.table = k.table) :
    k.addColumn c = .ok { k with columns := k.columns ++ [some c] } := by
  rw [addColumn, checkOwner, if_pos h]
  rfl

theorem addColumn_foreign (h : c.table ≠ k.table) :
    k.addColumn c = .error (.columnNotInTable c.name c.table k.table) := by
  rw [addColumn, checkOwner, if_neg h]
  rfl

theorem setColumn_foreign (i : Nat) (h : c.table ≠ k.table) :
    k.setColumn i c = .refused k (.columnNotInTable c.name c.table k.table) := by
  rw [setColumn, checkOwner, if_neg h]

theorem setColumn_taken (h : c.table = k.table) (hi : (k.column? i).isSome) :
    k.setColumn i c = .refused k (.duplicateOrdinal k.describe i) := by
  obtain ⟨taken, htaken⟩ := Option.isSome_iff_exists.mp hi
  rw [column?_eq_some_iff] at htaken
  have hsize : i < k.size := (List.getElem?_eq_some_iff.mp htaken).1
  have hrange : ¬(k.size ≤ i ∧ maxSize ≤ i) := fun hover => Nat.not_le.mpr hsize hover.1
  rw [setColumn, checkOwner, if_pos h]
  simp only [if_neg hrange, grow_eq_self hsize, htaken]

theorem setColumn_overflow (h : c.table = k.table) (hover : k.size ≤ i ∧ maxSize ≤ i) :
    k.setColumn i c = .overflow := by
  rw [setColumn, checkOwner, if_pos h]
  exact if_pos hover

theorem setColumn_free (h : c.table = k.table) (hi : k.column? i = none)
    (hrange : ¬(k.size ≤ i ∧ maxSize ≤ i)) :
    k.setColumn i c = .placed { k.grow i with columns := (k.grow i).columns.set i (some c) } := by
  rw [setColumn, checkOwner, if_pos h]
  have hfree : (k.grow i).column? i = none := (k.grow_column? i i).trans hi
  simp only [if_neg hrange]
  split
  · next taken htaken =>
    rw [column?_eq_some_iff.mpr htaken] at hfree
    cases hfree
  · rfl

/-! ## Runs of edits -/

inductive Edit where
  | append (c : Column)
  | place (ordinal : Nat) (c : Column)

/-- Whether an edit is at the end or at an ordinal that a key can have. -/
def Edit.InRange : Edit → Prop
  | append _ => True
  | place ordinal _ => ordinal < maxSize

def edit (k : Key) : Edit → Placing
  | .append c =>
    match k.addColumn c with
    | .ok k' => .placed k'
    | .error e => .refused k e
  | .place ordinal c => k.setColumn ordinal c

def Placing.key? : Placing → Option Key
  | placed k | refused k _ => some k
  | overflow => none

/-- The key after edits one after the other, none of which overflows. -/
def edited (k : Key) (edits : List Edit) : Option Key :=
  edits.foldlM (fun k e => (k.edit e).key?) k

/-- An edit fails without a trace, or it sets a position that was not set, or it overflows. -/
theorem edit_cases (k : Key) (e : Edit) :
    (∃ error, k.edit e = .refused k error) ∨
      (∃ i c k', k.edit e = .placed k' ∧ c.table = k.table ∧ k.column? i = none ∧
        k.Places i c k') ∨
      k.edit e = .overflow ∧ ¬e.InRange := by
  cases e with
  | append c =>
    by_cases hc : c.table = k.table
    · refine .inr (.inl ⟨k.size, c, _, by rw [edit, addColumn_owned hc], hc, ?_, k.append_places c⟩)
      exact column?_eq_none_iff.mpr (.inl (Nat.le_refl _))
    · exact .inl ⟨_, by rw [edit, addColumn_foreign hc]⟩
  | place i c =>
    by_cases hc : c.table = k.table
    · cases hi : k.column? i with
      | none =>
        by_cases hover : k.size ≤ i ∧ maxSize ≤ i
        · exact .inr (.inr ⟨setColumn_overflow hc hover, Nat.not_lt.mpr hover.2⟩)
        · exact .inr (.inl ⟨i, c, _, setColumn_free hc hi hover, hc, hi, k.set_grow_places i c⟩)
      | some taken => exact .inl ⟨_, setColumn_taken hc (by rw [hi]; rfl)⟩
    · exact .inl ⟨_, setColumn_foreign i hc⟩

/-- What an edit leaves behind when it has not overflowed. -/
theorem key?_edit_cases {e : Edit} (h : (k.edit e).key? = some k') :
    k' = k ∨ ∃ i c, c.table = k.table ∧ k.column? i = none ∧ k.Places i c k' := by
  rcases k.edit_cases e with ⟨error, hfails⟩ | ⟨i, c, after, hplaced, hc, hi, hplaces⟩ | ⟨hover, -⟩
  · rw [hfails] at h
    cases h
    exact .inl rfl
  · rw [hplaced] at h
    cases h
    exact .inr ⟨i, c, hc, hi, hplaces⟩
  · rw [hover] at h
    cases h

theorem edited_cons (k : Key) (e : Edit) (edits : List Edit) :
    k.edited (e :: edits) = (k.edit e).key?.bind (·.edited edits) := List.foldlM_cons

/-- What every edit preserves is preserved by edits one after the other. -/
theorem edited_preserves {P : Key → Prop} {edits : List Edit}
    (hedit : ∀ {k k' : Key} {e : Edit}, (k.edit e).key? = some k' → P k → P k')
    (h : k.edited edits = some k') (hk : P k) : P k' := by
  induction edits generalizing k with
  | nil =>
    cases h
    exact hk
  | cons e edits ih =>
    rw [edited_cons, Option.bind_eq_some_iff] at h
    obtain ⟨next, hnext, hedits⟩ := h
    exact ih hedits (hedit hnext hk)

/-- A key with more positions, or with more of them set. -/
structure Extends (k k' : Key) : Prop where
  table : k'.table = k.table
  size : k.size ≤ k'.size
  column? : ∀ i c, k.column? i = some c → k'.column? i = some c

theorem Extends.refl (k : Key) : k.Extends k := ⟨rfl, Nat.le_refl _, fun _ _ h => h⟩

theorem Extends.trans {k'' : Key} (h : k.Extends k') (h' : k'.Extends k'') : k.Extends k'' :=
  ⟨h'.table.trans h.table, Nat.le_trans h.size h'.size,
    fun i c hi => h'.column? i c (h.column? i c hi)⟩

theorem Places.table (h : k.Places i c k') : k'.table = k.table := by
  have htable := congrArg Key.table h.frame
  exact htable

theorem Places.extends (h : k.Places i c k') (hi : k.column? i = none) : k.Extends k' := by
  refine ⟨h.table, h.size ▸ Nat.le_max_left _ _, fun j c' hj => ?_⟩
  rw [h.column?, if_neg, hj]
  rintro rfl
  rw [hi] at hj
  cases hj

theorem edit_extends {e : Edit} (h : (k.edit e).key? = some k') : k.Extends k' := by
  obtain rfl | ⟨i, c, -, hi, hplaces⟩ := key?_edit_cases h
  · exact .refl k'
  · exact hplaces.extends hi

theorem edited_extends {edits : List Edit} (h : k.edited edits = some k') : k.Extends k' :=
  edited_preserves (fun hedit hk => hk.trans (edit_extends hedit)) h (.refl k)

theorem exists_key?_edit (k : Key) {e : Edit} (h : e.InRange) : ∃ k', (k.edit e).key? = some k' := by
  rcases k.edit_cases e with ⟨error, hfails⟩ | ⟨i, c, next, hedit, -⟩ | ⟨-, hover⟩
  · exact ⟨k, by rw [hfails]; rfl⟩
  · exact ⟨next, by rw [hedit]; rfl⟩
  · exact absurd h hover

/-- Edits in range are done to the end. -/
theorem exists_edited (k : Key) {edits : List Edit} (h : ∀ e ∈ edits, e.InRange) :
    ∃ k', k.edited edits = some k' := by
  induction edits generalizing k with
  | nil => exact ⟨k, rfl⟩
  | cons e edits ih =>
    obtain ⟨he, hedits⟩ := List.forall_mem_cons.mp h
    obtain ⟨next, hedit⟩ := k.exists_key?_edit he
    obtain ⟨k', hk'⟩ := ih next hedits
    exact ⟨k', by rw [edited_cons, hedit]; exact hk'⟩

def Owned (k : Key) : Prop := ∀ i c, k.column? i = some c → c.table = k.table

theorem Owned.edit {e : Edit} (h : k.Owned) (hedit : (k.edit e).key? = some k') : k'.Owned := by
  obtain rfl | ⟨i, c, hc, -, hplaces⟩ := key?_edit_cases hedit
  · exact h
  · intro j c' hj
    rw [hplaces.column?] at hj
    rw [hplaces.table]
    split at hj
    · cases hj
      exact hc
    · exact h j c' hj

theorem Owned.edited {edits : List Edit} (h : k.Owned) (hedited : k.edited edits = some k') :
    k'.Owned := edited_preserves (fun hedit hk => hk.edit hedit) hedited h

theorem empty_owned (table : String) (kind : KeyKind) (name : Option String) :
    (empty table kind name).Owned := by
  intro i c hi
  cases hi

/-! ## Complete keys -/

theorem isComplete_iff : k.isComplete ↔ 0 < k.size ∧ ∀ i : Nat, k.columns[i]? ≠ some none := by
  have hall : k.columns.all Option.isSome ↔ ∀ i : Nat, k.columns[i]? ≠ some none := by
    rw [List.all_eq_true, ← not_iff_not]
    simp [List.mem_iff_getElem?]
  rw [isComplete, Bool.and_eq_true, hall, size]
  cases k.columns <;> simp

theorem completeColumns_eq_ok {cs : List Column} (h : k.completeColumns = .ok cs) :
    k.columns = cs.map some := by
  unfold completeColumns at h
  split at h
  · next hcomplete =>
    cases h
    have hset : k.columns.all Option.isSome := (Bool.and_eq_true_iff.mp hcomplete).2
    generalize k.columns = columns at hset
    induction columns with
    | nil => rfl
    | cons c columns ih =>
      obtain ⟨hc, hcolumns⟩ := Bool.and_eq_true_iff.mp hset
      obtain ⟨c, rfl⟩ := Option.isSome_iff_exists.mp hc
      simpa using ih hcolumns
  · cases h

theorem setColumn_placed_iff : (∃ k', k.setColumn i c = .placed k') ↔
    c.table = k.table ∧ k.column? i = none ∧ ¬(k.size ≤ i ∧ maxSize ≤ i) := by
  by_cases hc : c.table = k.table
  · cases hi : k.column? i with
    | none =>
      by_cases hover : k.size ≤ i ∧ maxSize ≤ i
      · simp [setColumn_overflow hc hover, hover]
      · simp [setColumn_free hc hi hover, hc, hover]
    | some taken => simp [setColumn_taken hc (Option.isSome_iff_exists.mpr ⟨taken, hi⟩)]
  · simp [setColumn_foreign i hc, hc]

/-- What holds of a key of a table whose columns have been edited and nothing else. -/
structure Filled (k : Key) (table : String) : Prop where
  owned : ∀ (i : Nat) c, k.columns[i]? = some (some c) → c.table = table
  /-- What is set stays set, and positions are not taken away. -/
  extends_edited : ∀ edits, (∀ e ∈ edits, e.InRange) →
    ∃ k', k.edited edits = some k' ∧ k.Extends k'
  addColumn_ok : ∀ c : Column, (∃ k', k.addColumn c = .ok k') ↔ c.table = table
  addColumn_places : ∀ c k', k.addColumn c = .ok k' → k.Places k.size c k'
  addColumn_error : ∀ c e, k.addColumn c = .error e → e = .columnNotInTable c.name c.table table
  setColumn_ok : ∀ i c, (∃ k', k.setColumn i c = .placed k') ↔
    c.table = table ∧ (k.size ≤ i ∧ i < maxSize ∨ k.columns[i]? = some none)
  setColumn_places : ∀ i c k', k.setColumn i c = .placed k' → k.Places i c k'
  setColumn_error : ∀ i c k' e, k.setColumn i c = .refused k' e →
    c.table ≠ table ∧ e = .columnNotInTable c.name c.table table ∨
      c.table = table ∧ (k.column? i).isSome ∧ e = .duplicateOrdinal k.describe i
  /-- An edit that fails changes nothing. -/
  edit_fails : ∀ e k' error, k.edit e = .refused k' error → k' = k
  completeColumns_ok : (∃ cs, k.completeColumns = .ok cs) ↔
    0 < k.size ∧ ∀ i : Nat, k.columns[i]? ≠ some none
  completeColumns_eq : ∀ cs, k.completeColumns = .ok cs → k.columns = cs.map some

theorem Owned.filled (h : k.Owned) : k.Filled k.table where
  owned i c hi := h i c (column?_eq_some_iff.mpr hi)
  extends_edited edits hrange := by
    obtain ⟨k', hk'⟩ := k.exists_edited hrange
    exact ⟨k', hk', edited_extends hk'⟩
  addColumn_ok c := by
    by_cases hc : c.table = k.table
    · simp [addColumn_owned hc, hc]
    · simp [addColumn_foreign hc, hc]
  addColumn_places c k' hadd := by
    by_cases hc : c.table = k.table
    · cases (addColumn_owned hc).symm.trans hadd
      exact k.append_places c
    · cases (addColumn_foreign hc).symm.trans hadd
  addColumn_error c e hadd := by
    by_cases hc : c.table = k.table
    · cases (addColumn_owned hc).symm.trans hadd
    · cases (addColumn_foreign hc).symm.trans hadd
      rfl
  setColumn_ok i c := by
    have hset : k.columns[i]? = some none → i < k.size := fun hnone =>
      (List.getElem?_eq_some_iff.mp hnone).1
    rw [setColumn_placed_iff, column?_eq_none_iff]
    grind
  setColumn_places i c k' hset := by
    obtain ⟨hc, hi, hrange⟩ := setColumn_placed_iff.mp ⟨k', hset⟩
    cases (setColumn_free hc hi hrange).symm.trans hset
    exact k.set_grow_places i c
  setColumn_error i c k' e hset := by
    by_cases hc : c.table = k.table
    · cases hi : k.column? i with
      | some taken =>
        cases (setColumn_taken hc (by rw [hi]; rfl)).symm.trans hset
        exact .inr ⟨hc, rfl, rfl⟩
      | none =>
        by_cases hover : k.size ≤ i ∧ maxSize ≤ i
        · cases (setColumn_overflow hc hover).symm.trans hset
        · cases (setColumn_free hc hi hover).symm.trans hset
    · cases (setColumn_foreign i hc).symm.trans hset
      exact .inl ⟨hc, rfl⟩
  edit_fails e k' error herror := by
    rcases k.edit_cases e with ⟨_, hfails⟩ | ⟨i, c, after, hedit, -⟩ | ⟨hover, -⟩
    · cases hfails.symm.trans herror
      rfl
    · cases hedit.symm.trans herror
    · cases hover.symm.trans herror
  completeColumns_ok := by
    rw [← isComplete_iff]
    unfold completeColumns
    split <;> simp_all
  completeColumns_eq _ := completeColumns_eq_ok

/-- However the columns of a key are appended and placed, it holds columns of its own table, keeps
those it has and takes just what fits. -/
theorem edited_filled (table : String) (kind : KeyKind) (name : Option String) (edits : List Edit)
    (h : ∀ e ∈ edits, e.InRange) :
    ∃ k, (empty table kind name).edited edits = some k ∧ k.Filled table := by
  obtain ⟨k, hk⟩ := (empty table kind name).exists_edited h
  have hfilled := ((empty_owned table kind name).edited hk).filled
  rw [(edited_extends hk).table] at hfilled
  exact ⟨k, hk, hfilled⟩

def bookingColumn (name : String) : Column := .plain "BOOKING" name "i64" (.fixed "BIGINT" .bigInt)

def bookingEdits : List Edit :=
  [.place 1 (bookingColumn "DAY"), .append (bookingColumn "HOUR"), .place 0 (bookingColumn "ROOM")]

theorem edited_filled_booking :
    (∀ e ∈ bookingEdits, e.InRange) ∧
      ∃ k, (empty "BOOKING" .primary none).edited bookingEdits = some k ∧ k.Filled "BOOKING" ∧
        k.columns = ["ROOM", "DAY", "HOUR"].map fun name => some (bookingColumn name) := by
  have hrange : ∀ e ∈ bookingEdits, e.InRange := by
    simp [bookingEdits, Edit.InRange, maxSize]
  obtain ⟨k, hk, hfilled⟩ := edited_filled "BOOKING" .primary none bookingEdits hrange
  refine ⟨hrange, k, hk, hfilled, ?_⟩
  cases hk.symm.trans rfl
  rfl

/-- The last number of 64 bits is past the end of every key, and no key takes a column there. -/
theorem setColumn_last_ordinal :
    (bookingColumn "ROOM").table = "BOOKING" ∧ (empty "BOOKING" .primary none).size ≤ 0xFFFFFFFFFFFFFFFF ∧
      ¬∃ k, (empty "BOOKING" .primary none).setColumn (0xFFFFFFFFFFFFFFFF) (bookingColumn "ROOM") =
        .placed k := by
  refine ⟨rfl, Nat.zero_le _, fun ⟨k, hplaced⟩ => ?_⟩
  cases (setColumn_overflow rfl ⟨Nat.zero_le _, Nat.le_refl maxSize⟩).symm.trans hplaced

end ObjectSql.Key
