import ObjectSql.Proofs.Except
import ObjectSql.Proofs.Schema.KeyEquality
import ObjectSql.Proofs.Text.Digits
import ObjectSql.Schema.Config
import ObjectSql.Schema.Writer

/-!
# Default names of keys

A key without a name is named after the first key of its list that counts as the same. Keys of one list
count as the same if they hold the same columns in whatever order, so the default names of a list are
pairwise distinct exactly if no two of its keys hold the same columns.
-/
namespace ObjectSql

/-! ## Numbers -/

namespace Table

/-- The keys of a family among which default names are numbered. -/
def keysOf (t : Table) : KeyFamily → List Key
  | .primary => t.primaryKey.toList
  | .candidate => t.candidateKeys
  | .foreign => t.foreignKeys
  | .index => t.indices

def unnamed (t : Table) (f : KeyFamily) : List Key :=
  (t.keysOf f).filter fun k => k.name.isNone && k.kind.family = f

theorem mem_unnamed {t : Table} {f : KeyFamily} {k : Key} :
    k ∈ t.unnamed f ↔ k ∈ t.keysOf f ∧ k.name = none ∧ k.kind.family = f := by
  simp [unnamed]

end Table

namespace Profile

variable {t : Table} {f : KeyFamily} {k l : Key}

theorem keyPosition_eq_iff {keys : List Key} (hk : k ∈ keys) (hl : l ∈ keys) :
    keyPosition keys k = keyPosition keys l ↔ k.same l := by
  have hfound {k : Key} (hk : k ∈ keys) : ∃ i : Nat, ∃ hi : i < keys.length,
      keyPosition keys k = i + 1 ∧ keys[i].same k := by
    have hself : k.same k := Key.same_iff.mpr ⟨rfl, .refl _⟩
    cases hfind : keys.findIdx? fun m => m.same k with
    | none => exact absurd hself (by simpa using List.findIdx?_eq_none_iff.mp hfind k hk)
    | some i =>
      obtain ⟨hi, hsame, -⟩ := List.findIdx?_eq_some_iff_getElem.mp hfind
      exact ⟨i, hi, by rw [keyPosition, hfind], hsame⟩
  constructor
  · intro heq
    -- the two keys are named after one and the same key
    obtain ⟨i, hi, hik, hsamek⟩ := hfound hk
    obtain ⟨j, hj, hjl, hsamel⟩ := hfound hl
    obtain rfl : i = j := by omega
    obtain ⟨hfamilyk, hpermk⟩ := Key.same_iff.mp hsamek
    obtain ⟨hfamilyl, hperml⟩ := Key.same_iff.mp hsamel
    exact Key.same_iff.mpr ⟨hfamilyk.symm.trans hfamilyl, hpermk.symm.trans hperml⟩
  · intro hsame
    obtain ⟨hfamily, hperm⟩ := Key.same_iff.mp hsame
    have halike : (fun m : Key => m.same k) = fun m => m.same l := by
      funext m
      rw [Bool.eq_iff_iff, Key.same_iff, Key.same_iff, hfamily]
      exact and_congr_right fun _ => ⟨fun h => h.trans hperm, fun h => h.trans hperm.symm⟩
    rw [keyPosition, keyPosition, halike]

/-- Between the name of the table and the number. -/
def keyMarker : KeyFamily → String
  | .primary => "_PK"
  | .candidate => "_U"
  | .foreign => "_FK"
  | .index => "_N"

theorem plainKeyName_unnamed (hname : k.name = none) (hfamily : k.kind.family = f)
    (hf : f ≠ .primary) :
    plainKeyName t k = t.name ++ keyMarker f ++ toString (keyPosition (t.keysOf f) k) := by
  subst hfamily
  unfold plainKeyName
  rw [hname]
  cases hkind : k.kind with
  | primary => exact absurd (by rw [hkind]; rfl) hf
  | _ => rfl

/-- The default names of two keys of a list are the same exactly if the keys hold the same columns. -/
theorem plainKeyName_eq_iff (hk : k ∈ t.unnamed f) (hl : l ∈ t.unnamed f) :
    plainKeyName t k = plainKeyName t l ↔ k.places.Perm l.places := by
  obtain ⟨hkmem, hkname, hkfamily⟩ := Table.mem_unnamed.mp hk
  obtain ⟨hlmem, hlname, hlfamily⟩ := Table.mem_unnamed.mp hl
  by_cases hf : f = .primary
  · subst hf
    obtain rfl : k = l :=
      Option.some.inj ((Option.mem_toList.mp hkmem).symm.trans (Option.mem_toList.mp hlmem))
    exact iff_of_true rfl (.refl _)
  · have hsame : k.same l ↔ k.places.Perm l.places := by
      rw [Key.same_iff, hkfamily, hlfamily]
      exact and_iff_right rfl
    rw [plainKeyName_unnamed hkname hkfamily hf, plainKeyName_unnamed hlname hlfamily hf,
      ← hsame, ← keyPosition_eq_iff hkmem hlmem]
    simp [Text.repr_injective.eq_iff]

/-- The default names of the keys of a family are pairwise distinct exactly if no two of these keys hold the same
columns in some order. -/
theorem defaultNames_nodup_iff (t : Table) (f : KeyFamily) :
    ((t.unnamed f).map (plainKeyName t)).Nodup ↔
      (t.unnamed f).Pairwise fun k l => ¬k.places.Perm l.places := by
  rw [List.Nodup, List.pairwise_map]
  exact List.Pairwise.iff_of_mem fun hk hl => not_congr (plainKeyName_eq_iff hk hl)

/-- Bookings have two keys over the same columns, two references from one column and two indices on it. -/
def bookingTable : TableConfig where
  name := "BOOKING"
  schema := none
  columns := [⟨"ROOM", "i64", none, none, none, false, false, none⟩,
    ⟨"DAY", "i64", none, none, none, false, false, none⟩,
    ⟨"PARTY", "i64", none, none, none, false, false, none⟩]
  primaryKey := none
  unique := [⟨none, ["ROOM", "DAY"]⟩, ⟨none, ["DAY", "ROOM"]⟩]
  indices := [⟨none, ["PARTY"], false⟩, ⟨none, ["PARTY"], true⟩]
  foreignKeys := [⟨none, ["PARTY"], "PERSON", ["ID"], none, none⟩,
    ⟨none, ["PARTY"], "COMPANY", ["ID"], none, none⟩]

/-- Each list of bookings has two constraints, and both are given one name. -/
theorem defaultNames_repeated :
    ∃ t, bookingTable.build (ofVendor .postgresql ⟨16, 0, 0⟩) = .ok t ∧
      ∀ f ∈ [KeyFamily.candidate, .foreign, .index],
        (t.unnamed f).length = 2 ∧ ¬((t.unnamed f).map (plainKeyName t)).Nodup := by
  have hbuild : (bookingTable.build (ofVendor .postgresql ⟨16, 0, 0⟩)).toOption.any fun t =>
      [KeyFamily.candidate, .foreign, .index].all fun f => (t.unnamed f).length == 2 &&
        (t.unnamed f).all fun k => (t.unnamed f).all fun l => k.places.isPerm l.places := by
    decide +kernel
  obtain ⟨t, hbuild, htwins⟩ := Except.exists_of_any hbuild
  refine ⟨t, hbuild, fun f hf => ?_⟩
  obtain ⟨hlength, halike⟩ := Bool.and_eq_true_iff.mp (List.all_eq_true.mp htwins f hf)
  obtain ⟨k, l, hkeys⟩ := List.length_eq_two.mp (eq_of_beq hlength)
  have hk : k ∈ t.unnamed f := by simp [hkeys]
  have hl : l ∈ t.unnamed f := by simp [hkeys]
  have hplaces : k.places.isPerm l.places :=
    List.all_eq_true.mp (List.all_eq_true.mp halike k hk) l hl
  have hnames := (plainKeyName_eq_iff hk hl).mpr (List.isPerm_iff.mp hplaces)
  rw [hkeys]
  simp [hnames]

end Profile

end ObjectSql
