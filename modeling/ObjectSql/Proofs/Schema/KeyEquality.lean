import Mathlib.Data.Prod.Lex
import Mathlib.Data.String.Basic
import ObjectSql.Proofs.Schema.Key

/-!
# Keys that count as the same

Two keys of one family count as the same if their columns are the same in whatever order. The sorted
names of the columns are the canonical form of all arrangements: keys are compared and hashed by
them.
-/
namespace ObjectSql.Key

/-- The table and the name of the column at each position, in the order of the key. -/
def places (k : Key) : List (String × String) :=
  k.columns.map fun c => (c.map fun c => (c.table, c.name)).getD ("", "?")

variable {k l : Key}

/-! ## The canonical form -/

theorem members_eq_iff : k.members = l.members ↔ k.places.Perm l.places := by
  let le (a b : String × String) : Bool := a.1 < b.1 || (a.1 == b.1 && !(b.2 < a.2))
  have hle (a b : String × String) : le a b ↔ toLex a ≤ toLex b := by
    simp [le, Prod.Lex.toLex_le_toLex, -String.lt_iff_ltb]
  have hperm (k : Key) : k.members.Perm k.places := List.mergeSort_perm k.places le
  have hsorted (k : Key) : k.members.Pairwise fun a b => toLex a ≤ toLex b := by
    refine (List.pairwise_mergeSort (fun a b c => ?_) (fun a b => ?_) k.places).imp (hle _ _).mp
    · rw [hle, hle, hle]
      exact le_trans
    · rw [Bool.or_eq_true, hle, hle]
      exact le_total _ _
  constructor
  · intro heq
    exact (hperm k).symm.trans (heq ▸ hperm l)
  · intro h
    refine List.Perm.eq_of_pairwise (fun a b _ _ hab hba => ?_) (hsorted k) (hsorted l)
      (((hperm k).trans h).trans (hperm l).symm)
    exact toLex_inj.mp (le_antisymm hab hba)

theorem size_eq_of_perm (h : k.places.Perm l.places) : k.size = l.size := by
  simpa [places, size] using h.length_eq

theorem same_iff : k.same l ↔ k.kind.family = l.kind.family ∧ k.places.Perm l.places := by
  simp only [same, Bool.and_eq_true, beq_iff_eq, members_eq_iff]
  constructor
  · rintro ⟨⟨hfamily, -⟩, hperm⟩
    exact ⟨hfamily, hperm⟩
  · rintro ⟨hfamily, hperm⟩
    -- the sizes are compared as well, but the canonical forms tell them already
    exact ⟨⟨hfamily, size_eq_of_perm hperm⟩, hperm⟩

theorem same_equivalence : Equivalence fun k l : Key => (k.same l : Prop) where
  refl k := same_iff.mpr ⟨rfl, .refl _⟩
  symm h := by
    obtain ⟨hfamily, hperm⟩ := same_iff.mp h
    exact same_iff.mpr ⟨hfamily.symm, hperm.symm⟩
  trans h h' := by
    obtain ⟨hfamily, hperm⟩ := same_iff.mp h
    obtain ⟨hfamily', hperm'⟩ := same_iff.mp h'
    exact same_iff.mpr ⟨hfamily.trans hfamily', hperm.trans hperm'⟩

/-- Positions that are not set may change their places as well. -/
theorem same_of_perm {columns : List (Option Column)} (h : columns.Perm k.columns) :
    k.same { k with columns } :=
  same_iff.mpr ⟨rfl, (h.map _).symm⟩

/-! ## Complete keys -/

theorem exists_completeColumns (h : k.isComplete) : ∃ cs, k.completeColumns = .ok cs :=
  ⟨_, if_pos h⟩

theorem places_of_completeColumns {cs : List Column} (h : k.completeColumns = .ok cs) :
    k.places = cs.map fun c => (c.table, c.name) := by
  rw [places, completeColumns_eq_ok h, List.map_map]
  rfl

/-! ## What is written to a hasher -/

theorem flatMap_texts_injective :
    Function.Injective fun ms : List (String × String) =>
      ms.flatMap fun m => [HashWrite.text m.1, .text m.2] := by
  intro ms ns h
  induction ms generalizing ns with
  | nil =>
    cases ns with
    | nil => rfl
    | cons n ns => cases h
  | cons m ms ih =>
    cases ns with
    | nil => cases h
    | cons n ns =>
      simp only [List.flatMap_cons, List.cons_append, List.nil_append, List.cons.injEq,
        HashWrite.text.injEq] at h
      obtain ⟨htable, hname, hrest⟩ := h
      rw [Prod.ext htable hname, ih hrest]

/-- Keys write the same to a hasher exactly if they count as the same. -/
theorem hashed_eq_iff : k.hashed = l.hashed ↔ k.same l := by
  rw [same_iff, ← members_eq_iff]
  constructor
  · intro h
    simp only [hashed, List.cons.injEq, HashWrite.family.injEq] at h
    exact ⟨h.1, flatMap_texts_injective h.2.2⟩
  · rintro ⟨hfamily, hmembers⟩
    rw [hashed, hashed, hfamily, hmembers]

theorem feed_eq_of_same (h : k.same l) {σ : Type} (write : σ → HashWrite → σ) (state : σ) :
    k.feed write state = l.feed write state := by
  rw [feed, feed, hashed_eq_iff.mpr h]

/-- The order of the columns is the only thing that keys that count as the same may differ in, and
neither a comparison nor a hasher sees it. -/
theorem same_up_to_order :
    (Equivalence fun k l : Key => (k.same l : Prop)) ∧
      (∀ (k : Key) (columns : List (Option Column)), columns.Perm k.columns →
        k.same { k with columns }) ∧
      (∀ k l : Key, k.isComplete → l.isComplete →
        ∃ cs ds, k.completeColumns = .ok cs ∧ l.completeColumns = .ok ds ∧
          (k.same l ↔ k.kind.family = l.kind.family ∧
            (cs.map fun c => (c.table, c.name)).Perm (ds.map fun c => (c.table, c.name)))) ∧
      ∀ k l : Key, k.same l →
        k.hashed = l.hashed ∧ hash k = hash l ∧
          ∀ {σ : Type} (write : σ → HashWrite → σ) (state : σ),
            k.feed write state = l.feed write state := by
  refine ⟨same_equivalence, fun k columns => same_of_perm, fun k l hk hl => ?_, fun k l h => ?_⟩
  · obtain ⟨cs, hcs⟩ := exists_completeColumns hk
    obtain ⟨ds, hds⟩ := exists_completeColumns hl
    refine ⟨cs, ds, hcs, hds, ?_⟩
    rw [same_iff, places_of_completeColumns hcs, places_of_completeColumns hds]
  · exact ⟨hashed_eq_iff.mpr h, feed_eq_of_same h _ _, feed_eq_of_same h⟩

def bookingKey (names : List String) : Key :=
  ⟨none, "BOOKING", .candidate,
    names.map fun name => some (.plain "BOOKING" name "i64" (.fixed "BIGINT" .bigInt))⟩

theorem same_up_to_order_booking :
    (bookingKey ["ROOM", "DAY"]).same (bookingKey ["DAY", "ROOM"]) ∧
      hash (bookingKey ["ROOM", "DAY"]) = hash (bookingKey ["DAY", "ROOM"]) ∧
      ¬(bookingKey ["ROOM", "DAY"]).same (bookingKey ["DAY", "ROOM", "DAY"]) := by
  obtain ⟨-, hperm, hcomplete, hhash⟩ := same_up_to_order
  have hsame : (bookingKey ["ROOM", "DAY"]).same (bookingKey ["DAY", "ROOM"]) :=
    hperm _ _ (.swap _ _ _)
  refine ⟨hsame, (hhash _ _ hsame).2.1, ?_⟩
  obtain ⟨cs, ds, hcs, hds, hiff⟩ :=
    hcomplete (bookingKey ["ROOM", "DAY"]) (bookingKey ["DAY", "ROOM", "DAY"]) rfl rfl
  cases hcs
  cases hds
  rw [hiff]
  rintro ⟨-, hcolumns⟩
  exact absurd hcolumns.length_eq (by decide)

end ObjectSql.Key
