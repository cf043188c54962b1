import Mathlib.Algebra.Ring.Nat
import Mathlib.Data.List.Basic
import ObjectSql.Text.Casing
import ObjectSql.Text.Digits

/-!
# Letter case and length

A text in one case is put together from what its characters become, each at least one character. So a
text never gets shorter, and how long it gets is told character by character. Only which sigma stands for
a capital one depends on the characters around it. On ASCII the full mapping to upper case is the mapping
of the 26 letters. Lower case neither brings a quote into a text nor takes one out of it.
-/
namespace ObjectSql.Text

variable {c : Char}

/-! ## ASCII -/

/-- What holds of the 128 characters of ASCII holds of each. -/
theorem forall_ascii {P : Char → Prop} (h : ∀ n < 0x80, P (Char.ofNat n)) (hc : c.toNat < 0x80) :
    P c := by
  have hP := h c.toNat hc
  rwa [Char.ofNat_toNat] at hP

theorem asciiLowerChar_of_le (h : 0x80 ≤ c.toNat) : asciiLowerChar c = c := by
  have hupper : ¬('A' ≤ c ∧ c ≤ 'Z') := by
    rintro ⟨-, hle⟩
    have hle : c.toNat ≤ 'Z'.toNat := hle
    exact absurd (Nat.le_trans h hle) (by decide)
  simp [asciiLowerChar, hupper]

theorem asciiUpperChar_asciiLowerChar (c : Char) :
    asciiUpperChar (asciiLowerChar c) = asciiUpperChar c := by
  by_cases hc : c.toNat < 0x80
  · exact forall_ascii (P := fun c => asciiUpperChar (asciiLowerChar c) = asciiUpperChar c)
      (by decide) hc
  · rw [asciiLowerChar_of_le (Nat.le_of_not_lt hc)]

theorem asciiUpper_asciiLower (s : String) : asciiUpper (asciiLower s) = asciiUpper s := by
  simp [asciiUpper, asciiLower, asciiUpperChar_asciiLowerChar, Function.comp_def]

theorem asciiUpper_eq_self {s : String} (h : s.toList.all fun c => asciiUpperChar c == c) :
    asciiUpper s = s := by
  have hchars : s.toList.map asciiUpperChar = s.toList.map id :=
    List.map_congr_left fun c hc => beq_iff_eq.mp (List.all_eq_true.mp h c hc)
  rw [asciiUpper, hchars, List.map_id, String.ofList_toList]

theorem upper_eq_asciiUpper {s : String} (h : ∀ c ∈ s.toList, c.toNat < 0x80) :
    upper s = asciiUpper s := by
  have hchars : s.toList.flatMap upperChar = s.toList.flatMap fun c => [asciiUpperChar c] :=
    List.flatMap_congr fun c hc => by rw [upperChar, if_pos (h c hc)]
  rw [upper, hchars, asciiUpper, List.map_eq_flatMap]

/-! ## Length -/

theorem ne_nil_of_lookup {sequences : List (Nat × List Nat)} {n : Nat} {ns : List Nat}
    (hne : ∀ entry ∈ sequences, entry.2 ≠ []) (h : sequences.lookup n = some ns) : ns ≠ [] := by
  obtain ⟨before, behind, rfl, -⟩ := List.lookup_eq_some_iff.mp h
  exact hne (n, ns) (by simp)

theorem upperChar_ne_nil (c : Char) : upperChar c ≠ [] := by
  unfold upperChar
  split
  · simp
  · split
    · next ns hns => simpa using ne_nil_of_lookup (by decide) hns
    · simp

theorem lowerChar_ne_nil (c : Char) : lowerChar c ≠ [] := by
  unfold lowerChar
  split
  · simp
  · split
    · next ns hns => simpa using ne_nil_of_lookup (by decide) hns
    · simp

theorem length_upper (s : String) :
    (upper s).length = (s.toList.map fun c => (upperChar c).length).sum := by
  rw [upper, ← String.length_toList, String.toList_ofList, List.length_flatMap]

theorem length_lowerFrom (before cs : List Char) :
    (lowerFrom before cs).length = (cs.map fun c => (lowerChar c).length).sum := by
  have hsigma : (lowerChar 'Σ').length = 1 := by decide
  induction cs generalizing before with
  | nil => rfl
  | cons c cs ih =>
    rw [lowerFrom, List.length_append, ih, List.map_cons, List.sum_cons]
    congr 1
    split
    · next hc => rw [hc, hsigma, List.length_singleton]
    · rfl

/-- A text without a capital sigma becomes what its characters become, whatever stands before it. -/
theorem lowerFrom_append {a b : List Char} (hb : 'Σ' ∉ b) (before : List Char) :
    ∃ front, lowerFrom before (a ++ b) = front ++ b.flatMap lowerChar := by
  induction a generalizing before with
  | nil =>
    refine ⟨[], ?_⟩
    induction b generalizing before with
    | nil => rfl
    | cons c b ih =>
      rw [List.mem_cons, not_or] at hb
      simpa [lowerFrom, Ne.symm hb.1] using ih hb.2 (c :: before)
  | cons c a ih =>
    obtain ⟨front, hfront⟩ := ih (c :: before)
    rw [List.cons_append, lowerFrom, hfront, ← List.append_assoc]
    exact ⟨_, rfl⟩

/-! ## Quotes -/

/-- A character at or above the letter `A` is no quote. -/
theorem ofNat_ne_quote {n : Nat} (h : 0x41 ≤ n) : Char.ofNat n ≠ '\x27' := by
  intro heq
  by_cases hvalid : n.isValidChar
  · rw [Char.ofNat, dif_pos hvalid] at heq
    have hn : n = 0x27 := congrArg Char.toNat heq
    omega
  · rw [Char.ofNat, dif_neg hvalid] at heq
    cases heq

/-- Only a quote becomes a quote in lower case. -/
theorem quote_mem_lowerChar : '\x27' ∈ lowerChar c ↔ c = '\x27' := by
  have hsequences : ∀ entry ∈ lowerSequences, ∀ n ∈ entry.2, 0x41 ≤ n := by decide
  have hruns : ∀ run ∈ lowerRuns, 0x41 ≤ (run.first : Int) + run.shift := by
    decide +kernel
  by_cases hc : c.toNat < 0x80
  · rw [lowerChar, if_pos hc, List.mem_singleton]
    exact forall_ascii (P := fun c => '\x27' = asciiLowerChar c ↔ c = '\x27') (by decide) hc
  · have hne : c ≠ '\x27' := by
      rintro rfl
      exact hc (by decide)
    refine iff_of_false ?_ hne
    rw [lowerChar, if_neg hc]
    split
    · next ns hlookup =>
      obtain ⟨before, behind, hsplit, -⟩ := List.lookup_eq_some_iff.mp hlookup
      intro hmem
      obtain ⟨n, hn, hquote⟩ := List.mem_map.mp hmem
      exact ofNat_ne_quote (hsequences (c.toNat, ns) (by simp [hsplit]) n hn) hquote
    · cases hfound : CaseRun.find? lowerRuns c.toNat with
      | none => simpa using hne.symm
      | some n =>
        obtain ⟨run, hrun, rfl⟩ := Option.map_eq_some_iff.mp hfound
        have hle : run.first ≤ c.toNat := by
          have := List.find?_some hrun
          grind
        have hrange := hruns run (List.mem_of_find?_eq_some hrun)
        have hbound : 0x41 ≤ (Int.ofNat c.toNat + run.shift).toNat := by
          rw [Int.ofNat_eq_natCast]
          omega
        simpa using (ofNat_ne_quote hbound).symm

theorem quote_mem_lowerFrom (before cs : List Char) :
    '\x27' ∈ lowerFrom before cs ↔ '\x27' ∈ cs := by
  induction cs generalizing before with
  | nil => rfl
  | cons c cs ih =>
    rw [lowerFrom, List.mem_append, ih, List.mem_cons, eq_comm (a := '\x27')]
    congr! 1
    split
    · next hc =>
      subst hc
      refine iff_of_false ?_ (by decide)
      split <;> decide
    · exact quote_mem_lowerChar

/-- Lower case brings no quote into a text and takes none out. -/
theorem quote_mem_lower (s : String) : '\x27' ∈ (lower s).toList ↔ '\x27' ∈ s.toList := by
  rw [lower, String.toList_ofList, quote_mem_lowerFrom]

end ObjectSql.Text
