import Mathlib.Algebra.Ring.Nat
import ObjectSql.Text.Digits

/-!
# Digits of numbers

The decimal digits of a number tell it, and a run of digits is read as the number that it denotes.
Hexadecimal digits of a fixed width are as many as the width, each stands for a number below 16, and together
they tell the number up to a power of 16.
-/
namespace ObjectSql.Text

variable {digit : Nat → Char} {width n : Nat}

/-! ## Decimal digits -/

theorem isDigit_of_mem_toDigits {c : Char} (h : c ∈ Nat.toDigits 10 n) : isDigit c := by
  have hdigit := Nat.isDigit_of_mem_toDigits (by decide) (by decide) h
  simpa [isDigit, Char.isDigit, Char.le_def] using hdigit

theorem not_mem_toDigits {c : Char} (hc : isDigit c = false) : c ∉ Nat.toDigits 10 n := by
  intro h
  simp [isDigit_of_mem_toDigits h] at hc

theorem digitsValue_toDigits (n : Nat) : digitsValue (Nat.toDigits 10 n) = n :=
  Nat.ofDigitChars_ten_toDigits

theorem repr_injective : Function.Injective Nat.repr := by
  intro m n h
  have hdigits : Nat.toDigits 10 m = Nat.toDigits 10 n := by simpa using congrArg String.toList h
  rw [← digitsValue_toDigits m, hdigits, digitsValue_toDigits]

/-! ## Runs of digits -/

/-- One digit at least, and nothing else. -/
structure IsRun (run : List Char) : Prop where
  ne_nil : run ≠ []
  digits : ∀ c ∈ run, isDigit c

theorem IsRun.not_mem {run : List Char} {c : Char} (h : IsRun run) (hc : isDigit c = false) : c ∉ run :=
  fun hmem => Bool.false_ne_true (hc.symm.trans (h.digits c hmem))

theorem readBelow_run {run : List Char} (h : IsRun run) (limit : Nat) :
    readBelow limit run = if digitsValue run < limit then some (digitsValue run) else none := by
  have hdigits : run.all isDigit := List.all_eq_true.mpr h.digits
  simp [readBelow, h.ne_nil, hdigits]

theorem readBelow_eq_some_iff {limit : Nat} {cs : List Char} :
    readBelow limit cs = some n ↔ IsRun cs ∧ digitsValue cs = n ∧ n < limit := by
  by_cases hrun : IsRun cs
  · rw [readBelow_run hrun]
    grind
  · have hnone : readBelow limit cs = none := by
      refine if_pos ?_
      by_contra hboth
      rw [Bool.or_eq_true, not_or, List.isEmpty_iff, Bool.not_eq_true', Bool.not_eq_false,
        List.all_eq_true] at hboth
      exact hrun ⟨hboth.1, hboth.2⟩
    simp [hnone, hrun]

/-- Whether a text is the decimal number of an index, which may follow a plus sign. -/
def Indexes (cs : List Char) (i : Nat) : Prop :=
  ∃ run, (cs = run ∨ cs = '+' :: run) ∧ IsRun run ∧ digitsValue run = i

theorem readIndex_eq_some_iff {cs : List Char} {i : Nat} :
    readIndex cs = some i ↔ Indexes cs i ∧ i < 2 ^ 64 := by
  have hlimit : (0x10000000000000000 : Nat) = 2 ^ 64 := rfl
  unfold readIndex Indexes
  split
  · next rest =>
    rw [readBelow_eq_some_iff, hlimit]
    constructor
    · rintro ⟨hrun, hvalue, hi⟩
      exact ⟨⟨rest, .inr rfl, hrun, hvalue⟩, hi⟩
    · rintro ⟨⟨run, rfl | heq, hrun, hvalue⟩, hi⟩
      · exact absurd List.mem_cons_self (hrun.not_mem (by decide))
      · rw [List.cons_inj_right] at heq
        exact heq ▸ ⟨hrun, hvalue, hi⟩
  · next hplus =>
    rw [readBelow_eq_some_iff, hlimit]
    constructor
    · rintro ⟨hrun, hvalue, hi⟩
      exact ⟨⟨cs, .inl rfl, hrun, hvalue⟩, hi⟩
    · rintro ⟨⟨run, rfl | heq, hrun, hvalue⟩, hi⟩
      · exact ⟨hrun, hvalue, hi⟩
      · exact absurd heq (hplus run)

/-! ## Hexadecimal digits -/

theorem length_hexDigits (digit : Nat → Char) (width n : Nat) :
    (hexDigits digit width n).length = width := by
  induction width generalizing n with
  | zero => rfl
  | succ width ih => rw [hexDigits, List.length_append, ih, List.length_singleton]

theorem mem_hexDigits {c : Char} (h : c ∈ hexDigits digit width n) : ∃ d < 16, digit d = c := by
  induction width generalizing n with
  | zero => cases h
  | succ width ih =>
    rw [hexDigits, List.mem_append, List.mem_singleton] at h
    rcases h with h | rfl
    · exact ih h
    · exact ⟨n % 16, Nat.mod_lt n (by decide), rfl⟩

theorem not_mem_hexDigits {c : Char} (hc : ∀ d < 16, digit d ≠ c) : c ∉ hexDigits digit width n := by
  intro h
  obtain ⟨d, hd, heq⟩ := mem_hexDigits h
  exact hc d hd heq

theorem hexDigits_inj (hdigit : ∀ m < 16, ∀ n < 16, digit m = digit n → m = n) {m n : Nat} :
    hexDigits digit width m = hexDigits digit width n ↔ m % 16 ^ width = n % 16 ^ width := by
  induction width generalizing m n with
  | zero => simp [hexDigits, Nat.mod_one]
  | succ width ih =>
    have hlast : digit (m % 16) = digit (n % 16) ↔ m % 16 = n % 16 :=
      ⟨hdigit _ (Nat.mod_lt m (by decide)) _ (Nat.mod_lt n (by decide)), congrArg digit⟩
    rw [hexDigits, hexDigits, List.append_singleton_inj, ih, hlast, Nat.pow_succ, Nat.mul_comm,
      Nat.mod_mul, Nat.mod_mul]
    omega

/-- Where each digit is replaced by another one, the digits are those of the same number. -/
theorem flatMap_hexDigits {f : Char → List Char} {digit' : Nat → Char}
    (h : ∀ d < 16, f (digit d) = [digit' d]) :
    (hexDigits digit width n).flatMap f = hexDigits digit' width n := by
  induction width generalizing n with
  | zero => rfl
  | succ width ih =>
    rw [hexDigits, List.flatMap_append, ih, List.flatMap_singleton, h _ (Nat.mod_lt n (by decide)),
      hexDigits]

end ObjectSql.Text
