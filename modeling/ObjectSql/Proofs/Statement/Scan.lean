import Mathlib.Data.List.Basic
import ObjectSql.Expr.Render

/-!
# Scanning SQL text for placeholders

Scanning a text from outside quotes leaves a count of placeholders and a quote that may still be
open. A text that leaves no quote open can stand next to any other text without changing what the
other counts, so the counts of such texts add up.
-/
namespace ObjectSql.SqlText

/-- The quote that is open after a text, which begins inside the given quote or outside quotes. -/
def quoteAfter : (inside : Option Char) → List Char → Option Char
  | q, [] => q
  | some q, c :: cs => quoteAfter (if c = q then none else some q) cs
  | none, c :: cs => quoteAfter (closingQuote? c) cs

@[simp] theorem quoteAfter_nil (q : Option Char) : quoteAfter q [] = q := by
  cases q <;> rfl

@[simp] theorem countPlaceholders_nil (q : Option Char) : countPlaceholders q [] = 0 := by
  cases q <;> rfl

theorem quoteAfter_append (q : Option Char) (a b : List Char) :
    quoteAfter q (a ++ b) = quoteAfter (quoteAfter q a) b := by
  induction a generalizing q with
  | nil => simp
  | cons c a ih => cases q <;> simp [quoteAfter, ih]

theorem countPlaceholders_append (q : Option Char) (a b : List Char) :
    countPlaceholders q (a ++ b) = countPlaceholders q a + countPlaceholders (quoteAfter q a) b := by
  induction a generalizing q with
  | nil => simp
  | cons c a ih => cases q <;> simp [countPlaceholders, quoteAfter, ih, Nat.add_assoc]

def isNeutral (c : Char) : Bool := c != '?' && (closingQuote? c).isNone

/-- A text without placeholders and quotes. -/
def Neutral (s : String) : Prop := s.toList.all isNeutral

instance (s : String) : Decidable (Neutral s) := inferInstanceAs (Decidable (_ = true))

theorem isNeutral_iff {c : Char} : isNeutral c ↔ c ≠ '?' ∧ closingQuote? c = none := by
  simp [isNeutral]

/-- Scanning a text from outside quotes ends outside quotes with `n` placeholders. -/
structure Scans (cs : List Char) (n : Nat) : Prop where
  closed : quoteAfter none cs = none
  count : countPlaceholders none cs = n

namespace Scans

theorem nil : Scans [] 0 := ⟨by simp, by simp⟩

theorem append {a b : List Char} {m n : Nat} (ha : Scans a m) (hb : Scans b n) :
    Scans (a ++ b) (m + n) where
  closed := by rw [quoteAfter_append, ha.closed, hb.closed]
  count := by rw [countPlaceholders_append, ha.count, ha.closed, hb.count]

theorem neutral {cs : List Char} (h : cs.all isNeutral) : Scans cs 0 := by
  induction cs with
  | nil => exact nil
  | cons c cs ih =>
    obtain ⟨hc, hcs⟩ : isNeutral c ∧ cs.all isNeutral := by simpa using h
    obtain ⟨hq, hn⟩ := isNeutral_iff.mp hc
    constructor
    · simpa [quoteAfter, hn] using (ih hcs).closed
    · simpa [countPlaceholders, hn, hq] using (ih hcs).count

end Scans

/-! ## Quoted stretches -/

/-- Inside a quote that opens and closes with the same character, writing this character twice
closes the quote and opens it again. -/
theorem scan_doubled {q : Char} (hq : closingQuote? q = some q) (cs : List Char) :
    quoteAfter (some q) (cs.flatMap fun c => if c = q then [q, q] else [c]) = some q ∧
      countPlaceholders (some q) (cs.flatMap fun c => if c = q then [q, q] else [c]) = 0 := by
  have hne : q ≠ '?' := by rintro rfl; simp [closingQuote?] at hq
  induction cs with
  | nil => simp
  | cons c cs ih =>
    by_cases hc : c = q
    · simpa [hc, quoteAfter, countPlaceholders, hq, hne] using ih
    · simpa [hc, quoteAfter, countPlaceholders] using ih

theorem Scans.quoted {q : Char} (hq : closingQuote? q = some q) (s : String) :
    Scans (q :: (Text.doubled q s).toList ++ [q]) 0 := by
  have hne : q ≠ '?' := by rintro rfl; simp [closingQuote?] at hq
  obtain ⟨hclosed, hcount⟩ := scan_doubled hq s.toList
  constructor
  · simp [Text.doubled, quoteAfter, hq, quoteAfter_append, hclosed]
  · simp [Text.doubled, countPlaceholders, hq, hne, countPlaceholders_append, hclosed, hcount]

end ObjectSql.SqlText
