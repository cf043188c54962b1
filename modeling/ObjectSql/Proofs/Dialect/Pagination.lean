import Mathlib.Tactic.SplitIfs
import ObjectSql.Dialect.Profile
import ObjectSql.Proofs.Text.Digits

/-!
# Reading range clauses

A range is a window over rows: how many are skipped, and how many follow at most. The grammar of each style reads
the window back from the clause, so that clauses of one style tell windows apart, and there is no clause only for
all rows or where the style has no words for the range.
-/
namespace ObjectSql

/-- The rows that a range is about. -/
structure Window where
  skip : Nat
  limit : Option Nat
deriving Repr, DecidableEq, Inhabited

namespace Window

/-- The window of a range; a bound that is not positive is not given. -/
def ofRange (offset count : Int) : Window := ⟨offset.toNat, if 0 < count then some count.toNat else none⟩

end Window

def PaginationStyle.requiresOrdering : PaginationStyle → Bool
  | offsetFetch _ requireOrdering => requireOrdering
  | _ => false

/-! ## Grammars -/

namespace Text

def pieces (sep : Char) (s : String) : List String := (s.toList.splitOn sep).map String.ofList

theorem pieces_joined {sep : Char} {ws : List String} (hsep : ∀ w ∈ ws, sep ∉ w.toList) (hne : ws ≠ []) :
    pieces sep (joined (String.singleton sep) ws) = ws := by
  have hsplit : ([sep].intercalate (ws.map String.toList)).splitOn sep = ws.map String.toList :=
    List.splitOn_intercalate sep (by simpa using hsep) (by simpa using hne)
  have htext : (joined (String.singleton sep) ws).toList = [sep].intercalate (ws.map String.toList) := by
    simp [joined]
  rw [pieces, htext, hsplit]
  simp

def number? (word : String) : Option Nat :=
  if word.isEmpty || !word.toList.all isDigit then none else some (digitsValue word.toList)

theorem number?_toString (n : Nat) : number? (toString n) = some n := by
  have hlist : (toString n).toList = Nat.toDigits 10 n := by simp
  have hdigits : (Nat.toDigits 10 n).all isDigit := List.all_eq_true.mpr fun _ => isDigit_of_mem_toDigits
  rw [number?, hlist, hdigits, digitsValue_toDigits]
  simp

end Text

open Text

namespace PaginationStyle

/-- A number of rows, or the count that means all rows. -/
def readLimit (unbounded : Option String) (word : String) : Option (Option Nat) :=
  if unbounded = some word then some none else (number? word).map some

/-- What is left after an ordering that orders nothing. -/
def skipOrdering : List String → List String
  | "ORDER" :: "BY" :: "(SELECT" :: "NULL)" :: words => words
  | words => words

/-- Reads `OFFSET … FETCH`, where a count may have to follow an offset. -/
def readFetch (requireOffset : Bool) : List String → Option Window
  | ["OFFSET", m, "ROWS"] => (number? m).map fun skip => ⟨skip, none⟩
  | ["OFFSET", m, "ROWS", "FETCH", "NEXT", n, "ROWS", "ONLY"] => do
    let skip ← number? m
    let limit ← number? n
    pure ⟨skip, some limit⟩
  | ["FETCH", "FIRST", n, "ROWS", "ONLY"] =>
    if requireOffset then none else (number? n).map fun limit => ⟨0, some limit⟩
  | _ => none

def readWords : PaginationStyle → List String → Option Window
  | unsupported, _ => none
  | limitOffset _, ["LIMIT", n] => (number? n).map fun limit => ⟨0, some limit⟩
  | limitOffset none, ["OFFSET", m] => (number? m).map fun skip => ⟨skip, none⟩
  | limitOffset unbounded, ["LIMIT", n, "OFFSET", m] => do
    let limit ← readLimit unbounded n
    let skip ← number? m
    pure ⟨skip, limit⟩
  | limitOffset _, _ => none
  | commaLimit unbounded, ["LIMIT", range] =>
    match pieces ',' range with
    | [n] => (number? n).map fun limit => ⟨0, some limit⟩
    | [m, n] => do
      let skip ← number? m
      let limit ← readLimit (some unbounded) n
      pure ⟨skip, limit⟩
    | _ => none
  | commaLimit _, _ => none
  | offsetFetch requireOffset requireOrdering, words =>
    readFetch requireOffset (if requireOrdering then skipOrdering words else words)
  | fetchFirst, ["FETCH", "FIRST", n, "ROWS", "ONLY"] => (number? n).map fun limit => ⟨0, some limit⟩
  | fetchFirst, _ => none

def read? (style : PaginationStyle) (clause : String) : Option Window :=
  style.readWords (pieces ' ' clause)

/-- Whether a style has no words for a range: there is no syntax, or none that skips rows. -/
def Lacks (style : PaginationStyle) (offset : Int) : Prop :=
  style = unsupported ∨ style = fetchFirst ∧ 0 < offset

/-! ## Reading back -/

variable {offset count : Int} {style : PaginationStyle} {clause : String}

theorem read?_eq {words : List String} (htext : clause = joined " " words) (hne : words ≠ [])
    (hblank : ∀ w ∈ words, ' ' ∉ w.toList) : style.read? clause = style.readWords words := by
  rw [read?, htext]
  exact congrArg style.readWords (pieces_joined hblank hne)

theorem readLimit_toString {unbounded : Option String} {n : Nat}
    (h : ∀ all, unbounded = some all → number? all ≠ some n) :
    readLimit unbounded (toString n) = some (some n) := by
  have hne : unbounded ≠ some (toString n) := fun heq => h _ heq (number?_toString n)
  rw [readLimit, if_neg hne, number?_toString]
  rfl

theorem repr_natCast (n : Nat) : (n : Int).repr = n.repr := rfl

theorem blank_not_mem (n : Nat) : ' ' ∉ Nat.toDigits 10 n := not_mem_toDigits (by decide)

theorem comma_not_mem (n : Nat) : ',' ∉ Nat.toDigits 10 n := not_mem_toDigits (by decide)

/-- Which bounds of a range are given, with its window. -/
inductive Given : (offset count : Int) → Window → Prop where
  | both (m n : Nat) (hm : m ≠ 0) (hn : n ≠ 0) : Given m n ⟨m, some n⟩
  | offset (m : Nat) (hm : m ≠ 0) {count : Int} (hcount : ¬0 < count) : Given m count ⟨m, none⟩
  | count {offset : Int} (hoffset : offset ≤ 0) (n : Nat) (hn : n ≠ 0) : Given offset n ⟨0, some n⟩

theorem given_ofRange (h : ¬(offset ≤ 0 ∧ count ≤ 0)) : Given offset count (.ofRange offset count) := by
  unfold Window.ofRange
  by_cases hoffset : offset ≤ 0
  · obtain ⟨n, rfl⟩ := Int.eq_ofNat_of_zero_le (a := count) (by omega)
    rw [if_pos (by omega), Int.toNat_of_nonpos hoffset]
    exact .count hoffset n (by omega)
  · obtain ⟨m, rfl⟩ := Int.eq_ofNat_of_zero_le (a := offset) (by omega)
    by_cases hcount : 0 < count
    · obtain ⟨n, rfl⟩ := Int.eq_ofNat_of_zero_le (a := count) (by omega)
      rw [if_pos hcount]
      exact .both m n (by omega) (by omega)
    · rw [if_neg hcount]
      exact .offset m (by omega) hcount

variable {window : Window} {ordered : Bool}

theorem read?_limitOffset {unbounded : Option String} (h : Given offset count window)
    (hblank : ∀ all, unbounded = some all → ' ' ∉ all.toList)
    (hall : ∀ all, unbounded = some all → ∀ n : Nat, count = n → number? all ≠ some n) :
    (limitOffset unbounded).read? ((limitOffset unbounded).clause offset count ordered) =
      some window := by
  cases h with
  | both m n hm hn =>
    have htext : (limitOffset unbounded).clause m n ordered =
        joined " " ["LIMIT", toString n, "OFFSET", toString m] := by
      rw [← String.toList_inj]
      simp [joined, PaginationStyle.clause, hm, hn, Nat.pos_of_ne_zero hn, repr_natCast]
    rw [read?_eq htext (by simp) (by simp [blank_not_mem]), readWords, number?_toString,
      readLimit_toString fun all hsome => hall all hsome n rfl]
    rfl
  | offset m hm hcount =>
    cases unbounded with
    | none =>
      have htext : (limitOffset none).clause m count ordered = joined " " ["OFFSET", toString m] := by
        rw [← String.toList_inj]
        simp [joined, PaginationStyle.clause, hm, hcount, repr_natCast]
      rw [read?_eq htext (by simp) (by simp [blank_not_mem]), readWords, number?_toString]
      rfl
    | some all =>
      have htext : (limitOffset (some all)).clause m count ordered =
          joined " " ["LIMIT", all, "OFFSET", toString m] := by
        rw [← String.toList_inj]
        simp [joined, PaginationStyle.clause, hm, hcount, repr_natCast]
      rw [read?_eq htext (by simp) (by simp [blank_not_mem, hblank]), readWords, readLimit, if_pos rfl,
        number?_toString]
      rfl
  | count hoffset n hn =>
    have htext : (limitOffset unbounded).clause offset n ordered = joined " " ["LIMIT", toString n] := by
      rw [← String.toList_inj]
      simp [joined, PaginationStyle.clause, hn, hoffset, repr_natCast]
    rw [read?_eq htext (by simp) (by simp [blank_not_mem]), readWords, number?_toString]
    rfl

theorem read?_commaLimit {unbounded : String} (h : Given offset count window)
    (hblank : ' ' ∉ unbounded.toList) (hcomma : ',' ∉ unbounded.toList)
    (hall : ∀ n : Nat, count = n → number? unbounded ≠ some n) :
    (commaLimit unbounded).read? ((commaLimit unbounded).clause offset count ordered) = some window := by
  cases h with
  | both m n hm hn =>
    have htext : (commaLimit unbounded).clause m n ordered =
        joined " " ["LIMIT", joined "," [toString m, toString n]] := by
      rw [← String.toList_inj]
      simp [joined, PaginationStyle.clause, hm, hn, Nat.pos_of_ne_zero hn, repr_natCast]
    have hpieces : pieces ',' (joined "," [toString m, toString n]) = [toString m, toString n] :=
      pieces_joined (by simp [comma_not_mem]) (by simp)
    rw [read?_eq htext (by simp) (by simp [joined, blank_not_mem])]
    simp only [readWords, hpieces, number?_toString]
    rw [readLimit_toString fun all hsome => Option.some.inj hsome ▸ hall n rfl]
    rfl
  | offset m hm hcount =>
    have htext : (commaLimit unbounded).clause m count ordered =
        joined " " ["LIMIT", joined "," [toString m, unbounded]] := by
      rw [← String.toList_inj]
      simp [joined, PaginationStyle.clause, hm, hcount, repr_natCast]
    have hpieces : pieces ',' (joined "," [toString m, unbounded]) = [toString m, unbounded] :=
      pieces_joined (by simp [comma_not_mem, hcomma]) (by simp)
    rw [read?_eq htext (by simp) (by simp [joined, blank_not_mem, hblank])]
    simp only [readWords, hpieces, number?_toString, readLimit]
    simp
  | count hoffset n hn =>
    have htext : (commaLimit unbounded).clause offset n ordered =
        joined " " ["LIMIT", joined "," [toString n]] := by
      rw [← String.toList_inj]
      simp [joined, PaginationStyle.clause, hn, hoffset, repr_natCast]
    have hpieces : pieces ',' (joined "," [toString n]) = [toString n] :=
      pieces_joined (by simp [comma_not_mem]) (by simp)
    rw [read?_eq htext (by simp) (by simp [joined, blank_not_mem])]
    simp only [readWords, hpieces, number?_toString]
    rfl

theorem exists_fetchWords (h : Given offset count window) (requireOffset : Bool) :
    ∃ word words, offsetFetchBody requireOffset offset count = joined " " (word :: words) ∧
      (∀ w ∈ word :: words, ' ' ∉ w.toList) ∧ word ≠ "ORDER" ∧
      readFetch requireOffset (word :: words) = some window := by
  cases h with
  | both m n hm hn =>
    refine ⟨"OFFSET", [toString m, "ROWS", "FETCH", "NEXT", toString n, "ROWS", "ONLY"], ?_,
      by simp [blank_not_mem], by decide, ?_⟩
    · rw [← String.toList_inj]
      simp [joined, offsetFetchBody, Nat.pos_of_ne_zero hm, Nat.pos_of_ne_zero hn, repr_natCast]
    · rw [readFetch, number?_toString, number?_toString]
      rfl
  | offset m hm hcount =>
    refine ⟨"OFFSET", [toString m, "ROWS"], ?_, by simp [blank_not_mem], by decide, ?_⟩
    · rw [← String.toList_inj]
      simp [joined, offsetFetchBody, Nat.pos_of_ne_zero hm, hcount, repr_natCast]
    · rw [readFetch, number?_toString]
      rfl
  | count hoffset n hn =>
    cases requireOffset with
    | true =>
      refine ⟨"OFFSET", [toString 0, "ROWS", "FETCH", "NEXT", toString n, "ROWS", "ONLY"], ?_,
        by simp [blank_not_mem], by decide, ?_⟩
      · rw [← String.toList_inj]
        simp [joined, offsetFetchBody, Int.not_lt.mpr hoffset, repr_natCast]
      · rw [readFetch, number?_toString, number?_toString]
        rfl
    | false =>
      refine ⟨"FETCH", ["FIRST", toString n, "ROWS", "ONLY"], ?_, by simp [blank_not_mem], by decide, ?_⟩
      · rw [← String.toList_inj]
        simp [joined, offsetFetchBody, Int.not_lt.mpr hoffset, repr_natCast]
      · rw [readFetch, number?_toString]
        rfl

theorem Given.ne_all (h : Given offset count window) : ¬(offset ≤ 0 ∧ count ≤ 0) := by
  cases h <;> omega

theorem clause_offsetFetch (h : Given offset count window) (requireOffset requireOrdering : Bool) :
    (offsetFetch requireOffset requireOrdering).clause offset count ordered =
      if requireOrdering && !ordered then
        "ORDER BY (SELECT NULL) " ++ offsetFetchBody requireOffset offset count
      else offsetFetchBody requireOffset offset count := by
  have hgiven : ¬(decide (offset ≤ 0) && decide (count ≤ 0)) = true := by simpa using h.ne_all
  rw [PaginationStyle.clause, if_neg hgiven]

theorem read?_offsetFetch {requireOffset requireOrdering : Bool} (h : Given offset count window) :
    (offsetFetch requireOffset requireOrdering).read?
      ((offsetFetch requireOffset requireOrdering).clause offset count ordered) = some window := by
  obtain ⟨word, words, hbody, hblank, hword, hread⟩ := exists_fetchWords h requireOffset
  rw [clause_offsetFetch h, hbody]
  -- The reader passes over an ordering, and takes no other words for one since they begin otherwise.
  split
  · next hordering =>
    have htext : "ORDER BY (SELECT NULL) " ++ joined " " (word :: words) =
        joined " " ("ORDER" :: "BY" :: "(SELECT" :: "NULL)" :: word :: words) := by
      rw [← String.toList_inj]
      simp [joined]
    have hrequire : requireOrdering = true := by simp_all
    rw [read?_eq htext (by simp) (by simpa using hblank), readWords, if_pos hrequire]
    exact hread
  · have hskip : skipOrdering (word :: words) = word :: words := by
      unfold skipOrdering
      split
      · next heq =>
        cases heq
        exact absurd rfl hword
      · rfl
    rw [read?_eq rfl (by simp) hblank, readWords, hskip, ite_self]
    exact hread

theorem read?_fetchFirst (h : Given offset count window) (hoffset : offset ≤ 0) :
    fetchFirst.read? (fetchFirst.clause offset count ordered) = some window := by
  cases h with
  | both m n hm hn => omega
  | offset m hm hcount => omega
  | count _ n hn =>
    have htext : fetchFirst.clause offset n ordered =
        joined " " ["FETCH", "FIRST", toString n, "ROWS", "ONLY"] := by
      rw [← String.toList_inj]
      simp [joined, PaginationStyle.clause, hn, hoffset, repr_natCast]
    rw [read?_eq htext (by simp) (by simp [blank_not_mem]), readWords, number?_toString]
    rfl

theorem read?_empty (style : PaginationStyle) : style.read? "" = none := by
  have hpieces : pieces ' ' "" = [""] := by simp [pieces]
  rw [read?, hpieces]
  cases style with
  | offsetFetch requireOffset requireOrdering => cases requireOrdering <;> rfl
  | _ => rfl

/-! ## Words of clauses -/

/-- What clauses are put together from, apart from numbers and the counts that mean all rows. -/
def clauseWords : List String :=
  ["", "LIMIT ", ",", "OFFSET ", " OFFSET ", " ROWS", " ROWS FETCH NEXT ", "OFFSET 0 ROWS FETCH NEXT ",
    "FETCH FIRST ", " ROWS ONLY"]

section

variable {P : String → Prop} (happend : ∀ {s t}, P (s ++ t) ↔ P s ∧ P t)
  (hint : ∀ n : Int, P (toString n)) (hwords : ∀ s ∈ clauseWords, P s)
include happend hint hwords

theorem offsetFetchBody_holds (requireOffset : Bool) : P (offsetFetchBody requireOffset offset count) := by
  have hoffset : P "OFFSET " ∧ P "OFFSET 0 ROWS FETCH NEXT " := ⟨hwords _ (by decide), hwords _ (by decide)⟩
  have hfetch : P " ROWS FETCH NEXT " ∧ P "FETCH FIRST " := ⟨hwords _ (by decide), hwords _ (by decide)⟩
  have hrows : P " ROWS" ∧ P " ROWS ONLY" := ⟨hwords _ (by decide), hwords _ (by decide)⟩
  unfold offsetFetchBody
  split_ifs <;> simp only [happend, hint, hoffset, hfetch, hrows, and_self]

/-- A clause is put together from words and numbers, behind an ordering if one is needed and not given. -/
theorem clause_holds (hall : ∀ all, style = limitOffset (some all) ∨ style = commaLimit all → P all)
    (hordering : style.requiresOrdering && !ordered → P "ORDER BY (SELECT NULL) ") :
    P (style.clause offset count ordered) := by
  have hempty : P "" ∧ P "," := ⟨hwords _ (by decide), hwords _ (by decide)⟩
  have hlimit : P "LIMIT " := hwords _ (by decide)
  have hoffset : P "OFFSET " ∧ P " OFFSET " := ⟨hwords _ (by decide), hwords _ (by decide)⟩
  have hfetch : P "FETCH FIRST " ∧ P " ROWS ONLY" := ⟨hwords _ (by decide), hwords _ (by decide)⟩
  unfold PaginationStyle.clause
  split
  · exact hempty.1
  · cases style with
    | unsupported => exact hempty.1
    | limitOffset unbounded =>
      cases unbounded with
      | none =>
        dsimp only
        split_ifs <;> simp only [happend, hint, hlimit, hoffset, and_self]
      | some all =>
        have hsentinel := hall all (.inl rfl)
        dsimp only
        split_ifs <;> simp only [happend, hint, hlimit, hoffset, hsentinel, and_self]
    | commaLimit all =>
      have hsentinel := hall all (.inr rfl)
      dsimp only
      split_ifs <;> simp only [happend, hint, hlimit, hempty, hsentinel, and_self]
    | offsetFetch requireOffset requireOrdering =>
      have hbody : P (offsetFetchBody requireOffset offset count) :=
        offsetFetchBody_holds happend hint hwords requireOffset
      dsimp only
      split_ifs with hneeds
      · exact happend.mpr ⟨hordering hneeds, hbody⟩
      · exact hbody
    | fetchFirst =>
      dsimp only
      split_ifs
      · simp only [happend, hint, hfetch, and_self]
      · exact hempty.1

end

end PaginationStyle

/-! ## Profiles -/

namespace Profile

variable {p : Profile} {offset count : Int} {window : Window} {ordered : Bool}

theorem pagination_cases (p : Profile) :
    p.pagination ∈ [.unsupported, .limitOffset none, .limitOffset (some "-1"),
      .commaLimit "18446744073709551615", .offsetFetch false false, .offsetFetch true true,
      .fetchFirst] := by
  unfold pagination
  cases p.vendor <;> dsimp only <;> (try split) <;> simp

theorem rangeClause_holds {P : String → Prop} (happend : ∀ {s t}, P (s ++ t) ↔ P s ∧ P t)
    (hint : ∀ n : Int, P (toString n))
    (hwords : ∀ s ∈ "-1" :: "18446744073709551615" :: PaginationStyle.clauseWords, P s)
    (hordering : p.pagination.requiresOrdering && !ordered → P "ORDER BY (SELECT NULL) ") :
    P (p.rangeClause offset count ordered) := by
  simp only [List.forall_mem_cons] at hwords
  refine PaginationStyle.clause_holds happend hint hwords.2.2 (fun all hstyle => ?_) hordering
  have hcases := p.pagination_cases
  rcases hstyle with hstyle | hstyle
  · obtain rfl : all = "-1" := by simpa [hstyle] using hcases
    exact hwords.1
  · obtain rfl : all = "18446744073709551615" := by simpa [hstyle] using hcases
    exact hwords.2.1

/-- The counts that mean all rows are no numbers of 64 bits. -/
theorem read?_rangeClause (hcount : count < 0x8000000000000000) (h : PaginationStyle.Given offset count window)
    (hwords : ¬p.pagination.Lacks offset) :
    p.pagination.read? (p.rangeClause offset count ordered) = some window := by
  have hcases := p.pagination_cases
  simp only [List.mem_cons, List.not_mem_nil, or_false] at hcases
  unfold rangeClause
  rcases hcases with hstyle | hstyle | hstyle | hstyle | hstyle | hstyle | hstyle
  · exact absurd (.inl hstyle) hwords
  · rw [hstyle]
    exact PaginationStyle.read?_limitOffset h nofun nofun
  · rw [hstyle]
    refine PaginationStyle.read?_limitOffset h (by simp) fun all hall n _ => ?_
    cases hall
    have hnone : number? "-1" = none := by decide
    simp [hnone]
  · rw [hstyle]
    refine PaginationStyle.read?_commaLimit h (by decide) (by decide) fun n hn => ?_
    have hall : number? "18446744073709551615" = some 18446744073709551615 := by decide
    rw [hall]
    simp
    omega
  · rw [hstyle]
    exact PaginationStyle.read?_offsetFetch h
  · rw [hstyle]
    exact PaginationStyle.read?_offsetFetch h
  · rw [hstyle]
    exact PaginationStyle.read?_fetchFirst h (Int.not_lt.mp fun hoffset => hwords (.inr ⟨hstyle, hoffset⟩))

theorem rangeClause_of_lacks (h : p.pagination.Lacks offset) : p.rangeClause offset count ordered = "" := by
  rcases h with hstyle | ⟨hstyle, hoffset⟩
  · simp [rangeClause, hstyle, PaginationStyle.clause]
  · simp [rangeClause, hstyle, PaginationStyle.clause, Int.not_le.mpr hoffset]

theorem rangeClause_eq_empty_iff (hcount : count < 0x8000000000000000) :
    p.rangeClause offset count ordered = "" ↔
      (offset ≤ 0 ∧ count ≤ 0) ∨ p.pagination.Lacks offset := by
  by_cases hall : offset ≤ 0 ∧ count ≤ 0
  · simp [rangeClause, PaginationStyle.clause, hall]
  · by_cases hwords : p.pagination.Lacks offset
    · simp [rangeClause_of_lacks hwords, hwords]
    · have hread : p.pagination.read? (p.rangeClause offset count ordered) = _ :=
        read?_rangeClause hcount (PaginationStyle.given_ofRange hall) hwords
      have hne : p.rangeClause offset count ordered ≠ "" := fun hempty => by
        simp [hempty, PaginationStyle.read?_empty] at hread
      simp [hne, hall, hwords]

/-- A clause that is there tells the window of its range. -/
theorem read?_of_ne_empty (hcount : count < 0x8000000000000000) (h : p.rangeClause offset count ordered ≠ "") :
    p.pagination.read? (p.rangeClause offset count ordered) = some (.ofRange offset count) := by
  rw [Ne, rangeClause_eq_empty_iff hcount, not_or] at h
  exact read?_rangeClause hcount (PaginationStyle.given_ofRange h.1) h.2

end Profile

end ObjectSql
