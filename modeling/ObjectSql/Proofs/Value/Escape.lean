import Mathlib.Data.List.Induction
import ObjectSql.Expr.Render
import ObjectSql.Proofs.Value.Literal

/-!
# Literals where a backslash is an escape

By the default rule of MySQL a backslash in quotes escapes the character behind it. The literal of a text
writes its backslashes as they are, so it is read back as the text exactly if each backslash stands before
a percent sign or an underscore, the two characters that keep it. At the end of a text a backslash takes
the closing quote into the text, and what follows is read from inside the quotes.
-/
namespace ObjectSql

open Text

/-- What a backslash and a character stand for in quotes on MySQL. Before the two wildcards the backslash
stays, so that `LIKE` finds it. -/
def mysqlEscape (c : Char) : List Char :=
  match c with
  | '0' => ['\x00']
  | 'b' => ['\x08']
  | 't' => ['\t']
  | 'n' => ['\n']
  | 'r' => ['\x0d']
  | 'Z' => ['\x1a']
  | '%' => ['\\', '%']
  | '_' => ['\\', '_']
  | c => [c]

/-- Each backslash stands before a percent sign or an underscore. -/
def EscapesWildcards (cs : List Char) : Prop :=
  ∀ before behind, cs = before ++ '\\' :: behind → behind.head? = some '%' ∨ behind.head? = some '_'

variable {c : Char} {cs t rest : List Char}

theorem escapesWildcards_nil : EscapesWildcards [] := by
  intro before behind h
  simp at h

theorem escapesWildcards_cons :
    EscapesWildcards (c :: cs) ↔
      (c = '\\' → cs.head? = some '%' ∨ cs.head? = some '_') ∧ EscapesWildcards cs := by
  constructor
  · intro h
    refine ⟨?_, fun before behind hcs => h (c :: before) behind (by rw [hcs, List.cons_append])⟩
    rintro rfl
    exact h [] cs rfl
  · rintro ⟨hc, hcs⟩ before behind h
    cases before with
    | nil =>
      obtain ⟨rfl, rfl⟩ := List.cons.inj h
      exact hc rfl
    | cons d before =>
      obtain ⟨-, rfl⟩ := List.cons.inj h
      exact hcs before behind rfl

theorem escapesWildcards_plain (h : c ≠ '\\') :
    EscapesWildcards (c :: cs) ↔ EscapesWildcards cs := by
  simp [escapesWildcards_cons, h]

theorem escapesWildcards_backslash :
    EscapesWildcards ('\\' :: cs) ↔
      ∃ d ds, cs = d :: ds ∧ (d = '%' ∨ d = '_') ∧ EscapesWildcards ds := by
  rw [escapesWildcards_cons]
  cases cs with
  | nil => simp
  | cons d ds =>
    have hplain : d = '%' ∨ d = '_' → d ≠ '\\' := by rintro (rfl | rfl) <;> decide
    constructor
    · rintro ⟨hwild, hds⟩
      have hd : d = '%' ∨ d = '_' := by simpa using hwild rfl
      exact ⟨d, ds, rfl, hd, (escapesWildcards_plain (hplain hd)).mp hds⟩
    · rintro ⟨_, _, h, hd, hds⟩
      obtain ⟨rfl, rfl⟩ := List.cons.inj h
      exact ⟨fun _ => by simpa using hd, (escapesWildcards_plain (hplain hd)).mpr hds⟩

theorem mysqlEscape_wildcard (h : c = '%' ∨ c = '_') : mysqlEscape c = ['\\', c] := by
  rcases h with rfl | rfl <;> rfl

theorem length_mysqlEscape (h : ¬(c = '%' ∨ c = '_')) : (mysqlEscape c).length = 1 := by
  unfold mysqlEscape
  split <;> simp_all

theorem length_mysqlEscape_le (c : Char) : (mysqlEscape c).length ≤ 2 := by
  by_cases h : c = '%' ∨ c = '_'
  · simp [mysqlEscape_wildcard h]
  · simp [length_mysqlEscape h]

/-! ## Reading behind a backslash -/

/-- A quote that is left over from a pair closes the text or opens a pair with what follows, so the
reader comes to another end than the literal. -/
theorem readQuoted_shifted {escaped : Option (Char → List Char)} (cs t rest : List Char) :
    readQuoted '\x27' escaped ('\x27' :: (doubledChars '\x27' cs ++ '\x27' :: rest)) ≠
      some (t, rest) := by
  induction cs generalizing t with
  | nil =>
    rw [doubledChars_nil, List.nil_append, readQuoted_pair]
    intro h
    obtain ⟨u, hread, -⟩ := map_read_eq_some.mp h
    exact absurd (length_readQuoted hread) (Nat.lt_irrefl _)
  | cons c cs ih =>
    by_cases hc : c = '\x27'
    · subst hc
      rw [doubledChars_self, List.cons_append, List.cons_append, readQuoted_pair]
      intro h
      obtain ⟨u, hread, -⟩ := map_read_eq_some.mp h
      exact ih u hread
    · rw [doubledChars_plain hc, List.cons_append, readQuoted_close (by simpa using hc)]
      intro h
      have hlength := congrArg List.length (Prod.mk.inj (Option.some.inj h)).2
      simp only [List.length_cons, List.length_append] at hlength
      omega

/-- A backslash that is read to the end of its literal escapes a character of the text, which is no
quote. -/
theorem exists_of_readQuoted_backslash
    (h : readQuoted '\x27' (some mysqlEscape)
      (doubledChars '\x27' ('\\' :: cs) ++ '\x27' :: rest) = some (t, rest)) :
    ∃ d ds u, cs = d :: ds ∧ t = mysqlEscape d ++ u ∧
      readQuoted '\x27' (some mysqlEscape) (doubledChars '\x27' ds ++ '\x27' :: rest) =
        some (u, rest) := by
  rw [doubledChars_plain (by decide), List.cons_append] at h
  cases cs with
  | nil =>
    rw [doubledChars_nil, List.nil_append, readQuoted_escape (by decide)] at h
    obtain ⟨u, hread, -⟩ := map_read_eq_some.mp h
    exact absurd (length_readQuoted hread) (Nat.lt_irrefl _)
  | cons d ds =>
    by_cases hd : d = '\x27'
    · subst hd
      rw [doubledChars_self, List.cons_append, List.cons_append, readQuoted_escape (by decide)] at h
      obtain ⟨u, hread, -⟩ := map_read_eq_some.mp h
      exact absurd hread (readQuoted_shifted ds u rest)
    · rw [doubledChars_plain hd, List.cons_append, readQuoted_escape (by decide)] at h
      obtain ⟨u, hread, rfl⟩ := map_read_eq_some.mp h
      exact ⟨d, ds, u, rfl, rfl, hread⟩

/-- What is read from a whole literal is no longer than its text: an escape stands for two characters at
most. -/
theorem length_of_readQuoted (hrest : rest.head? ≠ some '\x27')
    (h : readQuoted '\x27' (some mysqlEscape) (doubledChars '\x27' cs ++ '\x27' :: rest) =
      some (t, rest)) : t.length ≤ cs.length := by
  induction hn : cs.length using Nat.strongRecOn generalizing cs t with
  | _ n ih =>
    subst hn
    cases cs with
    | nil =>
      rw [doubledChars_nil, List.nil_append, readQuoted_close hrest] at h
      obtain ⟨rfl, -⟩ : [] = t ∧ True := by simpa using h
      exact Nat.zero_le _
    | cons c cs =>
      by_cases hc : c = '\\'
      · subst hc
        obtain ⟨d, ds, u, rfl, rfl, hread⟩ := exists_of_readQuoted_backslash h
        have hu := ih ds.length (by grind) hread rfl
        have hd := length_mysqlEscape_le d
        simp only [List.length_append, List.length_cons]
        omega
      · rw [readQuoted_doubled_cons (absurd · hc)] at h
        obtain ⟨u, hread, rfl⟩ := map_read_eq_some.mp h
        have hu := ih cs.length (by simp) hread rfl
        simp only [List.length_cons]
        omega

/-- The literal of a text is read back exactly if each backslash stays where it stands. -/
theorem readQuoted_doubled_iff (hrest : rest.head? ≠ some '\x27') :
    readQuoted '\x27' (some mysqlEscape) (doubledChars '\x27' cs ++ '\x27' :: rest) =
      some (cs, rest) ↔ EscapesWildcards cs := by
  induction hn : cs.length using Nat.strongRecOn generalizing cs with
  | _ n ih =>
    subst hn
    cases cs with
    | nil => exact iff_of_true (readQuoted_close hrest) escapesWildcards_nil
    | cons c cs =>
      by_cases hc : c = '\\'
      · subst hc
        rw [escapesWildcards_backslash]
        constructor
        · intro h
          obtain ⟨d, ds, u, rfl, ht, hread⟩ := exists_of_readQuoted_backslash h
          by_cases hwild : d = '%' ∨ d = '_'
          · obtain rfl : ds = u := by simpa [mysqlEscape_wildcard hwild] using ht
            exact ⟨d, ds, rfl, hwild, (ih ds.length (by grind) rfl).mp hread⟩
          · have hlength := congrArg List.length ht
            have hu := length_of_readQuoted hrest hread
            simp only [List.length_append, List.length_cons, length_mysqlEscape hwild] at hlength
            omega
        · rintro ⟨d, ds, rfl, hwild, hds⟩
          have hd : d ≠ '\x27' := by rintro rfl; revert hwild; decide
          rw [doubledChars_plain (by decide), doubledChars_plain hd, List.cons_append, List.cons_append,
            readQuoted_escape (by decide), (ih ds.length (by grind) rfl).mpr hds,
            mysqlEscape_wildcard hwild]
          rfl
      · rw [readQuoted_doubled_cons (absurd · hc), map_read_eq_some, escapesWildcards_plain hc,
          ← ih cs.length (by simp) rfl]
        simp

/-- MySQL reads the literal of a text as the text, and as no more of the statement, exactly if each
backslash of the text stands before a percent sign or an underscore. -/
theorem Expr.literal_read_iff (p : Profile) (s : String) (hrest : rest.head? ≠ some '\x27') :
    Value.read? (some mysqlEscape) (((Expr.literal (.text s)).toSql p).sql.toList ++ rest) =
      some (.text s, rest) ↔ EscapesWildcards s.toList :=
  (Value.read?_text_iff (p.supports .booleanLiterals)).trans (readQuoted_doubled_iff hrest)

theorem Expr.literal_read_iff_quoted :
    let name := "O\x27Neil\\_%"
    let behind := ") FOR UPDATE".toList
    behind.head? ≠ some '\x27' ∧
      (Value.read? (some mysqlEscape)
          (((Expr.literal (.text name)).toSql (.ofVendor .mysql ⟨8, 0, 0⟩)).sql.toList ++ behind) =
        some (.text name, behind) ↔ EscapesWildcards name.toList) :=
  ⟨by decide, Expr.literal_read_iff _ _ (by decide)⟩

/-- The backslash of the first tenant takes its closing quote into the text, so that the second tenant is
read as a part of the statement. -/
theorem Expr.tenants_misread :
    let p := Profile.ofVendor .mysql ⟨8, 0, 0⟩
    let first := Expr.literal (.text "a\\")
    let second := Expr.literal (.text ") OR 1 = 1 -- ")
    (((Expr.column ⟨"INVOICE", "A0"⟩ "TENANT" "string").inList [first, second]).toSql p).sql =
        "A0.TENANT IN (" ++ (first.toSql p).sql ++ ", \x27) OR 1 = 1 -- \x27)" ∧
      Value.read? (some mysqlEscape)
          ((first.toSql p).sql.toList ++ ", \x27) OR 1 = 1 -- \x27)".toList) =
        some (.text "a\x27, ", ") OR 1 = 1 -- \x27)".toList) ∧
      ¬∀ (s : String) (rest : List Char), rest.head? ≠ some '\x27' →
        Value.read? (some mysqlEscape) (((Expr.literal (.text s)).toSql p).sql.toList ++ rest) =
          some (.text s, rest) := by
  refine ⟨by decide +kernel, by decide +kernel, fun h => ?_⟩
  exact absurd (h "a\\" [] (by decide)) (by decide +kernel)

end ObjectSql
