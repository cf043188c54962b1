import Mathlib.Data.List.Basic
import ObjectSql.Text.Split

/-!
# Reading texts in quotes

A text in quotes is written with its closing quote doubled, and it is read up to the first closing quote
that does not stand twice. Where a backslash is a character like any other, this gives every text back.
Where it escapes the character behind it, it gives back the texts without one.
-/
namespace ObjectSql.Text

/-- The characters of a text with one of them written twice. -/
def doubledChars (q : Char) (cs : List Char) : List Char :=
  cs.flatMap fun c => if c = q then [q, q] else [c]

/-- What stands between an opening quote and its closing quote, and what follows. The parameter `escaped`
says what a backslash and the character behind it stand for, if a backslash is an escape. -/
def readQuoted (q : Char) (escaped : Option (Char → List Char)) :
    List Char → Option (List Char × List Char)
  | [] => none
  | [c] => if c = q then some ([], []) else none
  | c :: d :: cs =>
    if c = q then
      if d = q then (readQuoted q escaped cs).map (Prod.map (q :: ·) id) else some ([], d :: cs)
    else
      match if c = '\\' then escaped else none with
      | some meaning => (readQuoted q escaped cs).map (Prod.map (meaning d ++ ·) id)
      | none => (readQuoted q escaped (d :: cs)).map (Prod.map (c :: ·) id)

variable {q c : Char} {escaped : Option (Char → List Char)} {cs t rest : List Char}

/-! ## Doubled characters -/

@[simp]
theorem toList_doubled (q : Char) (s : String) :
    (doubled q s).toList = doubledChars q s.toList := by
  simp [doubled, doubledChars]

@[simp]
theorem doubledChars_nil : doubledChars q [] = [] := rfl

@[simp]
theorem doubledChars_self (q : Char) (cs : List Char) :
    doubledChars q (q :: cs) = q :: q :: doubledChars q cs := by
  simp [doubledChars]

theorem doubledChars_plain (h : c ≠ q) (cs : List Char) :
    doubledChars q (c :: cs) = c :: doubledChars q cs := by
  simp [doubledChars, h]

theorem doubledChars_of_not_mem (h : q ∉ cs) : doubledChars q cs = cs := by
  induction cs with
  | nil => rfl
  | cons c cs ih =>
    rw [List.mem_cons, not_or] at h
    rw [doubledChars_plain (Ne.symm h.1), ih h.2]

theorem mem_doubledChars : c ∈ doubledChars q cs ↔ c ∈ cs := by
  induction cs with
  | nil => rfl
  | cons d cs ih =>
    by_cases hd : d = q
    · subst hd
      simp [ih]
    · simp [doubledChars_plain hd, ih]

/-! ## The reader, character by character -/

theorem readQuoted_close (h : rest.head? ≠ some q) :
    readQuoted q escaped (q :: rest) = some ([], rest) := by
  cases rest with
  | nil => simp [readQuoted]
  | cons d ds =>
    have hd : d ≠ q := by simpa using h
    simp [readQuoted, hd]

theorem readQuoted_pair (cs : List Char) :
    readQuoted q escaped (q :: q :: cs) = (readQuoted q escaped cs).map (Prod.map (q :: ·) id) := by
  simp [readQuoted]

theorem readQuoted_plain (hquote : c ≠ q) (hescape : c = '\\' → escaped = none) (cs : List Char) :
    readQuoted q escaped (c :: cs) = (readQuoted q escaped cs).map (Prod.map (c :: ·) id) := by
  have hnone : (if c = '\\' then escaped else none) = none := by simpa using hescape
  cases cs with
  | nil => simp [readQuoted, hquote]
  | cons d ds => simp only [readQuoted, if_neg hquote, hnone]

theorem readQuoted_escape (hquote : q ≠ '\\') (meaning : Char → List Char) (c : Char)
    (cs : List Char) :
    readQuoted q (some meaning) ('\\' :: c :: cs) =
      (readQuoted q (some meaning) cs).map (Prod.map (meaning c ++ ·) id) := by
  simp [readQuoted, hquote.symm]

/-- What was read behind characters that are already known. -/
theorem map_read_eq_some {read : Option (List Char × List Char)} {f : List Char → List Char} :
    read.map (Prod.map f id) = some (t, rest) ↔ ∃ u, read = some (u, rest) ∧ f u = t := by
  simp [Option.map_eq_some_iff, and_comm]

/-- Whatever is read, the closing quote at least is used up. -/
theorem length_readQuoted (h : readQuoted q escaped cs = some (t, rest)) :
    rest.length < cs.length := by
  fun_induction readQuoted q escaped cs generalizing t with
  | case1 => cases h
  | case2 =>
    obtain ⟨-, rfl⟩ : [] = t ∧ [] = rest := by simpa using h
    exact Nat.one_pos
  | case3 => cases h
  | case5 d cs =>
    obtain ⟨-, rfl⟩ : [] = t ∧ d :: cs = rest := by simpa using h
    simp
  | case4 cs ih | case6 c d cs _ meaning _ ih | case7 c d cs _ _ ih =>
    obtain ⟨u, hread, -⟩ := map_read_eq_some.mp h
    have hshorter := ih hread
    simp only [List.length_cons] at hshorter ⊢
    omega

/-- A character that is no escape is read back from its written form. -/
theorem readQuoted_doubled_cons (hescape : c = '\\' → escaped = none) (cs rest : List Char) :
    readQuoted q escaped (doubledChars q (c :: cs) ++ rest) =
      (readQuoted q escaped (doubledChars q cs ++ rest)).map (Prod.map (c :: ·) id) := by
  by_cases hc : c = q
  · rw [hc, doubledChars_self]
    exact readQuoted_pair _
  · rw [doubledChars_plain hc]
    exact readQuoted_plain hc hescape _

/-- A text is read back from quotes if it has no escapes. -/
theorem readQuoted_doubled (hescape : '\\' ∈ cs → escaped = none) (hrest : rest.head? ≠ some q) :
    readQuoted q escaped (doubledChars q cs ++ q :: rest) = some (cs, rest) := by
  induction cs with
  | nil => exact readQuoted_close hrest
  | cons c cs ih =>
    rw [readQuoted_doubled_cons (fun h => hescape (h ▸ List.mem_cons_self)),
      ih fun h => hescape (List.mem_cons_of_mem c h)]
    rfl

/-- Where a backslash is a character like any other, a text is read exactly from its written form. -/
theorem readQuoted_eq_some_iff :
    readQuoted q none cs = some (t, rest) ↔
      cs = doubledChars q t ++ q :: rest ∧ rest.head? ≠ some q := by
  constructor
  · intro h
    fun_induction readQuoted q none cs generalizing t with
    | case1 => cases h
    | case2 =>
      obtain ⟨rfl, rfl⟩ : [] = t ∧ [] = rest := by simpa using h
      simp
    | case3 => cases h
    | case4 cs ih =>
      obtain ⟨u, hread, rfl⟩ := map_read_eq_some.mp h
      obtain ⟨rfl, hrest⟩ := ih hread
      simp [hrest]
    | case5 d cs hd =>
      obtain ⟨rfl, rfl⟩ : [] = t ∧ d :: cs = rest := by simpa using h
      simpa using hd
    | case6 c d cs _ meaning hmeaning =>
      split at hmeaning <;> cases hmeaning
    | case7 c d cs hc _ ih =>
      obtain ⟨u, hread, rfl⟩ := map_read_eq_some.mp h
      obtain ⟨hcs, hrest⟩ := ih hread
      rw [hcs, doubledChars_plain hc]
      exact ⟨rfl, hrest⟩
  · rintro ⟨rfl, hrest⟩
    exact readQuoted_doubled (fun _ => rfl) hrest

/-- A text and its closing quote do not begin like quotes in front of the written form of the text. -/
theorem replicate_doubledChars_ne (hrest : rest.head? ≠ some q) (k : Nat) (cs rest' : List Char) :
    List.replicate (k + 1) q ++ (doubledChars q cs ++ q :: rest') ≠ cs ++ q :: rest := by
  induction cs generalizing k with
  | nil =>
    intro h
    rw [List.replicate_succ, List.cons_append, List.nil_append, List.cons.injEq] at h
    apply hrest
    rw [← h.2]
    cases k <;> rfl
  | cons c cs ih =>
    intro h
    rw [List.replicate_succ, List.cons_append, List.cons_append, List.cons.injEq] at h
    obtain ⟨rfl, h⟩ := h
    apply ih (k + 1)
    rw [← h, doubledChars_self, List.replicate_succ', List.replicate_succ']
    simp

/-- A text that is read from where it stands as it is has no closing quote in it. -/
theorem not_mem_of_readQuoted {rest' : List Char} (hrest : rest.head? ≠ some q)
    (h : readQuoted q none (cs ++ q :: rest) = some (cs, rest')) : q ∉ cs := by
  have hwritten := (readQuoted_eq_some_iff.mp h).1
  clear h
  induction cs with
  | nil => exact List.not_mem_nil
  | cons c cs ih =>
    by_cases hc : c = q
    · subst hc
      rw [doubledChars_self, List.cons_append, List.cons_append, List.cons.injEq] at hwritten
      exact absurd hwritten.2.symm (replicate_doubledChars_ne hrest 0 cs rest')
    · rw [doubledChars_plain hc, List.cons_append, List.cons_append, List.cons.injEq] at hwritten
      rw [List.mem_cons, not_or]
      exact ⟨Ne.symm hc, ih hwritten.2⟩

end ObjectSql.Text
