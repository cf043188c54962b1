import ObjectSql.Proofs.Statement.Quoting

/-!
# Words of a statement

The text of a statement is cut into words: names in quotes as they stand, runs of the characters that
names have without quotes, and every other character by itself. Blanks separate words. A name that a
profile writes is one word whatever it names.
-/
namespace ObjectSql

open Text IdentifierPolicy

inductive WordState where
  | between
  | plain (cs : List Char)
  | quoted (cs : List Char)
  /-- A closing quote ends the word unless it comes a second time. -/
  | closed (cs : List Char)
deriving DecidableEq

namespace WordState

def finish : WordState → List String
  | between => []
  | plain cs | quoted cs | closed cs => [String.ofList cs]

@[simp] theorem finish_between : between.finish = [] := rfl

/-- A character that does not belong to the word before it. -/
def start (v : Vendor) (c : Char) : List String × WordState :=
  if c = ' ' ∨ c = '\n' then ([], between)
  else if c = (quotesOf v).1 then ([], quoted [c])
  else if isNameChar c then ([], plain [c])
  else ([String.ofList [c]], between)

def step (v : Vendor) : WordState → Char → List String × WordState
  | between, c => start v c
  | plain cs, c =>
    if isNameChar c then ([], plain (cs ++ [c]))
    else (String.ofList cs :: (start v c).1, (start v c).2)
  | quoted cs, c => ([], if c = (quotesOf v).2 then closed (cs ++ [c]) else quoted (cs ++ [c]))
  | closed cs, c =>
    if c = (quotesOf v).2 then ([], quoted (cs ++ [c]))
    else (String.ofList cs :: (start v c).1, (start v c).2)

@[simp] theorem step_between (v : Vendor) (c : Char) : between.step v c = start v c := rfl

def scan (v : Vendor) : WordState → List Char → List String × WordState
  | s, [] => ([], s)
  | s, c :: cs =>
    let (done, s) := s.step v c
    let (words, s) := scan v s cs
    (done ++ words, s)

theorem scan_append (v : Vendor) (s : WordState) (cs ds : List Char) :
    scan v s (cs ++ ds) =
      ((scan v s cs).1 ++ (scan v (scan v s cs).2 ds).1, (scan v (scan v s cs).2 ds).2) := by
  induction cs generalizing s with
  | nil => simp [scan]
  | cons c cs ih => simp [scan, ih]

def chars : WordState → List Char
  | between => []
  | plain cs | quoted cs | closed cs => cs

theorem finish_chars {s : WordState} {w : String} (h : w ∈ s.finish) : w.toList = s.chars := by
  cases s with
  | between => cases h
  | _ =>
    rw [List.mem_singleton.mp h, String.toList_ofList]
    rfl

/-- Words are completed from the characters so far, and so is the word at hand. -/
theorem step_chars (v : Vendor) (s : WordState) (c : Char) :
    (∀ w ∈ (s.step v c).1, w.toList ⊆ s.chars ++ [c]) ∧ (s.step v c).2.chars ⊆ s.chars ++ [c] := by
  have hstart : (∀ w ∈ (start v c).1, w.toList ⊆ [c]) ∧ (start v c).2.chars ⊆ [c] := by
    unfold start
    split_ifs <;> simp [chars]
  have hnext (cs : List Char) : (∀ w ∈ String.ofList cs :: (start v c).1, w.toList ⊆ cs ++ [c]) ∧
      (start v c).2.chars ⊆ cs ++ [c] := by
    have hright := List.subset_append_right cs [c]
    rw [List.forall_mem_cons, String.toList_ofList]
    exact ⟨⟨List.subset_append_left cs [c], fun w hw => List.Subset.trans (hstart.1 w hw) hright⟩,
      List.Subset.trans hstart.2 hright⟩
  cases s with
  | between => exact hstart
  | quoted cs =>
    dsimp only [step]
    split_ifs <;> simp [chars]
  | _ cs =>
    dsimp only [step]
    split_ifs
    · simp [chars]
    · exact hnext cs

theorem scan_chars (v : Vendor) (s : WordState) (cs : List Char) :
    (∀ w ∈ (scan v s cs).1, w.toList ⊆ s.chars ++ cs) ∧ (scan v s cs).2.chars ⊆ s.chars ++ cs := by
  induction cs generalizing s with
  | nil => simp [scan]
  | cons c cs ih =>
    obtain ⟨hdone, hstate⟩ := step_chars v s c
    obtain ⟨hwords, hlast⟩ := ih (s.step v c).2
    rw [List.append_cons]
    have hrest : (s.step v c).2.chars ++ cs ⊆ s.chars ++ [c] ++ cs :=
      List.append_subset.mpr ⟨List.Subset.trans hstate (List.subset_append_left _ cs),
        List.subset_append_right _ cs⟩
    refine ⟨fun w hw => ?_, List.Subset.trans hlast hrest⟩
    rcases List.mem_append.mp hw with hw | hw
    · exact List.Subset.trans (hdone w hw) (List.subset_append_left _ cs)
    · exact List.Subset.trans (hwords w hw) hrest

end WordState

open WordState

def words (v : Vendor) (text : String) : List String :=
  let (words, s) := scan v .between text.toList
  words ++ s.finish

/-- Fixed words in front of a text. -/
theorem words_fixed {v : Vendor} (text : String) (ws : List String)
    (h : scan v .between text.toList = (ws, .between)) (rest : String) :
    words v (text ++ rest) = ws ++ words v rest := by
  simp [words, scan_append, h]

/-- The characters of a word stand in the text. -/
theorem subset_of_mem_words {v : Vendor} {text w : String} (h : w ∈ words v text) :
    w.toList ⊆ text.toList := by
  obtain ⟨hwords, hlast⟩ := scan_chars v .between text.toList
  rcases List.mem_append.mp h with h | h
  · exact hwords w h
  · rw [finish_chars h]
    exact hlast

/-! ## Names -/

def isBoundary (c : Char) : Bool := [' ', ',', ')', '.'].contains c

/-- Whether the first character of a text, if there is one, ends a name before it. -/
def StandsApart (text : String) : Prop := text.toList.head?.all isBoundary

theorem StandsApart.append {text : String} (h : text.toList.head?.any isBoundary) (rest : String) :
    StandsApart (text ++ rest) := by
  cases hcs : text.toList with
  | nil => simp [hcs] at h
  | cons c cs => simpa [StandsApart, hcs] using h

/-- A name is written in plain characters, or in quotes with the closing quote doubled. -/
inductive IsName (v : Vendor) : String → Prop
  | plain {name : String} (hne : name.toList ≠ []) (hall : name.toList.all isNameChar) :
      IsName v name
  | quoted (name : String) :
      IsName v (String.singleton (quotesOf v).1 ++ doubled (quotesOf v).2 name ++
        String.singleton (quotesOf v).2)

theorem IsName.ne_closingParen {v : Vendor} {name : String} (h : IsName v name) : name ≠ ")" := by
  rintro rfl
  generalize htext : ")" = text at h
  cases h with
  | plain _ hall => rw [← htext] at hall; cases hall
  | quoted body =>
    have hlength := congrArg String.length htext
    rw [String.length_append, String.length_append, String.length_singleton,
      String.length_singleton, show ")".length = 1 from rfl] at hlength
    omega

theorem isPlainFor_ne_nil {v : Vendor} {cs : List Char} (h : isPlainFor v cs) : cs ≠ [] := by
  rintro rfl
  cases v <;> cases h

theorem Profile.identifier_isName (p : Profile) (kind : IdentifierKind) (name : String) :
    IsName p.vendor (p.identifier kind name) := by
  rw [p.identifier_eq]
  split
  · exact .quoted (p.writtenName name)
  · next hplain =>
    have hplain : isPlainFor p.vendor (p.writtenName name).toList := by simp_all
    exact .plain (isPlainFor_ne_nil hplain) (isPlainFor_all hplain)

/-- Blanks and quotes are not characters of plain names. -/
theorem start_of_isNameChar {v : Vendor} {c : Char} (h : isNameChar c) :
    start v c = ([], .plain [c]) := by
  have hblank : ¬(c = ' ' ∨ c = '\n') := by rintro (rfl | rfl) <;> cases h
  have hquote : c ≠ (quotesOf v).1 := by rintro rfl; cases v <;> cases h
  simp [start, hblank, hquote, h]

theorem start_openQuote (v : Vendor) :
    start v (quotesOf v).1 = ([], .quoted [(quotesOf v).1]) := by
  cases v <;> rfl

theorem scan_plain {v : Vendor} {cs : List Char} (h : cs.all isNameChar) (read : List Char) :
    scan v (.plain read) cs = ([], .plain (read ++ cs)) := by
  induction cs generalizing read with
  | nil => simp [scan]
  | cons c cs ih =>
    obtain ⟨hc, hcs⟩ := Bool.and_eq_true_iff.mp h
    simp [scan, step, hc, ih hcs]

theorem scan_doubled (v : Vendor) (cs read : List Char) :
    scan v (.quoted read)
        (cs.flatMap fun c => if c = (quotesOf v).2 then [(quotesOf v).2, (quotesOf v).2] else [c]) =
      ([], .quoted (read ++
        cs.flatMap fun c => if c = (quotesOf v).2 then [(quotesOf v).2, (quotesOf v).2] else [c])) := by
  induction cs generalizing read with
  | nil => simp [scan]
  | cons c cs ih =>
    by_cases hc : c = (quotesOf v).2
    · simp [hc, scan, step, ih]
    · simp [hc, scan, step, ih]

/-- At the end of a name only its last word is left, which a boundary completes. -/
theorem IsName.scan {v : Vendor} {name : String} (h : IsName v name) :
    ∃ s, WordState.scan v .between name.toList = ([], s) ∧ s.finish = [name] ∧
      ∀ c, isBoundary c → s.step v c = (name :: (start v c).1, (start v c).2) := by
  cases h with
  | plain hne hall =>
    obtain ⟨c, cs, hcs⟩ := List.exists_cons_of_ne_nil hne
    rw [hcs, List.all_cons, Bool.and_eq_true] at hall
    refine ⟨.plain name.toList, ?_, ?_, fun d hd => ?_⟩
    · simp [hcs, WordState.scan, step, start_of_isNameChar hall.1, scan_plain hall.2]
    · simp [finish]
    · have hd : isNameChar d = false := by
        simp only [isBoundary, List.contains_eq_mem, List.mem_cons, List.not_mem_nil, or_false,
          decide_eq_true_eq] at hd
        rcases hd with rfl | rfl | rfl | rfl <;> decide
      simp [step, hd]
  | quoted body =>
    refine ⟨.closed (String.singleton (quotesOf v).1 ++ doubled (quotesOf v).2 body ++
        String.singleton (quotesOf v).2).toList, ?_, ?_, fun d hd => ?_⟩
    · simp [WordState.scan, step, start_openQuote, scan_append, doubled, scan_doubled]
    · rw [finish, String.ofList_toList]
    · have hd : d ≠ (quotesOf v).2 := by
        rintro rfl
        cases v <;> cases hd
      simp only [step, if_neg hd, String.ofList_toList]

theorem IsName.words_eq {v : Vendor} {name : String} (h : IsName v name) : words v name = [name] := by
  obtain ⟨s, hscan, hfinish, -⟩ := h.scan
  simp [words, hscan, hfinish]

theorem IsName.words_append {v : Vendor} {name rest : String} (h : IsName v name)
    (hrest : StandsApart rest) : words v (name ++ rest) = name :: words v rest := by
  obtain ⟨s, hscan, hfinish, hstep⟩ := h.scan
  cases hcs : rest.toList with
  | nil => simp [words, hscan, hfinish, hcs, WordState.scan]
  | cons c cs =>
    have hc : isBoundary c := by simpa [StandsApart, hcs] using hrest
    simp [words, hscan, hcs, scan_append, WordState.scan, hstep c hc]

end ObjectSql
