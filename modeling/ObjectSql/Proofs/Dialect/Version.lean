import Mathlib.Data.List.DropRight
import Mathlib.Data.List.TakeWhile
import ObjectSql.Dialect.Version
import ObjectSql.Proofs.Text.Digits

/-!
# Reading versions

A version text begins with runs of digits that are divided by dots. A run is reached if it begins the text
or follows the dot behind a run that is reached. Reading takes the first three runs, and it fails exactly
if there is none or one of the three is too large. So a version is read back from its text, whatever
follows it.
-/
namespace ObjectSql

open Text

/-! ## Digit runs and dots -/

namespace Text

def startsWithDigit (cs : List Char) : Bool := cs.head?.any isDigit

/-- Digit runs with a dot behind each but the last one: `DigitRun cs i run` says that `run` stands behind
`i` others at the front of a text. -/
inductive DigitRun : List Char → Nat → List Char → Prop
  | first {run rest : List Char} (hrun : IsRun run) (hrest : ¬startsWithDigit rest) :
    DigitRun (run ++ rest) 0 run
  | behind {run cs next : List Char} {i : Nat} (hrun : IsRun run) (h : DigitRun cs i next) :
    DigitRun (run ++ '.' :: cs) (i + 1) next

/-- What a text begins with: no digit, a run that ends reading, or a run with a dot behind it. -/
inductive FrontRun : List Char → Prop
  | none {cs : List Char} (h : ¬startsWithDigit cs) : FrontRun cs
  | last {run rest : List Char} (hrun : IsRun run) (hrest : ¬startsWithDigit rest)
    (hdot : rest.head? ≠ some '.') : FrontRun (run ++ rest)
  | dotted {run : List Char} (cs : List Char) (hrun : IsRun run) : FrontRun (run ++ '.' :: cs)

variable {run rest cs next : List Char} {i : Nat}

theorem startsWithDigit_dropWhile (cs : List Char) : ¬startsWithDigit (cs.dropWhile isDigit) := by
  unfold startsWithDigit
  cases h : cs.dropWhile isDigit with
  | nil => simp
  | cons c rest =>
    have hlength : 0 < (cs.dropWhile isDigit).length := by rw [h]; exact Nat.zero_lt_succ _
    have hhead := List.dropWhile_get_zero_not isDigit cs hlength
    simpa [h] using hhead

theorem frontRun (cs : List Char) : FrontRun cs := by
  by_cases hstart : startsWithDigit cs
  · obtain ⟨c, rest, rfl, hc⟩ : ∃ c rest, cs = c :: rest ∧ isDigit c := by
      cases cs with
      | nil => cases hstart
      | cons c rest => exact ⟨c, rest, rfl, hstart⟩
    have hrun : IsRun ((c :: rest).takeWhile isDigit) :=
      ⟨by simp [hc], fun d hd => List.mem_takeWhile_imp hd⟩
    have hend := startsWithDigit_dropWhile (c :: rest)
    rw [← List.takeWhile_append_dropWhile (p := isDigit) (l := c :: rest)]
    generalize (c :: rest).dropWhile isDigit = behind at hend ⊢
    by_cases hdot : behind.head? = some '.'
    · obtain ⟨cs, rfl⟩ := List.head?_eq_some_iff.mp hdot
      exact .dotted cs hrun
    · exact .last hrun hend hdot
  · exact .none hstart

namespace IsRun

theorem startsWithDigit_append (h : IsRun run) (rest : List Char) : startsWithDigit (run ++ rest) := by
  obtain ⟨c, cs, rfl⟩ := List.exists_cons_of_ne_nil h.ne_nil
  exact h.digits c List.mem_cons_self

/-- A run ends where the digits end. -/
theorem takeWhile_append (h : IsRun run) (hrest : ¬startsWithDigit rest) :
    (run ++ rest).takeWhile isDigit = run := by
  rw [List.takeWhile_append_of_pos h.digits]
  cases rest with
  | nil => simp
  | cons c rest =>
    have hc : isDigit c = false := by simpa [startsWithDigit] using hrest
    simp [hc]

theorem append_inj (h : IsRun run) (hnext : IsRun next) (hrest : ¬startsWithDigit rest)
    (hcs : ¬startsWithDigit cs) (heq : run ++ rest = next ++ cs) : run = next ∧ rest = cs := by
  have hrun : run = next := by
    rw [← h.takeWhile_append hrest, heq, hnext.takeWhile_append hcs]
  exact ⟨hrun, List.append_cancel_left (hrun ▸ heq)⟩

end IsRun

theorem dot_not_digit (cs : List Char) : ¬startsWithDigit ('.' :: cs) := by simp [startsWithDigit, isDigit]

/-! The runs of a text, by what it begins with. -/

theorem not_digitRun (h : ¬startsWithDigit cs) : ¬DigitRun cs i run := by
  rintro (⟨hrun, -⟩ | ⟨hrun, -⟩) <;> exact h (hrun.startsWithDigit_append _)

theorem digitRun_last_iff (hrun : IsRun run) (hrest : ¬startsWithDigit rest)
    (hdot : rest.head? ≠ some '.') : DigitRun (run ++ rest) i next ↔ i = 0 ∧ next = run := by
  constructor
  · intro h
    generalize htext : run ++ rest = text at h
    cases h with
    | first hnext hend => exact ⟨rfl, (hrun.append_inj hnext hrest hend htext).1.symm⟩
    | behind hfirst _ =>
      obtain ⟨-, rfl⟩ := hrun.append_inj hfirst hrest (dot_not_digit _) htext
      exact absurd rfl hdot
  · rintro ⟨rfl, rfl⟩
    exact .first hrun hrest

theorem digitRun_dotted_iff (hrun : IsRun run) :
    DigitRun (run ++ '.' :: cs) i next ↔
      (i = 0 ∧ next = run) ∨ ∃ j, i = j + 1 ∧ DigitRun cs j next := by
  constructor
  · intro h
    generalize htext : run ++ '.' :: cs = text at h
    cases h with
    | first hnext hend => exact .inl ⟨rfl, (hrun.append_inj hnext (dot_not_digit _) hend htext).1.symm⟩
    | behind hfirst h =>
      obtain ⟨-, heq⟩ := hrun.append_inj hfirst (dot_not_digit _) (dot_not_digit _) htext
      cases heq
      exact .inr ⟨_, rfl, h⟩
  · rintro (⟨rfl, rfl⟩ | ⟨j, rfl, h⟩)
    · exact .first hrun (dot_not_digit _)
    · exact .behind hrun h

/-- There is one run at most behind a number of others. -/
theorem DigitRun.unique (h : DigitRun cs i run) (h' : DigitRun cs i next) : next = run := by
  induction i generalizing cs with
  | zero =>
    cases frontRun cs with
    | none hstart => exact absurd h (not_digitRun hstart)
    | last hrun hrest hdot =>
      rw [digitRun_last_iff hrun hrest hdot] at h h'
      exact h'.2.trans h.2.symm
    | dotted cs hrun => simp_all [digitRun_dotted_iff hrun]
  | succ i ih =>
    cases frontRun cs with
    | none hstart => exact absurd h (not_digitRun hstart)
    | last hrun hrest hdot => exact absurd ((digitRun_last_iff hrun hrest hdot).mp h).1 (Nat.succ_ne_zero i)
    | dotted cs hrun =>
      simp only [digitRun_dotted_iff hrun, Nat.succ_ne_zero, false_and, false_or, Nat.succ.injEq,
        exists_eq_left'] at h h'
      exact ih h h'

/-! ## Pieces between dots -/

theorem splitChars_of_not_mem {sep : Char} (h : sep ∉ cs) : splitChars sep cs = [cs] := by
  induction cs with
  | nil => rfl
  | cons c cs ih =>
    rw [List.mem_cons, not_or] at h
    rw [splitChars, if_neg (Ne.symm h.1), ih h.2]

theorem splitChars_append {sep : Char} (h : sep ∉ cs) (rest : List Char) :
    splitChars sep (cs ++ sep :: rest) = cs :: splitChars sep rest := by
  induction cs with
  | nil => simp [splitChars]
  | cons c cs ih =>
    rw [List.mem_cons, not_or] at h
    rw [List.cons_append, splitChars, if_neg (Ne.symm h.1), ih h.2]

theorem IsRun.dot_not_mem (h : IsRun run) : '.' ∉ run := h.not_mem (by decide)

end Text

namespace Version

variable {run rest cs : List Char} {limit i : Nat} {ns : List Nat}

theorem numbers_nil (limit : Nat) : numbers limit [] = some [] := by cases limit <;> rfl

/-- A component with a run in front: what follows the run ends reading, and so does a run that is too
large. -/
theorem numbers_run (hrun : IsRun run) (hrest : ¬startsWithDigit rest) (components : List (List Char)) :
    numbers (limit + 1) ((run ++ rest) :: components) =
      if digitsValue run < 0x100000000 then
        if rest = [] then (numbers limit components).map (digitsValue run :: ·)
        else some [digitsValue run]
      else none := by
  have hwhole : run.length = (run ++ rest).length ↔ rest = [] := by simp
  have hempty : ¬run.isEmpty := by simpa using hrun.ne_nil
  rw [numbers, hrun.takeWhile_append hrest, readBelow_run hrun]
  by_cases hsmall : digitsValue run < 0x100000000
  · simp only [hempty, hsmall, hwhole, if_true, if_false, Bool.false_eq_true]
  · simp only [hempty, hsmall, if_false, Bool.false_eq_true]

/-! The numbers of a text, by what it begins with. -/

theorem numbers_none (h : ¬startsWithDigit cs) : numbers (limit + 1) (splitChars '.' cs) = some [] := by
  -- the first component is a front of the text, so it has no digit in front either
  obtain ⟨component, components, hsplit, hfront⟩ :
      ∃ component components, splitChars '.' cs = component :: components ∧ component <+: cs := by
    by_cases hdot : '.' ∈ cs
    · obtain ⟨component, more, rfl, hnot⟩ := List.eq_append_cons_of_mem hdot
      exact ⟨component, _, splitChars_append hnot more, List.prefix_append _ _⟩
    · exact ⟨cs, [], splitChars_of_not_mem hdot, List.prefix_rfl⟩
  have hempty : component.takeWhile isDigit = [] := by
    obtain ⟨more, rfl⟩ := hfront
    cases component with
    | nil => rfl
    | cons c component =>
      have hc : isDigit c = false := by simpa [startsWithDigit] using h
      simp [hc]
  rw [hsplit, numbers, hempty]
  rfl

theorem numbers_last (hrun : IsRun run) (hrest : ¬startsWithDigit rest)
    (hdot : rest.head? ≠ some '.') :
    numbers (limit + 1) (splitChars '.' (run ++ rest)) =
      if digitsValue run < 0x100000000 then some [digitsValue run] else none := by
  by_cases hmem : '.' ∈ rest
  · obtain ⟨front, more, rfl, hnot⟩ := List.eq_append_cons_of_mem hmem
    have hfront : front ≠ [] := by
      rintro rfl
      exact hdot rfl
    have hend : ¬startsWithDigit front := by
      obtain ⟨c, front, rfl⟩ := List.exists_cons_of_ne_nil hfront
      exact hrest
    rw [← List.append_assoc, splitChars_append (by simp [hrun.dot_not_mem, hnot]),
      numbers_run hrun hend, if_neg hfront]
  · rw [splitChars_of_not_mem (by simp [hrun.dot_not_mem, hmem]), numbers_run hrun hrest,
      numbers_nil]
    simp

theorem numbers_dotted (hrun : IsRun run) :
    numbers (limit + 1) (splitChars '.' (run ++ '.' :: cs)) =
      if digitsValue run < 0x100000000 then
        (numbers limit (splitChars '.' cs)).map (digitsValue run :: ·)
      else none := by
  have hend : ¬startsWithDigit [] := by simp [startsWithDigit]
  rw [splitChars_append hrun.dot_not_mem]
  simpa using numbers_run hrun hend (splitChars '.' cs)

/-! ## Runs and numbers -/

/-- Reading fails exactly on a run that is too large. -/
theorem numbers_eq_none_iff : numbers limit (splitChars '.' cs) = none ↔
    ∃ i < limit, ∃ run, DigitRun cs i run ∧ 0x100000000 ≤ digitsValue run := by
  induction limit generalizing cs with
  | zero => simp [numbers]
  | succ limit ih =>
    cases frontRun cs with
    | none hstart => simp [numbers_none hstart, not_digitRun hstart]
    | last hrun hrest hdot =>
      rw [numbers_last hrun hrest hdot, Nat.exists_lt_succ_left]
      simp [digitRun_last_iff hrun hrest hdot]
    | dotted cs hrun =>
      rw [numbers_dotted hrun, Nat.exists_lt_succ_left]
      simp [digitRun_dotted_iff hrun, ih, or_iff_not_imp_left]

/-- A number is read for every run, and no other one. -/
theorem getElem?_numbers (h : numbers limit (splitChars '.' cs) = some ns) (hi : i < limit) :
    (∀ run, DigitRun cs i run → ns[i]? = some (digitsValue run)) ∧
      ((¬∃ run, DigitRun cs i run) → ns[i]? = none) := by
  induction limit generalizing cs ns i with
  | zero => omega
  | succ limit ih =>
    cases frontRun cs with
    | none hstart =>
      rw [numbers_none hstart] at h
      cases h
      exact ⟨fun run hrun => absurd hrun (not_digitRun hstart), fun _ => rfl⟩
    | last hrun hrest hdot =>
      rw [numbers_last hrun hrest hdot] at h
      split_ifs at h
      cases h
      cases i <;> simp [digitRun_last_iff hrun hrest hdot]
    | dotted cs hrun =>
      rw [numbers_dotted hrun] at h
      split_ifs at h
      obtain ⟨ns, hns, rfl⟩ := Option.map_eq_some_iff.mp h
      cases i with
      | zero => simp [digitRun_dotted_iff hrun]
      | succ i => simpa [digitRun_dotted_iff hrun] using ih hns (Nat.lt_of_succ_lt_succ hi)

/-! ## Versions -/

def component (v : Version) (i : Fin 3) : Nat := [v.major, v.minor, v.revision][i]

variable {s : String} {v : Version}

theorem numbers_eq_nil_iff : numbers (limit + 1) (splitChars '.' cs) = some [] ↔ ¬startsWithDigit cs := by
  refine ⟨fun h hstart => ?_, numbers_none⟩
  cases frontRun cs with
  | none hnot => exact hnot hstart
  | last hrun hrest hdot =>
    rw [numbers_last hrun hrest hdot] at h
    split_ifs at h
    cases h
  | dotted cs hrun =>
    rw [numbers_dotted hrun] at h
    split_ifs at h
    simp at h

theorem read?_eq_none_iff : read? s = none ↔ ¬startsWithDigit (trimChars s.toList) ∨
    ∃ i < 3, ∃ run, DigitRun (trimChars s.toList) i run ∧ 0x100000000 ≤ digitsValue run := by
  have hnil : numbers 3 (splitChars '.' (trimChars s.toList)) = some [] ↔ _ := numbers_eq_nil_iff
  rw [← numbers_eq_none_iff, ← hnil, read?]
  rcases numbers 3 (splitChars '.' (trimChars s.toList)) with _ | _ | ⟨major, rest⟩ <;> simp

theorem eq_of_component {w : Version} (h : ∀ i, v.component i = w.component i) : v = w := by
  obtain ⟨major, minor, revision⟩ := v
  rw [Version.mk.injEq]
  exact ⟨h 0, h 1, h 2⟩

/-- A number that is read stands in the text, and the others are zero. -/
theorem component_read? (h : read? s = some v) (i : Fin 3) :
    (∀ run, DigitRun (trimChars s.toList) i run → v.component i = digitsValue run) ∧
      ((¬∃ run, DigitRun (trimChars s.toList) i run) → v.component i = 0) := by
  unfold read? at h
  split at h
  · next major rest hnumbers =>
    cases h
    have hcomponent : component ⟨major, rest.headD 0, (rest.drop 1).headD 0⟩ i =
        ((major :: rest)[i.val]?).getD 0 := by
      match i with
      | 0 => rfl
      | 1 => cases rest <;> rfl
      | 2 => rcases rest with _ | ⟨minor, _ | ⟨revision, rest⟩⟩ <;> rfl
    obtain ⟨hread, hmissing⟩ := getElem?_numbers hnumbers i.isLt
    rw [hcomponent]
    exact ⟨fun run hrun => by rw [hread run hrun]; rfl, fun hnone => by rw [hmissing hnone]; rfl⟩
  · cases h

/-! ## Reading back -/

theorem isRun_toDigits (n : Nat) : IsRun (Nat.toDigits 10 n) :=
  ⟨Nat.toDigits_ne_nil, fun _ => isDigit_of_mem_toDigits⟩

theorem toList_toText (v : Version) : v.toText.toList =
    Nat.toDigits 10 v.major ++ '.' :: (Nat.toDigits 10 v.minor ++ '.' :: Nat.toDigits 10 v.revision) := by
  simp [toText]

theorem not_isBlank_of_isDigit {c : Char} (h : isDigit c) : isBlank c = false := by
  simp only [isDigit, Bool.and_eq_true, decide_eq_true_eq, Char.le_def, UInt32.le_iff_toNat_le] at h
  have hrange : 0x30 ≤ c.toNat ∧ c.toNat ≤ 0x39 := h
  simp only [isBlank, Bool.or_eq_false_iff, Bool.and_eq_false_iff, decide_eq_false_iff_not, beq_eq_false_iff_ne]
  omega

/-- The text of a version has no blanks in it. -/
theorem isBlank_of_mem_toText {c : Char} (h : c ∈ v.toText.toList) : isBlank c = false := by
  simp only [toList_toText, List.mem_append, List.mem_cons] at h
  rcases h with h | rfl | h | rfl | h
  · exact not_isBlank_of_isDigit (isDigit_of_mem_toDigits h)
  · rfl
  · exact not_isBlank_of_isDigit (isDigit_of_mem_toDigits h)
  · rfl
  · exact not_isBlank_of_isDigit (isDigit_of_mem_toDigits h)

/-- Trimming keeps what has no blanks, and a part of what follows it. -/
theorem trimChars_append {before core : List Char} (hbefore : ∀ c ∈ before, isBlank c)
    (hcore : ∀ c ∈ core, isBlank c = false) (hne : core ≠ []) (after : List Char) :
    ∃ kept, kept <+: after ∧ trimChars (before ++ (core ++ after)) = core ++ kept := by
  have hfront : (before ++ (core ++ after)).dropWhile isBlank = core ++ after := by
    obtain ⟨c, cs, rfl⟩ := List.exists_cons_of_ne_nil hne
    rw [List.dropWhile_append_of_pos hbefore]
    simp [hcore c List.mem_cons_self]
  refine ⟨(after.reverse.dropWhile isBlank).reverse, List.rdropWhile_prefix isBlank after, ?_⟩
  have hback : core.reverse.dropWhile isBlank = core.reverse :=
    List.dropWhile_eq_self_iff.mpr fun hlength => by
      simpa using hcore _ (List.mem_reverse.mp (List.getElem_mem hlength))
  rw [trimChars, hfront, List.reverse_append, List.dropWhile_append, hback]
  split
  · next hempty => simp [List.isEmpty_iff.mp hempty]
  · simp

theorem not_startsWithDigit_of_front {cs ds : List Char} (hfront : cs <+: ds) (h : ¬startsWithDigit ds) :
    ¬startsWithDigit cs := by
  obtain ⟨rest, rfl⟩ := hfront
  cases cs with
  | nil => simp [startsWithDigit]
  | cons c cs => exact h

/-- Blanks do not make a text begin with a digit. -/
theorem not_startsWithDigit_append {t after : String} (ht : ¬startsWithDigit t.toList)
    (hafter : isBlankText after) : ¬startsWithDigit (t.toList ++ after.toList) := by
  cases ht' : t.toList with
  | cons c cs =>
    rw [ht'] at ht
    exact ht
  | nil =>
    cases hafter' : after.toList with
    | nil => simp [startsWithDigit]
    | cons c cs =>
      have hblank : isBlank c := List.all_eq_true.mp hafter c (by simp [hafter'])
      intro hdigit
      simp [not_isBlank_of_isDigit hdigit] at hblank

/-- The runs of a text that begins with the text of a version. -/
theorem digitRun_component (v : Version) {rest : List Char} (h : ¬startsWithDigit rest) (i : Fin 3) :
    ∃ run, DigitRun (v.toText.toList ++ rest) i run ∧ digitsValue run = v.component i := by
  have hlast := DigitRun.first (isRun_toDigits v.revision) h
  have hmiddle := DigitRun.behind (isRun_toDigits v.minor) hlast
  have hall := DigitRun.behind (isRun_toDigits v.major) hmiddle
  simp only [toList_toText, List.append_assoc, List.cons_append]
  match i with
  | 0 => exact ⟨_, .first (isRun_toDigits v.major) (dot_not_digit _), digitsValue_toDigits _⟩
  | 1 =>
    exact ⟨_, .behind (isRun_toDigits v.major) (.first (isRun_toDigits v.minor) (dot_not_digit _)),
      digitsValue_toDigits _⟩
  | 2 => exact ⟨_, hall, digitsValue_toDigits _⟩

/-- A version is read back from its text between blanks, whatever follows that is no digit. -/
theorem read?_append {before after t : String} (hsmall : ∀ i, v.component i < 0x100000000)
    (hbefore : isBlankText before) (hafter : isBlankText after) (ht : ¬startsWithDigit t.toList) :
    read? (before ++ v.toText ++ t ++ after) = some v := by
  have hne : v.toText.toList ≠ [] := by simp [toList_toText]
  obtain ⟨kept, hfront, htrim⟩ := trimChars_append (List.all_eq_true.mp hbefore)
    (fun _ => isBlank_of_mem_toText) hne (t.toList ++ after.toList)
  have hkept := not_startsWithDigit_of_front hfront (not_startsWithDigit_append ht hafter)
  have htext : trimChars (before ++ v.toText ++ t ++ after).toList = v.toText.toList ++ kept := by
    simpa only [String.toList_append, List.append_assoc] using htrim
  have hruns := digitRun_component v hkept
  -- what is read are the numbers of the runs, and these are the components of the version
  cases hread : read? (before ++ v.toText ++ t ++ after) with
  | none =>
    rw [read?_eq_none_iff, htext] at hread
    rcases hread with hstart | ⟨i, hi, run, hrun, hlarge⟩
    · obtain ⟨run, hrun, -⟩ := hruns 0
      exact absurd hrun (not_digitRun hstart)
    · obtain ⟨run', hrun', hvalue⟩ := hruns ⟨i, hi⟩
      rw [hrun'.unique hrun, hvalue] at hlarge
      exact absurd (hsmall ⟨i, hi⟩) (Nat.not_lt.mpr hlarge)
  | some w =>
    refine congrArg some (eq_of_component fun i => ?_)
    obtain ⟨run, hrun, hvalue⟩ := hruns i
    rw [(component_read? hread i).1 run (htext ▸ hrun), hvalue]

/-- Reading fails if no digit begins the trimmed text or one of the first three runs has more than 32 bits,
and not otherwise; it gives the numbers of these runs and zero for those that are missing. -/
theorem leading_runs_read (s : String) :
    (read? s = none ↔ ¬startsWithDigit (trimChars s.toList) ∨
      ∃ i < 3, ∃ run, DigitRun (trimChars s.toList) i run ∧ 0x100000000 ≤ digitsValue run) ∧
    (∀ v, read? s = some v → ∀ i : Fin 3,
      (∀ run, DigitRun (trimChars s.toList) i run → v.component i = digitsValue run) ∧
      ((¬∃ run, DigitRun (trimChars s.toList) i run) → v.component i = 0)) ∧
    ∀ (v : Version) (before t after : String), s = before ++ v.toText ++ t ++ after →
      (∀ i, v.component i < 0x100000000) → isBlankText before → isBlankText after →
      ¬startsWithDigit t.toList → read? s = some v := by
  refine ⟨read?_eq_none_iff, fun v => component_read?, ?_⟩
  rintro v before t after rfl hsmall hbefore hafter ht
  exact read?_append hsmall hbefore hafter ht

/-- A version as a driver reports it. -/
theorem leading_runs_read_driver :
    let v : Version := ⟨10, 14, 2⟩
    (∀ i, v.component i < 0x100000000) ∧ isBlankText " " ∧ isBlankText "\n" ∧
      ¬startsWithDigit ".0 - (1828579)".toList ∧
      read? " 10.14.2.0 - (1828579)\n" = some v := by
  have hsmall : ∀ i, component ⟨10, 14, 2⟩ i < 0x100000000 := by decide
  have hbefore : isBlankText " " := by decide
  have hafter : isBlankText "\n" := by decide
  have hrest : ¬startsWithDigit ".0 - (1828579)".toList := by decide
  exact ⟨hsmall, hbefore, hafter, hrest,
    (leading_runs_read _).2.2 _ " " ".0 - (1828579)" "\n" (by decide) hsmall hbefore hafter hrest⟩

end Version

end ObjectSql
