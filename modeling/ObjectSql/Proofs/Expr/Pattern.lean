import Mathlib.Data.List.Infix
import ObjectSql.Expr.Method

/-!
# Patterns of texts that start or end with another

A pattern of `LIKE` is a list of items: a percent sign stands for any characters, an underscore for one,
and a backslash makes the character behind it stand for itself. A text is escaped for a pattern by a
backslash before each percent sign and each underscore. A backslash of the text itself gets none, so it
escapes what follows it in the pattern, and the pattern is right for texts without a backslash only.
-/
namespace ObjectSql

namespace LikePattern

inductive Item where
  | char (c : Char)
  | one
  | any
deriving Repr, DecidableEq

/-- A character of a pattern that is not escaped. -/
def Item.ofChar (c : Char) : Item :=
  if c = '%' then any else if c = '_' then one else char c

/-- The items of a pattern. A pattern that ends in an escape has none. -/
def read : List Char → Option (List Item)
  | [] => some []
  | c :: cs =>
    if c = '\\' then
      match cs with
      | [] => none
      | d :: ds => (read ds).map (.char d :: ·)
    else (read cs).map (.ofChar c :: ·)

def accept : List Item → List Char → Bool
  | [], s => s.isEmpty
  | .any :: items, s => s.tails.any (accept items)
  | .one :: items, _ :: s => accept items s
  | .char c :: items, d :: s => c == d && accept items s
  | _ :: _, [] => false

/-- Whether a string is like a pattern, with the backslash as the escape. -/
def admits (pattern s : String) : Bool :=
  (read pattern.toList).any (accept · s.toList)

@[simp]
theorem read_nil : read [] = some [] := rfl

theorem read_plain {c : Char} (h : c ≠ '\\') (cs : List Char) :
    read (c :: cs) = (read cs).map (.ofChar c :: ·) := by
  cases cs <;> simp [read, h]

@[simp]
theorem read_backslash (c : Char) (cs : List Char) :
    read ('\\' :: c :: cs) = (read cs).map (.char c :: ·) := by
  simp [read]

@[simp]
theorem accept_any {items : List Item} {s : List Char} :
    accept (.any :: items) s ↔ ∃ rest, rest <:+ s ∧ accept items rest := by
  simp only [accept, List.any_eq_true, List.mem_tails]

@[simp]
theorem accept_chars {cs s : List Char} : accept (cs.map .char) s ↔ cs = s := by
  induction cs generalizing s with
  | nil =>
    rw [List.map_nil, accept, List.isEmpty_iff]
    exact eq_comm
  | cons c cs ih => cases s <;> simp [accept, ih]

theorem accept_chars_any {cs s : List Char} :
    accept (cs.map .char ++ [.any]) s ↔ cs <+: s := by
  induction cs generalizing s with
  | nil =>
    rw [List.map_nil, List.nil_append, accept_any]
    exact ⟨fun _ => List.nil_prefix, fun _ => ⟨[], List.nil_suffix, rfl⟩⟩
  | cons c cs ih => cases s <;> simp [accept, ih]

theorem accept_any_chars {cs s : List Char} :
    accept (.any :: cs.map .char) s ↔ cs <:+ s := by
  simp only [accept_any, accept_chars]
  constructor
  · rintro ⟨_, h, rfl⟩
    exact h
  · exact fun h => ⟨cs, h, rfl⟩

/-! ## The shortest string of a pattern -/

def shortest : List Item → List Char
  | [] => []
  | .char c :: items => c :: shortest items
  | .one :: items => 'a' :: shortest items
  | .any :: items => shortest items

theorem accept_shortest (items : List Item) : accept items (shortest items) := by
  induction items with
  | nil => rfl
  | cons item items ih =>
    cases item with
    | char c => simpa [accept, shortest] using ih
    | one => simpa [accept, shortest] using ih
    | any => exact accept_any.mpr ⟨_, List.suffix_rfl, ih⟩

/-! ## Escaped texts -/

def escaped (cs : List Char) : List Char :=
  cs.flatMap fun c => if c = '%' || c = '_' then ['\\', c] else [c]

variable {c : Char} {cs rest : List Char} {items : List Item}

theorem escaped_wildcard (h : c = '%' ∨ c = '_') (cs : List Char) :
    escaped (c :: cs) = '\\' :: c :: escaped cs := by
  simp [escaped, h]

theorem escaped_plain (h : ¬(c = '%' ∨ c = '_')) (cs : List Char) :
    escaped (c :: cs) = c :: escaped cs := by
  simp [escaped, h]

theorem Item.ofChar_plain (h : ¬(c = '%' ∨ c = '_')) : ofChar c = .char c := by
  rw [not_or] at h
  rw [ofChar, if_neg h.1, if_neg h.2]

/-- A character other than the escape is read back from its escaped form. -/
theorem read_escaped_cons (h : c ≠ '\\') (cs rest : List Char) :
    read (escaped (c :: cs) ++ rest) = (read (escaped cs ++ rest)).map (.char c :: ·) := by
  by_cases hwild : c = '%' ∨ c = '_'
  · rw [escaped_wildcard hwild]
    exact read_backslash c _
  · rw [escaped_plain hwild, List.cons_append, read_plain h, Item.ofChar_plain hwild]

/-- A text without an escape is read back from its escaped form. -/
theorem read_escaped_append (h : '\\' ∉ cs) (rest : List Char) :
    read (escaped cs ++ rest) = (read rest).map (cs.map .char ++ ·) := by
  induction cs with
  | nil => simp [escaped]
  | cons c cs ih =>
    rw [List.mem_cons, not_or] at h
    rw [read_escaped_cons (Ne.symm h.1), ih h.2, Option.map_map]
    rfl

/-! ## Texts with the escape -/

/-- What stands behind an escape of the text. -/
theorem read_escaped_backslash (c : Char) (cs rest : List Char) :
    read (escaped ('\\' :: c :: cs) ++ rest) = (read (escaped cs ++ rest)).map fun items =>
      if c = '%' ∨ c = '_' then .char '\\' :: .ofChar c :: items else .char c :: items := by
  have hescaped : escaped ('\\' :: c :: cs) = '\\' :: escaped (c :: cs) := escaped_plain (by decide) _
  by_cases hwild : c = '%' ∨ c = '_'
  · have hplain : c ≠ '\\' := by rintro rfl; revert hwild; decide
    simp only [hescaped, escaped_wildcard hwild, List.cons_append, read_backslash, read_plain hplain,
      Option.map_map, if_pos hwild]
    rfl
  · simp only [hescaped, escaped_plain hwild, List.cons_append, read_backslash, if_neg hwild]

theorem read_escaped_last (hrest : rest = [] ∨ rest = ['%'])
    (h : read (escaped ['\\'] ++ rest) = some items) : items = [.char '%'] := by
  have hread : ∀ items ∈ read (escaped ['\\'] ++ rest), items = [.char '%'] := by
    rcases hrest with rfl | rfl <;> decide
  exact hread items h

theorem shortest_ofChar_length (c : Char) (items : List Item) :
    (shortest (.ofChar c :: items)).length ≤ (shortest items).length + 1 := by
  unfold Item.ofChar
  split_ifs <;> simp [shortest]

/-- A pattern stands for a string that is no longer than the text it is made from. -/
theorem shortest_length (hrest : rest = [] ∨ rest = ['%'])
    (h : read (escaped cs ++ rest) = some items) : (shortest items).length ≤ cs.length := by
  have hread : ∀ items ∈ read rest, shortest items = [] := by rcases hrest with rfl | rfl <;> decide
  induction cs using List.twoStepInduction generalizing items with
  | nil => simp [hread items h]
  | singleton c =>
    by_cases hc : c = '\\'
    · subst hc
      rw [read_escaped_last hrest h]
      decide
    · rw [read_escaped_cons hc] at h
      obtain ⟨tail, htail, rfl⟩ := Option.map_eq_some_iff.mp h
      simp [shortest, hread tail htail]
  | cons_cons c d cs ih ihtail =>
    by_cases hc : c = '\\'
    · subst hc
      rw [read_escaped_backslash] at h
      obtain ⟨tail, htail, rfl⟩ := Option.map_eq_some_iff.mp h
      have hlength := ih htail
      have hwild := shortest_ofChar_length d tail
      split_ifs <;> simp only [shortest, List.length_cons] <;> omega
    · rw [read_escaped_cons hc] at h
      obtain ⟨tail, htail, rfl⟩ := Option.map_eq_some_iff.mp h
      simpa [shortest] using ihtail d htail

/-- With an escape in the text, a string that its pattern stands for is not the text. -/
theorem shortest_ne (hrest : rest = [] ∨ rest = ['%']) (hcs : '\\' ∈ cs)
    (h : read (escaped cs ++ rest) = some items) : shortest items ≠ cs := by
  induction cs generalizing items with
  | nil => cases hcs
  | cons c cs ih =>
    by_cases hc : c = '\\'
    · subst hc
      cases cs with
      | nil =>
        rw [read_escaped_last hrest h]
        decide
      | cons d cs =>
        rw [read_escaped_backslash] at h
        obtain ⟨tail, htail, rfl⟩ := Option.map_eq_some_iff.mp h
        have hlength := shortest_length hrest htail
        by_cases hone : d = '_'
        · subst hone
          simp [shortest, Item.ofChar]
        · refine fun heq => absurd (congrArg List.length heq) ?_
          split_ifs with hwild
          · rw [hwild.resolve_right hone]
            simp only [Item.ofChar, if_true, shortest, List.length_cons]
            omega
          · simp only [shortest, List.length_cons]
            omega
    · rw [read_escaped_cons hc] at h
      obtain ⟨tail, htail, rfl⟩ := Option.map_eq_some_iff.mp h
      simpa [shortest] using ih ((List.mem_cons.mp hcs).resolve_left (Ne.symm hc)) htail

end LikePattern

/-! ## Texts that start or end with another -/

namespace Affix

/-- Whether a text stands at the side of a string. -/
def Holds (side : Affix) (t s : String) : Prop :=
  match side with
  | start => t.toList <+: s.toList
  | finish => t.toList <:+ s.toList

def patternText (side : Affix) (t : String) : String :=
  Text.joined "" (side.around (escapePattern t) "%")

open LikePattern

theorem patternText_toList (side : Affix) (t : String) :
    (side.patternText t).toList = match side with
      | start => escaped t.toList ++ ['%']
      | finish => '%' :: escaped t.toList := by
  cases side <;> simp [patternText, Text.joined, around, escapePattern, escaped]

theorem invoke_literal {e : Expr} (he : e.category = .string) (ctx : Context) (side : Affix)
    (t : String) :
    e.invoke ctx side.methodName [.literal (.text t)] =
      .ok (e.like (.literal (.text (side.patternText t)))) := by
  have hfind : Method.find ctx.profile.vendor (some .string) side.methodName =
      .ok (.affix side) := by
    cases ctx.profile.vendor <;> cases side <;> rfl
  rw [Expr.invoke, he, hfind]
  rfl

/-- Without an escape in the text, its pattern stands for the strings with the text at the side. -/
theorem admits_iff {t : String} (h : '\\' ∉ t.toList) (side : Affix) (s : String) :
    admits (side.patternText t) s ↔ side.Holds t s := by
  rw [admits, patternText_toList]
  cases side with
  | start =>
    rw [read_escaped_append h]
    exact accept_chars_any
  | finish =>
    have hread := read_escaped_append h []
    rw [List.append_nil] at hread
    rw [read_plain (by decide), hread]
    simp only [read_nil, Option.map_some, List.append_nil, Option.any_some]
    exact accept_any_chars

theorem Holds.refl (side : Affix) (t : String) : side.Holds t t := by
  cases side
  · exact List.prefix_rfl
  · exact List.suffix_rfl

theorem Holds.eq_of_length_le {side : Affix} {t s : String} (h : side.Holds t s)
    (hlength : s.toList.length ≤ t.toList.length) : t.toList = s.toList := by
  cases side
  · exact List.IsPrefix.eq_of_length_le h hlength
  · exact List.IsSuffix.eq_of_length_le h hlength

/-- The items of a pattern come from the escaped text and at most a percent sign behind it. -/
theorem read_patternText {side : Affix} {t : String} {items : List Item}
    (h : LikePattern.read (side.patternText t).toList = some items) :
    ∃ rest fixed, (rest = [] ∨ rest = ['%']) ∧
      LikePattern.read (escaped t.toList ++ rest) = some fixed ∧ shortest items = shortest fixed := by
  rw [patternText_toList] at h
  cases side with
  | start => exact ⟨['%'], items, .inr rfl, h, rfl⟩
  | finish =>
    rw [read_plain (by decide)] at h
    obtain ⟨fixed, hfixed, rfl⟩ := Option.map_eq_some_iff.mp h
    exact ⟨[], fixed, .inl rfl, by rwa [List.append_nil], rfl⟩

/-- A pattern that is right for its text is made from a text without an escape: its shortest string would
have the text at its side, so it would be the text. -/
theorem not_mem_of_admits_iff {side : Affix} {t : String}
    (h : ∀ s, admits (side.patternText t) s ↔ side.Holds t s) : '\\' ∉ t.toList := by
  intro hescape
  obtain ⟨items, hitems, -⟩ := (Option.any_eq_true _ _).mp ((h t).mpr (Holds.refl side t))
  obtain ⟨rest, fixed, hrest, hfixed, hshortest⟩ := read_patternText hitems
  have hadmits : admits (side.patternText t) (String.ofList (shortest items)) := by
    rw [admits, hitems, String.toList_ofList]
    exact accept_shortest items
  have hlength := shortest_length hrest hfixed
  have heq := ((h _).mp hadmits).eq_of_length_le (by simpa [hshortest] using hlength)
  rw [String.toList_ofList, hshortest] at heq
  exact shortest_ne hrest hescape hfixed heq.symm

/-- A search for a literal at a side of a text is compared with a pattern, which lets through just the texts with
the literal at that side exactly if the literal has no backslash. -/
theorem invoke_admits_iff {e : Expr} (he : e.category = .string) (ctx : Context) (side : Affix)
    (t : String) :
    ∃ pattern, e.invoke ctx side.methodName [.literal (.text t)] =
        .ok (e.like (.literal (.text pattern))) ∧
      ((∀ s, admits pattern s ↔ side.Holds t s) ↔ '\\' ∉ t.toList) :=
  ⟨side.patternText t, invoke_literal he ctx side t, not_mem_of_admits_iff, fun h => admits_iff h side⟩

theorem invoke_admits_iff_percent :
    let name := Expr.column ⟨"PERSON", "A0"⟩ "NAME" "string"
    name.category = .string ∧ ∃ pattern,
      name.invoke ⟨.ofVendor .postgresql ⟨16, 0, 0⟩, .where⟩ "endsWith" [.literal (.text "50%")] =
        .ok (name.like (.literal (.text pattern))) ∧
      ((∀ s, admits pattern s ↔ finish.Holds "50%" s) ↔ '\\' ∉ "50%".toList) :=
  ⟨rfl, invoke_admits_iff rfl _ .finish "50%"⟩

/-- The backslash at the end of a text escapes the percent sign of the pattern, so a text is not found at
the start of itself. -/
theorem startsWith_backslash :
    let name := Expr.column ⟨"PERSON", "A0"⟩ "NAME" "string"
    name.invoke ⟨.ofVendor .postgresql ⟨16, 0, 0⟩, .where⟩ "startsWith" [.literal (.text "a\\")] =
        .ok (name.like (.literal (.text "a\\%"))) ∧
      ¬∀ s, admits "a\\%" s ↔ start.Holds "a\\" s := by
  refine ⟨invoke_literal rfl _ .start "a\\", fun h => ?_⟩
  exact absurd ((h "a\\").mpr (Holds.refl _ _)) (by decide)

end Affix

end ObjectSql
