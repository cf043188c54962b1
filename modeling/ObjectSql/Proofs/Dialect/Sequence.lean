import Mathlib.Data.List.Nodup
import ObjectSql.Proofs.Dialect.Pagination

/-!
# Reading sequence definitions

A sequence is created exactly if it has a name that is not blank, the product has sequences, and no cache
size is given that the product rejects. What stands behind the name is read back as the data type of the
product and one clause for each option: its number if one is given, and otherwise the product's words for a
missing one, if it has any. So the text tells the options.
-/
namespace ObjectSql

open Text

namespace Text

/-- The number that a word of decimal digits denotes, which may have a minus sign in front. -/
def int? (word : String) : Option Int :=
  match word.toList with
  | '-' :: digits => (number? (String.ofList digits)).map fun n => -(n : Int)
  | _ => (number? word).map Int.ofNat

theorem int?_toString (n : Int) : int? (toString n) = some n := by
  cases n with
  | ofNat n =>
    have htext : toString (Int.ofNat n) = toString n := rfl
    have hsign (digits : List Char) : (toString n).toList ≠ '-' :: digits := fun hdigits => by
      have hmem : '-' ∈ (toString n).toList := hdigits ▸ List.mem_cons_self
      have hnot : '-' ∉ Nat.toDigits 10 n := not_mem_toDigits (by decide)
      exact hnot (by simpa using hmem)
    unfold int?
    rw [htext]
    split
    · next digits hdigits => exact absurd hdigits (hsign digits)
    · rw [number?_toString]
      rfl
  | negSucc n =>
    have htext : (toString (Int.negSucc n)).toList = '-' :: (toString (n + 1)).toList := by
      simp [Int.toString_eq_repr, Int.repr]
    simp only [int?, htext, String.ofList_toList, number?_toString]
    rfl

theorem not_mem_toString {c : Char} (hdigit : isDigit c = false) (hsign : c ≠ '-') (n : Int) :
    c ∉ (toString n).toList := by
  cases n with
  | ofNat n =>
    have htext : (toString (Int.ofNat n)).toList = Nat.toDigits 10 n := Nat.toList_repr
    rw [htext]
    exact not_mem_toDigits hdigit
  | negSucc n =>
    have htext : (toString (Int.negSucc n)).toList = '-' :: Nat.toDigits 10 (n + 1) := by
      simp [Int.toString_eq_repr, Int.repr]
    rw [htext, List.mem_cons, not_or]
    exact ⟨hsign, not_mem_toDigits hdigit⟩

end Text

/-! ## Clauses and their grammar -/

def SequenceClause.keyword : SequenceClause → String
  | min => "MINVALUE"
  | max => "MAXVALUE"
  | start => "START WITH"
  | increment => "INCREMENT BY"
  | cache => "CACHE"

def SequenceClause.keywordWords : SequenceClause → List String
  | min => ["MINVALUE"]
  | max => ["MAXVALUE"]
  | start => ["START", "WITH"]
  | increment => ["INCREMENT", "BY"]
  | cache => ["CACHE"]

def SequenceOptions.value (o : SequenceOptions) : SequenceClause → Option Int
  | .min => o.min
  | .max => o.max
  | .start => o.start
  | .increment => o.increment
  | .cache => o.cache

/-- The words of a product for a bound or cache size that is not given. -/
def SequenceSyntax.absence (s : SequenceSyntax) : SequenceClause → Option String
  | .min => s.noMin
  | .max => s.noMax
  | .cache => s.noCache
  | .start | .increment => none

inductive WrittenClause where
  | given (c : SequenceClause) (n : Int)
  | omitted (c : SequenceClause) (words : String)
deriving DecidableEq

namespace WrittenClause

def clause : WrittenClause → SequenceClause
  | given c _ | omitted c _ => c

def text : WrittenClause → String
  | given c n => c.keyword ++ " " ++ toString n
  | omitted _ words => words

/-- Reads clauses word by word, in any order and with the words of any product. -/
def readWords : List String → Option (List WrittenClause)
  | [] => some []
  | "START" :: "WITH" :: n :: ws => (int? n).bind fun n => (readWords ws).map (given .start n :: ·)
  | "INCREMENT" :: "BY" :: n :: ws => (int? n).bind fun n => (readWords ws).map (given .increment n :: ·)
  | "MINVALUE" :: n :: ws => (int? n).bind fun n => (readWords ws).map (given .min n :: ·)
  | "MAXVALUE" :: n :: ws => (int? n).bind fun n => (readWords ws).map (given .max n :: ·)
  | "CACHE" :: n :: ws => (int? n).bind fun n => (readWords ws).map (given .cache n :: ·)
  | "NOMINVALUE" :: ws => (readWords ws).map (omitted .min "NOMINVALUE" :: ·)
  | "NOMAXVALUE" :: ws => (readWords ws).map (omitted .max "NOMAXVALUE" :: ·)
  | "NOCACHE" :: ws => (readWords ws).map (omitted .cache "NOCACHE" :: ·)
  | "NO" :: "MINVALUE" :: ws => (readWords ws).map (omitted .min "NO MINVALUE" :: ·)
  | "NO" :: "MAXVALUE" :: ws => (readWords ws).map (omitted .max "NO MAXVALUE" :: ·)
  | "NO" :: "CACHE" :: ws => (readWords ws).map (omitted .cache "NO CACHE" :: ·)
  | _ => none

end WrittenClause

/-- Reads the text behind the name of a created sequence: a data type, if there is one, then clauses. -/
def readDefinition (rest : String) : Option (Option String × List WrittenClause) :=
  match pieces ' ' rest with
  | "" :: "AS" :: type :: ws => (WrittenClause.readWords ws).map (some ("AS " ++ type), ·)
  | "" :: ws => (WrittenClause.readWords ws).map (none, ·)
  | _ => none

namespace Text

def spaced : List String → String
  | [] => ""
  | t :: ts => " " ++ t ++ spaced ts

theorem spaced_append (ts us : List String) : spaced (ts ++ us) = spaced ts ++ spaced us := by
  induction ts with
  | nil => simp [spaced]
  | cons t ts ih => simp [spaced, ih, String.append_assoc]

theorem joined_eq_spaced (t : String) (ts : List String) : joined " " (t :: ts) = t ++ spaced ts := by
  induction ts generalizing t with
  | nil => simp [joined, spaced]
  | cons u ts ih =>
    have ih := ih u
    rw [joined, String.intercalate_cons_cons, ← joined, ih, spaced]
    simp [String.append_assoc]

theorem spaced_joined {ws : List String} (h : ws ≠ []) : spaced [joined " " ws] = spaced ws := by
  obtain ⟨w, ws, rfl⟩ := List.exists_cons_of_ne_nil h
  simp [joined_eq_spaced, spaced, String.append_assoc]

/-- Words behind blanks are cut at the blanks. -/
theorem pieces_spaced {ws : List String} (h : ∀ w ∈ ws, ' ' ∉ w.toList) :
    pieces ' ' (spaced ws) = "" :: ws := by
  have hpieces : pieces ' ' (joined " " ("" :: ws)) = "" :: ws :=
    pieces_joined (by simpa using h) (List.cons_ne_nil _ _)
  rwa [joined_eq_spaced, String.empty_append] at hpieces

end Text

/-! ## Reading clauses back -/

namespace WrittenClause

def Readable (w : WrittenClause) : Prop :=
  ∃ ws, ws ≠ [] ∧ w.text = joined " " ws ∧ (∀ t ∈ ws, ' ' ∉ t.toList) ∧
    ∀ rest, readWords (ws ++ rest) = (readWords rest).map (w :: ·)

theorem readable_given (c : SequenceClause) (n : Int) : (given c n).Readable := by
  have hread := int?_toString n
  have hblank := not_mem_toString (c := ' ') (by decide) (by decide) n
  generalize hword : toString n = word at hread hblank
  have htext : (given c n).text = c.keyword ++ " " ++ word := by rw [text, hword]
  refine ⟨c.keywordWords ++ [word], by simp, ?_, ?_, fun rest => ?_⟩
  · cases c <;> exact htext.trans rfl
  · cases c <;> simp [SequenceClause.keywordWords, hblank]
  · cases c <;> simp [SequenceClause.keywordWords, readWords, hread]

def absenceWords : List WrittenClause :=
  [.omitted .min "NOMINVALUE", .omitted .max "NOMAXVALUE", .omitted .cache "NOCACHE",
    .omitted .min "NO MINVALUE", .omitted .max "NO MAXVALUE", .omitted .cache "NO CACHE"]

theorem readable_absence {w : WrittenClause} (h : w ∈ absenceWords) : w.Readable := by
  simp only [absenceWords, List.mem_cons, List.not_mem_nil, or_false] at h
  rcases h with rfl | rfl | rfl | rfl | rfl | rfl
  · exact ⟨["NOMINVALUE"], by simp, rfl, by decide, fun rest => rfl⟩
  · exact ⟨["NOMAXVALUE"], by simp, rfl, by decide, fun rest => rfl⟩
  · exact ⟨["NOCACHE"], by simp, rfl, by decide, fun rest => rfl⟩
  · exact ⟨["NO", "MINVALUE"], by simp, rfl, by decide, fun rest => rfl⟩
  · exact ⟨["NO", "MAXVALUE"], by simp, rfl, by decide, fun rest => rfl⟩
  · exact ⟨["NO", "CACHE"], by simp, rfl, by decide, fun rest => rfl⟩

/-- Clauses one behind the other are read as they were written. -/
theorem exists_words {ws : List WrittenClause} (h : ∀ w ∈ ws, w.Readable) :
    ∃ words, spaced (ws.map text) = spaced words ∧ (∀ t ∈ words, ' ' ∉ t.toList) ∧
      readWords words = some ws := by
  induction ws with
  | nil => exact ⟨[], rfl, by simp, rfl⟩
  | cons w ws ih =>
    obtain ⟨⟨front, hne, htext, hfront, hread⟩, hws⟩ := List.forall_mem_cons.mp h
    obtain ⟨words, hspaced, hblank, hwords⟩ := ih hws
    refine ⟨front ++ words, ?_, List.forall_mem_append.mpr ⟨hfront, hblank⟩, ?_⟩
    · rw [spaced_append, ← spaced_joined hne, ← htext, List.map_cons, spaced, hspaced]
      simp [spaced]
    · rw [hread, hwords]
      rfl

end WrittenClause

/-- A data type and clauses are read back. -/
theorem readDefinition_spaced {dataType : Option String} {ws : List WrittenClause}
    (htype : dataType = none ∨ dataType = some "AS BIGINT") (hws : ∀ w ∈ ws, w.Readable) :
    readDefinition (spaced (dataType.toList ++ ws.map WrittenClause.text)) = some (dataType, ws) := by
  obtain ⟨words, hspaced, hblank, hread⟩ := WrittenClause.exists_words hws
  rcases htype with rfl | rfl
  · rw [Option.toList_none, List.nil_append, hspaced, readDefinition, pieces_spaced hblank]
    split
    · next type rest heq =>
      -- no clause begins like a data type
      cases heq
      cases hread
    · next words' _ heq =>
      cases heq
      rw [hread]
      rfl
    · next hnot => exact absurd rfl (hnot words)
  · have htext : spaced ((some "AS BIGINT").toList ++ ws.map WrittenClause.text) =
        spaced ("AS" :: "BIGINT" :: words) := by
      have htype : spaced (some "AS BIGINT").toList = spaced ["AS", "BIGINT"] := rfl
      rw [spaced_append, hspaced, htype, ← spaced_append]
      rfl
    rw [htext, readDefinition, pieces_spaced (by simpa using hblank)]
    simp [hread]

/-! ## The clauses of a product -/

namespace SequenceSyntax

variable {s : SequenceSyntax} {o : SequenceOptions} {v : Vendor} {name text : String}
  {c : SequenceClause} {n : Int} {words : String}

def written (s : SequenceSyntax) (o : SequenceOptions) (c : SequenceClause) : Option WrittenClause :=
  match o.value c with
  | some n => some (.given c n)
  | none => (s.absence c).map (.omitted c)

def writtenClauses (s : SequenceSyntax) (o : SequenceOptions) : List WrittenClause :=
  s.order.filterMap (s.written o)

theorem clause_eq (s : SequenceSyntax) (o : SequenceOptions) (c : SequenceClause) :
    s.clause o c = (s.written o c).map WrittenClause.text := by
  have hclause : s.clause o c = clauseText c.keyword (o.value c) (s.absence c) := by cases c <;> rfl
  rw [hclause, written]
  cases o.value c with
  | some n => rfl
  | none =>
    have htext : WrittenClause.text ∘ WrittenClause.omitted c = id := rfl
    rw [Option.map_map, htext, Option.map_id]
    rfl

theorem definition_eq (s : SequenceSyntax) (o : SequenceOptions) :
    s.definition o = s.dataType.toList ++ (s.writtenClauses o).map WrittenClause.text := by
  have hclause : s.clause o = fun c => (s.written o c).map WrittenClause.text := funext (s.clause_eq o)
  rw [definition, writtenClauses, List.map_filterMap, hclause]

/-- The syntax of a product names each clause once, and it leaves out none but that of a cache size that the
product rejects. -/
structure Regular (s : SequenceSyntax) : Prop where
  nodup : s.order.Nodup
  mem_order : ∀ c, c ∈ s.order ∨ c = .cache ∧ s.cacheAllowed = false ∧ s.noCache = none
  takesCache : s.takesCache = s.cacheAllowed
  dataType : s.dataType = none ∨ s.dataType = some "AS BIGINT"
  absence : ∀ c words, s.absence c = some words → .omitted c words ∈ WrittenClause.absenceWords

theorem regular_ofVendor (h : ofVendor v = some s) : s.Regular := by
  have habsence (s : SequenceSyntax)
      (hwords : ∀ c, (s.absence c).all fun words => .omitted c words ∈ WrittenClause.absenceWords) (c words)
      (hc : s.absence c = some words) : .omitted c words ∈ WrittenClause.absenceWords := by
    simpa [hc] using hwords c
  unfold ofVendor at h
  split at h <;> cases h <;>
    exact ⟨by decide, by intro c; cases c <;> decide, by decide, by decide,
      habsence _ (by intro c; cases c <;> decide)⟩

/-- The clauses of a sequence with the given options, in the order of the product: every number that is given
stands once, and so do the words for each one that is missing, if the product has any. -/
structure States (s : SequenceSyntax) (o : SequenceOptions) (clauses : List WrittenClause) : Prop where
  inOrder : (clauses.map WrittenClause.clause).Sublist s.order
  given : ∀ c n, clauses.count (.given c n) = if o.value c = some n then 1 else 0
  omitted : ∀ c words, clauses.count (.omitted c words) =
    if o.value c = none ∧ s.absence c = some words then 1 else 0

theorem written_eq_some_iff {w : WrittenClause} :
    s.written o c = some w ↔ (∃ n, o.value c = some n ∧ w = .given c n) ∨
      o.value c = none ∧ ∃ words, s.absence c = some words ∧ w = .omitted c words := by
  unfold written
  cases o.value c with
  | some m => simp [eq_comm (b := w)]
  | none => simp [eq_comm (b := w)]

theorem clause_of_written {w : WrittenClause} (h : s.written o c = some w) : w.clause = c := by
  rcases written_eq_some_iff.mp h with ⟨n, -, rfl⟩ | ⟨-, words, -, rfl⟩ <;> rfl

/-- The clause of a cache size that is rejected is the only one that has no place in the order. -/
theorem Regular.mem_of_written (h : s.Regular) (hcache : o.cache.isSome → s.cacheAllowed)
    {w : WrittenClause} (hw : s.written o c = some w) : c ∈ s.order := by
  refine (h.mem_order c).resolve_right ?_
  rintro ⟨rfl, hrejected, hsilent⟩
  rcases written_eq_some_iff.mp hw with ⟨n, hn, -⟩ | ⟨-, words, hwords, -⟩
  · have hallowed := hcache (Option.isSome_iff_exists.mpr ⟨n, hn⟩)
    rw [hrejected] at hallowed
    cases hallowed
  · rw [SequenceSyntax.absence, hsilent] at hwords
    cases hwords

theorem Regular.states (h : s.Regular) (hcache : o.cache.isSome → s.cacheAllowed) :
    s.States o (s.writtenClauses o) := by
  have hmem (w : WrittenClause) : w ∈ s.writtenClauses o ↔ s.written o w.clause = some w := by
    rw [writtenClauses, List.mem_filterMap]
    constructor
    · rintro ⟨c, -, hc⟩
      rwa [clause_of_written hc]
    · exact fun hw => ⟨w.clause, h.mem_of_written hcache hw, hw⟩
  have hnodup : (s.writtenClauses o).Nodup :=
    h.nodup.filterMap fun c c' w hc hc' => by rw [← clause_of_written hc, clause_of_written hc']
  refine ⟨?_, fun c n => ?_, fun c words => ?_⟩
  · have hclause : (fun c => (s.written o c).map WrittenClause.clause) =
        Option.guard fun c => (s.written o c).isSome := by
      funext c
      cases hc : s.written o c with
      | none => simp [Option.guard, hc]
      | some w => simp [Option.guard, hc, clause_of_written hc]
    rw [writtenClauses, List.map_filterMap, hclause, List.filterMap_eq_filter]
    exact List.filter_sublist
  · rw [hnodup.count]
    simp only [hmem, WrittenClause.clause, written_eq_some_iff]
    simp
  · rw [hnodup.count]
    simp only [hmem, WrittenClause.clause, written_eq_some_iff]
    simp

/-- The clauses tell the options. -/
theorem States.value_eq_some_iff {clauses : List WrittenClause} (h : s.States o clauses) :
    o.value c = some n ↔ .given c n ∈ clauses := by
  rw [← List.count_pos_iff, h.given]
  split <;> simp_all

theorem Regular.create_eq (h : s.Regular) (v : Vendor) (name : String) (o : SequenceOptions) :
    s.create v name o =
      if o.cache.isSome ∧ s.cacheAllowed = false then .error (.unsupported v .sequenceCache)
      else .ok ("CREATE SEQUENCE " ++ name ++
        spaced (s.dataType.toList ++ (s.writtenClauses o).map WrittenClause.text)) := by
  rw [create, h.takesCache, definition_eq, joined_eq_spaced]
  simp

theorem Regular.readable (h : s.Regular) (o : SequenceOptions) :
    ∀ w ∈ s.writtenClauses o, w.Readable := by
  intro w hw
  obtain ⟨c, -, hc⟩ := List.mem_filterMap.mp hw
  rcases written_eq_some_iff.mp hc with ⟨n, -, rfl⟩ | ⟨-, words, hwords, rfl⟩
  · exact WrittenClause.readable_given c n
  · exact WrittenClause.readable_absence (h.absence c words hwords)

end SequenceSyntax

theorem SequenceOptions.eq_of_value {o o' : SequenceOptions} (hname : o.name = o'.name)
    (h : ∀ c, o.value c = o'.value c) : o = o' := by
  obtain ⟨name, min, max, start, increment, cache⟩ := o
  rw [SequenceOptions.mk.injEq]
  exact ⟨hname, h .min, h .max, h .start, h .increment, h .cache⟩

namespace Profile

variable {p : Profile} {o o' : SequenceOptions} {text : String}

theorem regular_of_sequences? {s : SequenceSyntax} (h : p.sequences? = some s) : s.Regular := by
  unfold sequences? at h
  split_ifs at h
  exact SequenceSyntax.regular_ofVendor h

/-- How creating a sequence ends, by its name, the syntax of the profile and the cache size. -/
inductive Creation (p : Profile) (o : SequenceOptions) : Except SqlError String → Prop
  | unnamed (h : ∀ name ∈ o.name, isBlankText name) : Creation p o (.error .missingSequenceName)
  | noSyntax {name : String} (hname : o.name = some name) (hblank : ¬isBlankText name)
    (h : p.sequences? = none) : Creation p o (.error (.unsupported p.vendor .sequences))
  | rejected {name : String} {s : SequenceSyntax} (hname : o.name = some name)
    (hblank : ¬isBlankText name) (hs : p.sequences? = some s) (hcache : o.cache.isSome)
    (h : s.cacheAllowed = false) : Creation p o (.error (.unsupported p.vendor .sequenceCache))
  | created {name : String} {s : SequenceSyntax} (hname : o.name = some name)
    (hblank : ¬isBlankText name) (hs : p.sequences? = some s)
    (hcache : o.cache.isSome → s.cacheAllowed) :
    Creation p o (.ok ("CREATE SEQUENCE " ++ p.identifier .sequence name ++
      spaced (s.dataType.toList ++ (s.writtenClauses o).map WrittenClause.text)))

theorem creation (p : Profile) (o : SequenceOptions) : p.Creation o (p.createSequence o) := by
  unfold createSequence namedSequence
  cases hname : o.name with
  | none => exact .unnamed (by simp [hname])
  | some name =>
    dsimp only
    by_cases hblank : isBlankText name
    · rw [if_pos hblank]
      exact .unnamed (by simpa [hname] using hblank)
    · rw [if_neg hblank]
      cases hs : p.sequences? with
      | none => exact .noSyntax hname hblank hs
      | some s =>
        have hcreate := (regular_of_sequences? hs).create_eq p.vendor (p.identifier .sequence name) o
        change p.Creation o (s.create p.vendor (p.identifier .sequence name) o)
        rw [hcreate]
        split_ifs with hcache
        · exact .rejected hname hblank hs hcache.1 hcache.2
        · exact .created hname hblank hs (by simpa using hcache)

theorem createSequence_eq_missing_iff :
    p.createSequence o = .error .missingSequenceName ↔ ∀ name ∈ o.name, isBlankText name := by
  have h := p.creation o
  generalize p.createSequence o = result at h
  cases h with
  | unnamed h => exact iff_of_true rfl h
  | _ => simp_all

theorem createSequence_eq_unsupported_iff {f : Feature} :
    p.createSequence o = .error (.unsupported p.vendor f) ↔
      (∃ name ∈ o.name, ¬isBlankText name) ∧ (f = .sequences ∧ p.sequences? = none ∨
        f = .sequenceCache ∧ o.cache.isSome ∧ ∃ s ∈ p.sequences?, s.cacheAllowed = false) := by
  have h := p.creation o
  generalize p.createSequence o = result at h
  cases h with
  | unnamed h => simp_all
  | noSyntax hname hblank h => simp_all [eq_comm (a := f)]
  | rejected hname hblank hs hcache h => simp_all [eq_comm (a := f)]
  | created hname hblank hs hcache => simp_all

/-- A created sequence is told by its text. -/
theorem createSequence_eq_ok (h : p.createSequence o = .ok text) :
    ∃ name ∈ o.name, ∃ s ∈ p.sequences?, ∃ rest clauses,
      text = "CREATE SEQUENCE " ++ p.identifier .sequence name ++ rest ∧
      rest = spaced (s.dataType.toList ++ clauses.map WrittenClause.text) ∧
      readDefinition rest = some (s.dataType, clauses) ∧ s.States o clauses := by
  have hcreation := p.creation o
  rw [h] at hcreation
  cases hcreation with
  | @created name s hname hblank hs hcache =>
    have hregular := regular_of_sequences? hs
    exact ⟨name, hname, s, hs, _, s.writtenClauses o, rfl, rfl,
      readDefinition_spaced hregular.dataType (hregular.readable o), hregular.states hcache⟩

theorem createSequence_injective (hname : o'.name = o.name) (h : p.createSequence o = .ok text)
    (h' : p.createSequence o' = .ok text) : o' = o := by
  obtain ⟨name, hn, s, hs, rest, clauses, htext, -, hread, hstates⟩ := createSequence_eq_ok h
  obtain ⟨name', hn', s', hs', rest', clauses', htext', -, hread', hstates'⟩ := createSequence_eq_ok h'
  cases (hname ▸ hn').symm.trans hn
  cases hs'.symm.trans hs
  have hrest : rest' = rest := by
    rw [htext', ← String.toList_inj] at htext
    rw [← String.toList_inj]
    simpa using htext
  rw [hrest, hread] at hread'
  cases hread'
  refine SequenceOptions.eq_of_value hname fun c => Option.ext fun n => ?_
  rw [hstates'.value_eq_some_iff, hstates.value_eq_some_iff]

/-- Creating a sequence fails for want of a name, of a syntax or of a place for the cache size. Otherwise
the text behind the name is the data type of the product with one clause for each option that is given, or
that the product has words for if it is missing, so that it tells the options. -/
theorem createSequence_tells_options (p : Profile) (o : SequenceOptions) :
    (p.createSequence o = .error .missingSequenceName ↔ ∀ name ∈ o.name, isBlankText name) ∧
    (∀ f, p.createSequence o = .error (.unsupported p.vendor f) ↔
      (∃ name ∈ o.name, ¬isBlankText name) ∧ (f = .sequences ∧ p.sequences? = none ∨
        f = .sequenceCache ∧ o.cache.isSome ∧ ∃ s ∈ p.sequences?, s.cacheAllowed = false)) ∧
    (∀ e, p.createSequence o = .error e →
      e = .missingSequenceName ∨ ∃ f, e = .unsupported p.vendor f) ∧
    (∀ text, p.createSequence o = .ok text → ∃ name ∈ o.name, ∃ s ∈ p.sequences?, ∃ rest clauses,
      text = "CREATE SEQUENCE " ++ p.identifier .sequence name ++ rest ∧
      rest = spaced (s.dataType.toList ++ clauses.map WrittenClause.text) ∧
      readDefinition rest = some (s.dataType, clauses) ∧ s.States o clauses) ∧
    ∀ (o' : SequenceOptions) (text : String), o'.name = o.name → p.createSequence o = .ok text →
      p.createSequence o' = .ok text → o' = o := by
  refine ⟨createSequence_eq_missing_iff, fun f => createSequence_eq_unsupported_iff, fun e he => ?_,
    fun text => createSequence_eq_ok, fun o' text => createSequence_injective⟩
  have h := p.creation o
  rw [he] at h
  cases h with
  | unnamed => exact .inl rfl
  | _ => exact .inr ⟨_, rfl⟩

/-- A sequence that counts from a negative number on, with a bound that is not given. -/
theorem createSequence_tells_options_tickets :
    let p := ofVendor .oracle ⟨19, 0, 0⟩
    let o : SequenceOptions := ⟨some "tickets", none, some 1000, some (-5), none, some 20⟩
    let text := "CREATE SEQUENCE TICKETS START WITH -5 NOMINVALUE MAXVALUE 1000 CACHE 20"
    p.createSequence o = .ok text ∧ ∃ name ∈ o.name, ∃ s ∈ p.sequences?, ∃ rest clauses,
      text = "CREATE SEQUENCE " ++ p.identifier .sequence name ++ rest ∧
      rest = spaced (s.dataType.toList ++ clauses.map WrittenClause.text) ∧
      readDefinition rest = some (s.dataType, clauses) ∧ s.States o clauses := by
  intro p o text
  have hcreated : p.createSequence o = .ok text := by decide +kernel
  exact ⟨hcreated, (createSequence_tells_options p o).2.2.2.1 text hcreated⟩

end Profile

end ObjectSql
