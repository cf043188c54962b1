import ObjectSql.Proofs.Dialect.Pagination
import ObjectSql.Proofs.Statement.Scan
import ObjectSql.Proofs.Text.Digits

/-!
# Quoted names and literals under the scanner

Literals, row ranges and names in all quotes but brackets are scanned as whole stretches. A bracket
that is written twice inside brackets closes the stretch for the scanner, so a name between brackets
is a whole stretch only under a condition, `Profile.ScansName`.
-/
namespace ObjectSql

open Text SqlText IdentifierPolicy

/-! ## Neutral texts -/

/-- A class of characters is neutral if none of the five special characters is in it. -/
theorem isNeutral_of_class {p : Char → Bool}
    (hp : ['?', '\x27', '"', '\x60', '['].all fun c => !p c) {c : Char} (h : p c) :
    isNeutral c := by
  simp only [isNeutral, closingQuote?]
  split <;> simp_all
  rintro rfl
  simp_all

theorem isNeutral_of_isDigit {c : Char} (h : c.isDigit) : isNeutral c :=
  isNeutral_of_class (p := Char.isDigit) (by decide) h

theorem isNeutral_of_isLetterOrDigit {c : Char} (h : isLetterOrDigit c) : isNeutral c :=
  isNeutral_of_class (p := isLetterOrDigit) (by decide) h

@[simp] theorem Neutral.append {s t : String} : Neutral (s ++ t) ↔ Neutral s ∧ Neutral t := by
  simp [Neutral]

theorem Neutral.word {s : String} (h : s.toList.all fun c => isLetterOrDigit c || c == '_') :
    Neutral s := by
  simp only [Neutral, List.all_eq_true, Bool.or_eq_true, beq_iff_eq] at h ⊢
  rintro c hc
  rcases h c hc with h | rfl
  · exact isNeutral_of_isLetterOrDigit h
  · decide

theorem Neutral.nat (n : Nat) : Neutral (toString n) := by
  simp only [Neutral, Nat.toString_eq_repr, Nat.toList_repr, List.all_eq_true]
  intro c hc
  exact isNeutral_of_isDigit (Nat.isDigit_of_mem_toDigits (by decide) (by decide) hc)

theorem Neutral.int (n : Int) : Neutral (toString n) := by
  cases n with
  | ofNat n => exact Neutral.nat n
  | negSucc n => exact Neutral.append.mpr ⟨by decide, Neutral.nat (n + 1)⟩

theorem Neutral.zeroPadded (width n : Nat) : Neutral (zeroPadded width n) := by
  have h := Neutral.nat n
  simp only [Neutral, List.all_eq_true] at h
  simp only [Neutral, Text.zeroPadded, String.toList_ofList, List.all_append, Bool.and_eq_true,
    List.all_eq_true]
  exact ⟨fun c hc => by rw [List.eq_of_mem_replicate hc]; decide, h⟩

theorem Neutral.dateText (d : Date) : Neutral d.toText := by
  have hyear : Neutral (Date.yearText d.year) := by
    unfold Date.yearText
    split
    · exact Neutral.zeroPadded 4 _
    · split <;> exact Neutral.append.mpr ⟨by decide, Neutral.zeroPadded 4 _⟩
  simp [Date.toText, hyear, Neutral.zeroPadded, show Neutral "-" by decide]

theorem Neutral.fractionText (nanos : Nat) : Neutral (Timestamp.fractionText nanos) := by
  unfold Timestamp.fractionText
  split_ifs
  · decide
  all_goals exact Neutral.append.mpr ⟨by decide, Neutral.zeroPadded _ _⟩

theorem Neutral.timestampText (t : Timestamp) : Neutral t.toText := by
  simp [Timestamp.toText, Neutral.dateText, Neutral.zeroPadded, Neutral.fractionText,
    show Neutral " " by decide, show Neutral ":" by decide]

theorem Neutral.positional (digits : Nat × Int) : Neutral (Binary64.positional digits) := by
  obtain ⟨n, scale⟩ := digits
  have h := Neutral.nat n
  cases scale with
  | ofNat k =>
    simp only [Binary64.positional, Neutral.append, h, true_and]
    simp only [Neutral, String.toList_ofList, List.all_eq_true]
    intro c hc
    rw [List.eq_of_mem_replicate hc]
    decide
  | negSucc k =>
    simp only [Neutral, List.all_eq_true] at h
    simp only [Neutral, Binary64.positional, String.toList_ofList, List.all_eq_true]
    have hpadded : ∀ m, ∀ c ∈ List.replicate m '0' ++ (toString n).toList, isNeutral c := by
      intro m c hc
      rcases List.mem_append.mp hc with hc | hc
      · rw [List.eq_of_mem_replicate hc]
        decide
      · exact h c hc
    intro c hc
    rcases List.mem_append.mp hc with hc | hc
    · exact hpadded _ c (List.mem_of_mem_take hc)
    · rcases List.mem_cons.mp hc with rfl | hc
      · decide
      · exact hpadded _ c (List.mem_of_mem_drop hc)

theorem Neutral.signed {text : String} (h : Neutral text) (negative : Bool) :
    Neutral (Binary64.signed negative text) := by
  unfold Binary64.signed
  split
  · exact Neutral.append.mpr ⟨by decide, h⟩
  · exact h

theorem Neutral.floatText (x : Binary64) : Neutral x.toText := by
  cases x with
  | nan => decide
  | infinite negative => exact Neutral.signed (by decide) negative
  | finite negative m e =>
    apply Neutral.signed
    split
    · decide
    · exact Neutral.positional _

theorem Neutral.hexDigits {digit : Nat → Char} (h : ∀ k < 16, isNeutral (digit k)) (width n : Nat) :
    (Text.hexDigits digit width n).all isNeutral := by
  rw [List.all_eq_true]
  intro c hc
  obtain ⟨d, hd, rfl⟩ := mem_hexDigits hc
  exact h d hd

theorem Neutral.blobDigits (bytes : List UInt8) : Neutral (Value.blobDigits bytes) := by
  simp only [Neutral, Value.blobDigits, String.toList_ofList, List.all_flatMap, List.all_eq_true]
  intro b _
  exact List.all_eq_true.mp (Neutral.hexDigits (by decide) 2 b.toNat)

theorem Neutral.hyphenated (u : Uuid) : Neutral u.hyphenated := by
  have h := List.all_eq_true.mp (@Neutral.hexDigits lowerHexDigit (by decide) 32 u.bits.toNat)
  have hdash : isNeutral '-' := by decide
  simp only [Neutral, Uuid.hyphenated, String.toList_ofList, List.all_eq_true]
  intro c hc
  simp only [List.mem_append, List.mem_cons] at hc
  grind [List.mem_of_mem_take, List.mem_of_mem_drop]

theorem Neutral.rangeClause (p : Profile) (offset count : Int) (ordered : Bool) :
    Neutral (p.rangeClause offset count ordered) :=
  p.rangeClause_holds Neutral.append Neutral.int (by decide) fun _ => by decide

/-! ## Literals -/

theorem not_mem_of_neutral {q : Char} (hq : isNeutral q = false) {s : String} (h : Neutral s) :
    q ∉ s.toList := by
  intro hmem
  rw [List.all_eq_true.mp h q hmem] at hq
  cases hq

/-- A neutral text between quotes of one character. -/
theorem Scans.enclosed {q : Char} (hq : closingQuote? q = some q) {s : String} (h : Neutral s) :
    Scans (q :: s.toList ++ [q]) 0 := by
  have hnot : q ∉ s.toList := not_mem_of_neutral (by simp [isNeutral, hq]) h
  have hself : s.toList.flatMap (fun c => if c = q then [q, q] else [c]) = s.toList := by
    rw [List.flatMap_congr (g := fun c => [c])]
    · simp
    · intro c hc
      exact if_neg fun hcq : c = q => hnot (hcq ▸ hc)
  have hscan := Scans.quoted hq s
  rwa [doubled, String.toList_ofList, hself] at hscan

theorem Scans.literal (booleanLiterals : Bool) (v : Value) :
    Scans (v.literal booleanLiterals).toList 0 := by
  have hquote : closingQuote? '\x27' = some '\x27' := by decide
  cases v with
  | null => exact Scans.neutral (by decide : "NULL".toList.all isNeutral)
  | bool b => exact Scans.neutral (by cases booleanLiterals <;> cases b <;> decide)
  | int n => exact Scans.neutral (Neutral.int n)
  | float x => exact Scans.neutral (Neutral.floatText x)
  | text s => simpa [Value.literal, Value.quotedText] using Scans.quoted hquote s
  | blob bytes =>
    have hdigits := Scans.enclosed hquote (Neutral.blobDigits bytes)
    simpa [Value.literal] using (Scans.neutral (by decide : ['X'].all isNeutral)).append hdigits
  | date d =>
    have hdate := Scans.enclosed hquote (Neutral.dateText d)
    simpa [Value.literal] using (Scans.neutral (by decide : "DATE ".toList.all isNeutral)).append hdate
  | timestamp t =>
    have htime := Scans.enclosed hquote (Neutral.timestampText t)
    simpa [Value.literal] using (Scans.neutral (by decide : "TIMESTAMP ".toList.all isNeutral)).append htime
  | uuid u => simpa [Value.literal] using Scans.enclosed hquote (Neutral.hyphenated u)

/-! ## Names -/

/-- The characters of names without quotes. -/
def isNameChar (c : Char) : Bool := isLetterOrDigit c || ['_', '$', '@', '#'].contains c

theorem headTail_all {head tail : Char → Bool} (hhead : ∀ c, head c → isNameChar c)
    (htail : ∀ c, tail c → isNameChar c) {cs : List Char} (h : headTail head tail cs) :
    cs.all isNameChar := by
  cases cs with
  | nil => rfl
  | cons c cs =>
    obtain ⟨hc, hcs⟩ : head c ∧ cs.all tail := by simpa [headTail] using h
    simp only [List.all_cons, hhead c hc, Bool.true_and]
    exact List.all_eq_true.mpr fun d hd => htail d (List.all_eq_true.mp hcs d hd)

theorem isPlainFor_all {v : Vendor} {cs : List Char} (h : isPlainFor v cs) :
    cs.all isNameChar := by
  cases v with
  | mysql =>
    have hcs := List.all_eq_true.mp (Bool.and_eq_true_iff.mp h).1
    exact List.all_eq_true.mpr fun c hc => by have := hcs c hc; grind [isNameChar]
  | _ =>
    refine headTail_all ?_ ?_ h <;>
      · intro c hc
        grind [isNameChar, isLetterOrDigit]

def Profile.writtenName (p : Profile) (name : String) : String :=
  p.identifiers.fold (p.identifiers.truncate name .column)

/-- Whether a name is scanned as a whole stretch. Between brackets the scanner goes on behind the
first closing bracket of the name as if the name had ended there. -/
def Profile.ScansName (p : Profile) (name : String) : Prop :=
  p.vendor = .sqlserver →
    countPlaceholders (some ']') (p.writtenName name).toList = 0 ∧
      (quoteAfter (some ']') (p.writtenName name).toList = some ']' ∨
        quoteAfter (some ']') (p.writtenName name).toList = none)

theorem Profile.identifier_eq (p : Profile) (kind : IdentifierKind) (name : String) :
    p.identifier kind name =
      if p.isReserved (p.writtenName name) || !isPlainFor p.vendor (p.writtenName name).toList then
        p.identifiers.quote (p.writtenName name)
      else p.writtenName name := rfl

/-- Writing a closing bracket twice makes no difference to the scanner. -/
theorem scan_doubled_bracket (q : Option Char) (cs : List Char) :
    quoteAfter q (cs.flatMap fun c => if c = ']' then [']', ']'] else [c]) = quoteAfter q cs ∧
      countPlaceholders q (cs.flatMap fun c => if c = ']' then [']', ']'] else [c]) =
        countPlaceholders q cs := by
  induction cs generalizing q with
  | nil => simp
  | cons c cs ih =>
    by_cases hc : c = ']'
    · subst hc
      cases q with
      | none => simp [quoteAfter, countPlaceholders, closingQuote?, ih]
      | some q =>
        by_cases hq : ']' = q
        · subst hq
          simp [quoteAfter, countPlaceholders, closingQuote?, ih]
        · simp [hq, quoteAfter, countPlaceholders, ih]
    · cases q <;> simp [hc, quoteAfter, countPlaceholders, ih]

/-- A text without the closing quote stays inside it. -/
theorem scan_inside {q : Char} {cs : List Char} (h : q ∉ cs) :
    quoteAfter (some q) cs = some q ∧ countPlaceholders (some q) cs = 0 := by
  induction cs with
  | nil => simp
  | cons c cs ih =>
    obtain ⟨hc, hcs⟩ : ¬q = c ∧ q ∉ cs := by simpa using h
    simpa [quoteAfter, countPlaceholders, Ne.symm hc] using ih hcs

/-- Scanning a name between brackets. -/
theorem scans_bracketed_iff (name : String) :
    Scans ('[' :: (doubled ']' name).toList ++ [']']) 0 ↔
      countPlaceholders (some ']') name.toList = 0 ∧
        (quoteAfter (some ']') name.toList = some ']' ∨
          quoteAfter (some ']') name.toList = none) := by
  obtain ⟨hafter, hcount⟩ := scan_doubled_bracket (some ']') name.toList
  have hlast (q : Option Char) : countPlaceholders q [']'] = 0 := by
    cases q <;> simp [countPlaceholders]
  have hend (q : Option Char) : quoteAfter q [']'] = none ↔ q = some ']' ∨ q = none := by
    cases q with
    | none => simp [quoteAfter, closingQuote?]
    | some q => by_cases hq : q = ']' <;> simp [quoteAfter, hq, Ne.symm]
  have hclosed : quoteAfter none ('[' :: (doubled ']' name).toList ++ [']']) =
      quoteAfter (quoteAfter (some ']') name.toList) [']'] := by
    simp [doubled, quoteAfter, closingQuote?, quoteAfter_append, hafter]
  have hplaceholders : countPlaceholders none ('[' :: (doubled ']' name).toList ++ [']']) =
      countPlaceholders (some ']') name.toList := by
    simp [doubled, countPlaceholders, closingQuote?, countPlaceholders_append, hafter, hcount, hlast]
  constructor
  · intro h
    exact ⟨hplaceholders ▸ h.count, (hend _).mp (hclosed ▸ h.closed)⟩
  · rintro ⟨hc, ha⟩
    exact ⟨hclosed ▸ (hend _).mpr ha, hplaceholders ▸ hc⟩

/-- A name is scanned as a whole stretch exactly under the condition. -/
theorem scans_identifier_iff (p : Profile) (kind : IdentifierKind) (name : String) :
    Scans (p.identifier kind name).toList 0 ↔ p.ScansName name := by
  rw [p.identifier_eq]
  unfold Profile.ScansName
  generalize p.writtenName name = written
  split
  · by_cases hv : p.vendor = .sqlserver
    · simpa [IdentifierPolicy.quote, Profile.identifiers, ofVendor, hv, quotesOf]
        using scans_bracketed_iff written
    · have hquote : ∃ q, quotesOf p.vendor = (q, q) ∧ closingQuote? q = some q := by
        cases hvendor : p.vendor <;> simp_all [quotesOf, closingQuote?]
      obtain ⟨q, hquotes, hq⟩ := hquote
      simpa [IdentifierPolicy.quote, Profile.identifiers, ofVendor, hv, hquotes]
        using Scans.quoted hq written
  · next hplain =>
    have hall : written.toList.all isNameChar := isPlainFor_all (v := p.vendor) (by simp_all)
    have hneutral : Neutral written := List.all_eq_true.mpr fun c hc =>
      isNeutral_of_class (p := isNameChar) (by decide) (List.all_eq_true.mp hall c hc)
    have hbracket : ']' ∉ written.toList := fun hmem =>
      absurd (List.all_eq_true.mp hall _ hmem) (by decide)
    obtain ⟨hafter, hcount⟩ := scan_inside hbracket
    exact ⟨fun _ _ => ⟨hcount, .inl hafter⟩, fun _ => Scans.neutral hneutral⟩

end ObjectSql
