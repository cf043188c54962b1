import ObjectSql.Proofs.Statement.Quoting
import ObjectSql.Proofs.Text.Casing
import ObjectSql.Proofs.Text.Quoted
import ObjectSql.Proofs.Value.Literal

/-!
# Reading names

A name stands in a statement as a bare word that is plain and no reserved word in any letter case, or in
quotes from which it is read back. Either way the written name tells which name it denotes, the shortened
and folded one, so two names are written alike exactly if these are the same.
-/
namespace ObjectSql

open Text IdentifierPolicy

/-- The name that a written name denotes: what stands in its quotes, or the bare word itself. -/
def IdentifierPolicy.denoted? (p : IdentifierPolicy) (written : String) : Option String :=
  match written.toList with
  | [] => some written
  | c :: cs =>
    if c = p.openQuote then
      match readQuoted p.closeQuote none cs with
      | some (name, []) => some (String.ofList name)
      | _ => none
    else some written

/-- How a name may stand in a statement. -/
inductive Profile.Writes (p : Profile) (name : String) : (written : String) → Prop
  /-- A bare word, which is no reserved word in any letter case. -/
  | bare (hplain : p.identifiers.isPlain name.toList)
      (hfree : ∀ word ∈ Keywords.sql92 ++ Keywords.additions p.vendor,
        sameIgnoringCase word name = false) : p.Writes name name
  /-- A text in quotes, which end with the text. -/
  | quoted {written : String} {inside : List Char}
      (hopen : written.toList = p.identifiers.openQuote :: inside)
      (hinside : readQuoted p.identifiers.closeQuote none inside = some (name.toList, [])) :
      p.Writes name written

/-! ## Reserved words -/

/-- The reserved words are written in upper case. -/
theorem Keywords.asciiUpper_word {v : Vendor} {word : String}
    (h : word ∈ Keywords.sql92 ++ Keywords.additions v) : asciiUpper word = word := by
  have hsql92 : Keywords.sql92.all fun word => word.toList.all fun c => asciiUpperChar c == c := by
    decide +kernel
  have hadditions : (Keywords.additions v).all fun word =>
      word.toList.all fun c => asciiUpperChar c == c := by
    cases v <;> decide +kernel
  rcases List.mem_append.mp h with h | h
  · exact asciiUpper_eq_self (List.all_eq_true.mp hsql92 word h)
  · exact asciiUpper_eq_self (List.all_eq_true.mp hadditions word h)

theorem isNameChar_ascii {c : Char} (h : isNameChar c) : c.toNat < 0x80 := by
  have hbelow {d : Char} (hle : c ≤ d) (hd : d.toNat < 0x80) : c.toNat < 0x80 :=
    Nat.lt_of_le_of_lt hle hd
  simp only [isNameChar, isLetterOrDigit, isLetter, isDigit, Bool.or_eq_true, Bool.and_eq_true,
    decide_eq_true_eq, List.contains_eq_mem] at h
  obtain ((⟨-, hle⟩ | ⟨-, hle⟩) | ⟨-, hle⟩) | hmem := h
  · exact hbelow hle (by decide)
  · exact hbelow hle (by decide)
  · exact hbelow hle (by decide)
  · have hsigns : ['_', '$', '@', '#'].all fun c => c.toNat < 0x80 := by decide
    simpa using List.all_eq_true.mp hsigns c (by simpa using hmem)

/-- A word of plain characters that is not reserved is no reserved word in another case. -/
theorem Keywords.not_sameIgnoringCase {v : Vendor} {name word : String}
    (hname : name.toList.all isNameChar) (hfree : Keywords.isReserved v name = false)
    (hword : word ∈ Keywords.sql92 ++ Keywords.additions v) : sameIgnoringCase word name = false := by
  by_contra hsame
  have hlower : asciiLower word = asciiLower name := by simpa [sameIgnoringCase] using hsame
  have hupper : upper name = word := by
    calc upper name
      _ = asciiUpper name :=
        upper_eq_asciiUpper fun c hc => isNameChar_ascii (List.all_eq_true.mp hname c hc)
      _ = asciiUpper word := by rw [← asciiUpper_asciiLower, ← hlower, asciiUpper_asciiLower]
      _ = word := Keywords.asciiUpper_word hword
  have hreserved : Keywords.isReserved v name := by
    simpa [Keywords.isReserved, hupper] using hword
  rw [hfree] at hreserved
  cases hreserved

/-! ## Names -/

namespace Profile

variable (p : Profile) (kind : IdentifierKind)

theorem identifier_writes (name : String) : p.Writes (p.writtenName name) (p.identifier kind name) := by
  rw [p.identifier_eq]
  split
  · have hinside : readQuoted p.identifiers.closeQuote none
        (doubledChars p.identifiers.closeQuote (p.writtenName name).toList ++
          [p.identifiers.closeQuote]) = some ((p.writtenName name).toList, []) :=
      readQuoted_doubled (fun _ => rfl) (by simp)
    exact .quoted (by simp [IdentifierPolicy.quote]) hinside
  · next h =>
    obtain ⟨hfree, hplain⟩ : p.isReserved (p.writtenName name) = false ∧
        isPlainFor p.vendor (p.writtenName name).toList := by simpa using h
    exact .bare hplain fun word => Keywords.not_sameIgnoringCase (isPlainFor_all hplain) hfree

variable {p kind}

theorem Writes.denoted?_eq {name written : String} (h : p.Writes name written) :
    p.identifiers.denoted? written = some name := by
  cases h with
  | bare hplain _ =>
    unfold IdentifierPolicy.denoted?
    split
    · rfl
    · next c cs hcs =>
      have hc : isNameChar c := List.all_eq_true.mp (isPlainFor_all hplain) c (by simp [hcs])
      have hopen : c ≠ p.identifiers.openQuote := by
        rintro rfl
        revert hc
        show ¬isNameChar (quotesOf p.vendor).1
        cases p.vendor <;> decide
      rw [if_neg hopen]
  | quoted hopen hinside => simp [IdentifierPolicy.denoted?, hopen, hinside]

theorem identifier_eq_iff {a b : String} :
    p.identifier kind a = p.identifier kind b ↔ p.writtenName a = p.writtenName b := by
  constructor
  · intro h
    have ha := (p.identifier_writes kind a).denoted?_eq
    rw [h, (p.identifier_writes kind b).denoted?_eq] at ha
    exact (Option.some.inj ha).symm
  · intro h
    rw [p.identifier_eq, p.identifier_eq, h]

/-- What a profile writes in a statement tells what it stands for: a name the shortened and folded one, a
literal its value. -/
theorem names_and_literals_read (p : Profile) :
    (∀ kind name, p.Writes (p.identifiers.fold (p.identifiers.truncate name kind))
      (p.identifier kind name)) ∧
    (∀ kind a b, p.identifier kind a = p.identifier kind b ↔
      p.identifiers.fold (p.identifiers.truncate a kind) =
        p.identifiers.fold (p.identifiers.truncate b kind)) ∧
    (∀ booleanLiterals s (rest : List Char), rest.head? ≠ some '\x27' →
      Value.read? none ((Value.literal booleanLiterals (.text s)).toList ++ rest) =
        some (.text s, rest)) ∧
    ∀ booleanLiterals bytes (rest : List Char), rest.head? ≠ some '\x27' →
      Value.read? none ((Value.literal booleanLiterals (.blob bytes)).toList ++ rest) =
        some (.blob bytes, rest) :=
  ⟨p.identifier_writes, fun _ _ _ => identifier_eq_iff, fun b s _ => Value.read?_text b s,
    fun b bytes _ => Value.read?_blob b bytes⟩

end Profile

end ObjectSql
