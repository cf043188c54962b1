import ObjectSql.Proofs.Text.Digits
import ObjectSql.Proofs.Text.Quoted
import ObjectSql.Value

/-!
# Reading literals

A literal is read from the front of a text by a rule for quotes: a text is what stands in quotes, bytes are
pairs of hexadecimal digits in quotes behind an `X`. By the standard rule each literal of a text and of
bytes is read back as its value, whatever follows it but a quote.
-/
namespace ObjectSql

open Text

def bytesOfDigits : List Char → Option (List UInt8)
  | [] => some []
  | [_] => none
  | high :: low :: cs => do
    let h ← hexValue high
    let l ← hexValue low
    let bytes ← bytesOfDigits cs
    pure (UInt8.ofNat (16 * h + l) :: bytes)

theorem hexValue_upperHexDigit {n : Nat} (h : n < 16) : hexValue (upperHexDigit n) = some n := by
  revert n
  decide

theorem bytesOfDigits_byte (b : UInt8) (cs : List Char) :
    bytesOfDigits (hexDigits upperHexDigit 2 b.toNat ++ cs) = (bytesOfDigits cs).map (b :: ·) := by
  have hhigh := hexValue_upperHexDigit (Nat.mod_lt (b.toNat / 16) (by decide))
  have hlow := hexValue_upperHexDigit (Nat.mod_lt b.toNat (by decide))
  have hbyte : UInt8.ofNat (16 * (b.toNat / 16 % 16) + b.toNat % 16) = b := by
    have hlt := b.toNat_lt
    rw [show 16 * (b.toNat / 16 % 16) + b.toNat % 16 = b.toNat by omega, UInt8.ofNat_toNat]
  simp only [hexDigits, List.nil_append, List.cons_append, bytesOfDigits, hhigh, hlow,
    Option.bind_eq_bind, Option.bind_some, hbyte, Option.pure_def]
  cases bytesOfDigits cs <;> rfl

theorem bytesOfDigits_blobDigits (bytes : List UInt8) :
    bytesOfDigits (Value.blobDigits bytes).toList = some bytes := by
  rw [Value.blobDigits, String.toList_ofList]
  induction bytes with
  | nil => rfl
  | cons b bytes ih => rw [List.flatMap_cons, bytesOfDigits_byte, ih, Option.map_some]

/-- The literal of a text or of bytes at the front of a text, and what follows it. -/
def Value.read? (escaped : Option (Char → List Char)) : List Char → Option (Value × List Char)
  | '\x27' :: cs => (readQuoted '\x27' escaped cs).map (Prod.map (.text ∘ String.ofList) id)
  | 'X' :: '\x27' :: cs => do
    let (digits, rest) ← readQuoted '\x27' escaped cs
    let bytes ← bytesOfDigits digits
    pure (.blob bytes, rest)
  | _ => none

namespace Value

variable {rest : List Char} (booleanLiterals : Bool)

theorem literal_text_append (s : String) (rest : List Char) :
    (literal booleanLiterals (.text s)).toList ++ rest =
      '\x27' :: (doubledChars '\x27' s.toList ++ '\x27' :: rest) := by
  simp [literal, quotedText]

theorem literal_blob_append (bytes : List UInt8) (rest : List Char) :
    (literal booleanLiterals (.blob bytes)).toList ++ rest =
      'X' :: '\x27' :: (doubledChars '\x27' (blobDigits bytes).toList ++ '\x27' :: rest) := by
  have hquote : '\x27' ∉ (blobDigits bytes).toList := by
    simp [blobDigits, not_mem_hexDigits (by decide : ∀ d < 16, upperHexDigit d ≠ '\x27')]
  simp [literal, doubledChars_of_not_mem hquote]

/-- The literal of a text is read as a text exactly if the reader of quotes comes to that text. -/
theorem read?_text_iff {escaped : Option (Char → List Char)} {s t : String} {behind : List Char} :
    read? escaped ((literal booleanLiterals (.text s)).toList ++ behind) = some (.text t, rest) ↔
      readQuoted '\x27' escaped (doubledChars '\x27' s.toList ++ '\x27' :: behind) =
        some (t.toList, rest) := by
  rw [literal_text_append, read?, Option.map_eq_some_iff]
  constructor
  · rintro ⟨⟨u, v⟩, hread, heq⟩
    obtain ⟨rfl, rfl⟩ : String.ofList u = t ∧ v = rest := by simpa using heq
    rwa [String.toList_ofList]
  · intro hread
    exact ⟨_, hread, by simp⟩

theorem read?_text (s : String) (hrest : rest.head? ≠ some '\x27') :
    read? none ((literal booleanLiterals (.text s)).toList ++ rest) = some (.text s, rest) :=
  (read?_text_iff booleanLiterals).mpr (readQuoted_doubled (fun _ => rfl) hrest)

theorem read?_blob (bytes : List UInt8) (hrest : rest.head? ≠ some '\x27') :
    read? none ((literal booleanLiterals (.blob bytes)).toList ++ rest) = some (.blob bytes, rest) := by
  have hread : readQuoted '\x27' none (doubledChars '\x27' (blobDigits bytes).toList ++ '\x27' :: rest) =
      some ((blobDigits bytes).toList, rest) := readQuoted_doubled (fun _ => rfl) hrest
  rw [literal_blob_append, read?, hread]
  simp [bytesOfDigits_blobDigits]

end Value

end ObjectSql
