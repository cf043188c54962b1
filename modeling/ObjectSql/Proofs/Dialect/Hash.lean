import Mathlib.Data.List.Basic
import ObjectSql.Proofs.Dialect.Truncation

/-!
# Names told apart by their hashes

The last 16 bits of a hash go through one reversible step for each byte: the byte is added by exclusive
or, and the multiplier is odd. So the hashes of two names that differ in one byte end differently, however
the names go on, and the names stay apart when they are shortened.
-/
namespace ObjectSql

open Text

def utf8Bytes (name : String) : List UInt8 := name.toUTF8.data.toList

/-! ## Hashes byte by byte -/

def hashStep (hash : UInt32) (byte : UInt8) : UInt32 := (hash ^^^ byte.toUInt32) * 0x01000193

theorem nameHash_eq_foldl (name : String) :
    nameHash name = (utf8Bytes name).foldl hashStep 0x811C9DC5 := rfl

variable {hash hash' : UInt32} {byte byte' : UInt8}

theorem hashStep_toUInt16 (hash : UInt32) (byte : UInt8) :
    (hashStep hash byte).toUInt16 = (hash.toUInt16 ^^^ byte.toUInt16) * 0x01000193 := by
  simp [hashStep]

/-- The multiplier is odd, so it has an inverse modulo 2 ^ 16. -/
theorem multiplier_cancel {m n : UInt16} : m * 0x01000193 = n * 0x01000193 ↔ m = n := by
  refine ⟨fun h => ?_, congrArg (· * 0x01000193)⟩
  have hinverse : (0x01000193 : UInt16) * 0x449B = 1 := by decide
  calc m = m * 0x01000193 * 0x449B := by rw [UInt16.mul_assoc, hinverse, UInt16.mul_one]
    _ = n * 0x01000193 * 0x449B := by rw [h]
    _ = n := by rw [UInt16.mul_assoc, hinverse, UInt16.mul_one]

theorem hashStep_eq_iff_hash :
    (hashStep hash byte).toUInt16 = (hashStep hash' byte).toUInt16 ↔
      hash.toUInt16 = hash'.toUInt16 := by
  rw [hashStep_toUInt16, hashStep_toUInt16, multiplier_cancel, UInt16.xor_left_inj]

theorem hashStep_eq_iff_byte :
    (hashStep hash byte).toUInt16 = (hashStep hash byte').toUInt16 ↔ byte = byte' := by
  rw [hashStep_toUInt16, hashStep_toUInt16, multiplier_cancel, UInt16.xor_right_inj,
    UInt8.toUInt16_inj]

/-- Whatever bytes follow, hashes that end differently go on to end differently. -/
theorem foldl_hashStep_eq_iff (bytes : List UInt8) :
    (bytes.foldl hashStep hash).toUInt16 = (bytes.foldl hashStep hash').toUInt16 ↔
      hash.toUInt16 = hash'.toUInt16 := by
  induction bytes generalizing hash hash' with
  | nil => rfl
  | cons byte bytes ih => rw [List.foldl_cons, List.foldl_cons, ih, hashStep_eq_iff_hash]

/-! ## Names that differ in one byte -/

/-- Two names of as many bytes, which differ at one place and nowhere else. -/
structure OneByteApart (a b : String) : Prop where
  length_eq : (utf8Bytes a).length = (utf8Bytes b).length
  differ : ∃! i : Nat, (utf8Bytes a)[i]? ≠ (utf8Bytes b)[i]?

variable {a b : String}

/-- Around the place where they differ the two names have the same bytes. -/
theorem OneByteApart.exists_split (h : OneByteApart a b) :
    ∃ front x y back, x ≠ y ∧ utf8Bytes a = front ++ x :: back ∧
      utf8Bytes b = front ++ y :: back := by
  obtain ⟨hlength, i, hi, hsame⟩ := h
  have halike (j : Nat) (hj : j ≠ i) : (utf8Bytes a)[j]? = (utf8Bytes b)[j]? :=
    by_contra fun hne => hj (hsame j hne)
  have hlt : i < (utf8Bytes a).length := by
    by_contra hge
    have hge := Nat.le_of_not_lt hge
    exact hi (by rw [List.getElem?_eq_none hge, List.getElem?_eq_none (hlength ▸ hge)])
  have hltb : i < (utf8Bytes b).length := hlength ▸ hlt
  have hfront : (utf8Bytes a).take i = (utf8Bytes b).take i := by
    refine List.ext_getElem? fun j => ?_
    rw [List.getElem?_take, List.getElem?_take]
    split
    · next hj => exact halike j (Nat.ne_of_lt hj)
    · rfl
  have hback : (utf8Bytes a).drop (i + 1) = (utf8Bytes b).drop (i + 1) := by
    refine List.ext_getElem? fun j => ?_
    rw [List.getElem?_drop, List.getElem?_drop]
    exact halike _ (by omega)
  refine ⟨(utf8Bytes a).take i, (utf8Bytes a)[i], (utf8Bytes b)[i], (utf8Bytes a).drop (i + 1),
    ?_, ?_, ?_⟩
  · rw [List.getElem?_eq_getElem hlt, List.getElem?_eq_getElem hltb] at hi
    exact fun heq => hi (congrArg some heq)
  · rw [← List.drop_eq_getElem_cons hlt, List.take_append_drop]
  · rw [hfront, hback, ← List.drop_eq_getElem_cons hltb, List.take_append_drop]

theorem OneByteApart.of_split {front back : List UInt8} {x y : UInt8} (hne : x ≠ y)
    (ha : utf8Bytes a = front ++ x :: back) (hb : utf8Bytes b = front ++ y :: back) :
    OneByteApart a b := by
  refine ⟨by rw [ha, hb]; simp, front.length, by simpa [ha, hb] using hne, fun j hj => ?_⟩
  rw [ha, hb] at hj
  -- in front of the place and behind it the two lists of bytes are the same
  rcases Nat.lt_trichotomy j front.length with hlt | heq | hgt
  · exact absurd (by rw [List.getElem?_append_left hlt, List.getElem?_append_left hlt]) hj
  · exact heq
  · obtain ⟨m, rfl⟩ := Nat.exists_eq_add_of_lt hgt
    exact absurd (by simp [List.getElem?_append_right, Nat.add_assoc]) hj

theorem OneByteApart.nameHash_ne (h : OneByteApart a b) :
    (nameHash a).toNat % 0x10000 ≠ (nameHash b).toNat % 0x10000 := by
  obtain ⟨front, x, y, back, hne, ha, hb⟩ := h.exists_split
  have hhash : (nameHash a).toUInt16 ≠ (nameHash b).toUInt16 := by
    rw [nameHash_eq_foldl, nameHash_eq_foldl, ha, hb, List.foldl_append, List.foldl_append,
      List.foldl_cons, List.foldl_cons, Ne, foldl_hashStep_eq_iff, hashStep_eq_iff_byte]
    exact hne
  intro heq
  refine hhash (UInt16.toNat_inj.mp ?_)
  rw [UInt32.toNat_toUInt16, UInt32.toNat_toUInt16]
  exact heq

/-! ## Shortened names -/

/-- Names that are too long are told apart by the digits that they end in. -/
theorem OneByteApart.truncateName_ne (h : OneByteApart a b) {limit : Nat} (hlimit : 4 < limit)
    (ha : limit < a.length) (hb : limit < b.length) : truncateName a limit ≠ truncateName b limit := by
  rw [truncateName_of_lt hlimit ha, truncateName_of_lt hlimit hb]
  intro heq
  have hdigits := (List.append_inj' (String.ofList_injective heq)
    (by simp only [hashDigits, length_hexDigits])).2
  exact h.nameHash_ne (hashDigits_eq_iff.mp hdigits)

/-- A name is shortened to its limit and no further, and names that differ in one byte stay apart. -/
theorem truncateName_exact_and_apart (name : String) (limit : Nat) :
    (name.length ≤ limit → truncateName name limit = name) ∧
      (limit < name.length → (truncateName name limit).length = limit) ∧
      truncateName (truncateName name limit) limit = truncateName name limit ∧
      (4 < limit → ∀ other, limit < name.length → limit < other.length →
        OneByteApart name other → truncateName name limit ≠ truncateName other limit) := by
  refine ⟨truncateName_of_le, length_truncateName, ?_, fun hlimit other hname hother h =>
    h.truncateName_ne hlimit hname hother⟩
  have hfits : (truncateName name limit).length ≤ limit := by
    rcases Nat.lt_or_ge limit name.length with h | h
    · rw [length_truncateName h]
    · rwa [truncateName_of_le h]
  exact truncateName_of_le hfits

/-- The names of two foreign keys of one table. -/
theorem truncateName_exact_and_apart_keys :
    let a := "CUSTOMER_ORDER_LINE_ITEM_DISCOUNT_FK1"
    let b := "CUSTOMER_ORDER_LINE_ITEM_DISCOUNT_FK2"
    30 < a.length ∧ 30 < b.length ∧ OneByteApart a b ∧
      "ORDERS".length ≤ 30 ∧ truncateName "ORDERS" 30 = "ORDERS" ∧
      (truncateName a 30).length = 30 ∧ truncateName a 30 ≠ truncateName b 30 := by
  intro a b
  let front := utf8Bytes "CUSTOMER_ORDER_LINE_ITEM_DISCOUNT_FK"
  have hbytes : utf8Bytes a = front ++ [49] ∧ utf8Bytes b = front ++ [50] := by decide +kernel
  have hapart : OneByteApart a b := .of_split (by decide) hbytes.1 hbytes.2
  have ha : 30 < a.length := by decide
  have hb : 30 < b.length := by decide
  obtain ⟨-, hlength, -, hdiffer⟩ := truncateName_exact_and_apart a 30
  have hshort := (truncateName_exact_and_apart "ORDERS" 30).1 (by decide)
  exact ⟨ha, hb, hapart, by decide, hshort, hlength ha, hdiffer (by decide) b ha hb hapart⟩

end ObjectSql
