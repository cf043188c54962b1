import Mathlib.Algebra.Order.BigOperators.Group.List
import Mathlib.Data.Nat.Cast.Basic
import ObjectSql.Proofs.Dialect.Identifier
import ObjectSql.Proofs.Text.Digits

/-!
# Names that are too long

A name is shortened before it is folded. Folding can make a name longer again, so the limit is kept only
where the characters that are left do not grow. A name that is too long ends in digits of the hash of the
name as it was spelled, so two spellings of it are written alike only if their hashes agree.
-/
namespace ObjectSql

open Text IdentifierPolicy

/-! ## Folding, character by character -/

namespace IdentifierCase

def letter : IdentifierCase → Char → List Char
  | upper, c => upperChar c
  | lower, c => lowerChar c
  | preserve, c => [c]

/-- The hexadecimal digit that a digit in upper case becomes. -/
def digit : IdentifierCase → Nat → Char
  | lower => lowerHexDigit
  | _ => upperHexDigit

/-- By how many characters a character gets longer. -/
def growth (case : IdentifierCase) (c : Char) : Nat := (case.letter c).length - 1

variable (case : IdentifierCase)

theorem length_letter (c : Char) : (case.letter c).length = case.growth c + 1 := by
  have hne : case.letter c ≠ [] := by
    cases case with
    | upper => exact upperChar_ne_nil c
    | lower => exact lowerChar_ne_nil c
    | preserve => exact List.cons_ne_nil c []
  have hpos := List.length_pos_iff.mpr hne
  rw [growth, Nat.sub_add_cancel hpos]

theorem letter_upperHexDigit {n : Nat} (h : n < 16) :
    case.letter (upperHexDigit n) = [case.digit n] := by
  revert n
  cases case <;> decide

theorem digit_inj : ∀ m < 16, ∀ n < 16, case.digit m = case.digit n → m = n := by
  cases case <;> decide

theorem growth_hexDigits {width n : Nat} {c : Char} (h : c ∈ hexDigits upperHexDigit width n) :
    case.growth c = 0 := by
  obtain ⟨d, hd, rfl⟩ := mem_hexDigits h
  rw [growth, case.letter_upperHexDigit hd, List.length_singleton]

end IdentifierCase

namespace IdentifierPolicy

variable (p : IdentifierPolicy)

theorem length_fold (s : String) :
    (p.fold s).length = s.length + (s.toList.map p.case.growth).sum := by
  have hletters : (p.fold s).length = (s.toList.map fun c => (p.case.letter c).length).sum := by
    unfold fold
    cases p.case with
    | upper => exact length_upper s
    | lower => rw [Text.lower, ← String.length_toList, String.toList_ofList, length_lowerFrom]; rfl
    | preserve => simp [IdentifierCase.letter, String.length_toList]
  simp only [hletters, IdentifierCase.length_letter, List.sum_map_add]
  simp [String.length_toList, Nat.add_comm]

/-- Behind any beginning a text without a capital sigma becomes what its characters become. -/
theorem fold_append (a : List Char) {b : List Char} (hb : 'Σ' ∉ b) :
    ∃ front, (p.fold (String.ofList (a ++ b))).toList = front ++ b.flatMap p.case.letter := by
  unfold fold
  cases p.case with
  | upper =>
    refine ⟨a.flatMap upperChar, ?_⟩
    rw [upper, String.toList_ofList, String.toList_ofList, List.flatMap_append]
    rfl
  | lower =>
    obtain ⟨front, hfront⟩ := lowerFrom_append hb []
    refine ⟨front, ?_⟩
    rw [Text.lower, String.toList_ofList, String.toList_ofList, hfront]
    rfl
  | preserve =>
    have hsame : b.flatMap IdentifierCase.preserve.letter = b := List.flatMap_singleton' b
    exact ⟨a, by rw [String.toList_ofList, hsame]⟩

end IdentifierPolicy

/-! ## Shortened names -/

def hashDigits (name : String) : List Char := hexDigits upperHexDigit 4 (nameHash name).toNat

variable {limit : Nat} {name : String}

theorem truncateName_of_le (h : name.length ≤ limit) : truncateName name limit = name := by
  rw [← String.length_toList] at h
  rw [truncateName, if_pos h]

theorem truncateName_of_lt (hlimit : 4 < limit) (h : limit < name.length) :
    truncateName name limit =
      String.ofList (name.toList.take (limit - 4) ++ hashDigits name) := by
  rw [← String.length_toList] at h
  rw [truncateName, if_neg (Nat.not_le_of_lt h), if_neg (Nat.not_le_of_lt hlimit), hashDigits]

theorem length_truncateName (h : limit < name.length) :
    (truncateName name limit).length = limit := by
  rw [← String.length_toList] at h
  have htake {n : Nat} (hn : n ≤ limit) : (name.toList.take n).length = n := by
    rw [List.length_take]
    omega
  rw [truncateName, if_neg (Nat.not_le_of_lt h)]
  split
  · rw [String.length_ofList, htake (Nat.le_refl limit)]
  · rw [String.length_ofList, List.length_append, htake (Nat.sub_le limit 4), length_hexDigits]
    omega

theorem hashDigits_eq_iff {a b : String} :
    hashDigits a = hashDigits b ↔
      (nameHash a).toNat % 0x10000 = (nameHash b).toNat % 0x10000 :=
  hexDigits_inj (by decide)

namespace IdentifierPolicy

variable (p : IdentifierPolicy)

theorem four_lt_limitOf (v : Vendor) (version : Version) : 4 < limitOf v version := by
  have horacle : 30 ≤ if version.atLeast 12 2 then 128 else 30 := by split <;> decide
  cases v with
  | oracle => exact Nat.lt_of_lt_of_le (by decide) horacle
  | _ => simp [limitOf]

/-- The digits do not grow, so a shortened name has the length of the limit and what its beginning grows
by. -/
theorem length_fold_truncateName (hlimit : 4 < limit) (h : limit < name.length) :
    (p.fold (truncateName name limit)).length =
      limit + ((name.toList.take (limit - 4)).map p.case.growth).sum := by
  have hkept : (name.toList.take (limit - 4)).length = limit - 4 := by
    rw [List.length_take, String.length_toList]
    omega
  have hdigits : ((hashDigits name).map p.case.growth).sum = 0 := by
    rw [List.sum_eq_zero_iff_forall_eq_nat, List.forall_mem_map]
    exact fun c hc => p.case.growth_hexDigits hc
  rw [truncateName_of_lt hlimit h, length_fold, ← String.length_toList, String.toList_ofList,
    List.length_append, hkept, hashDigits, length_hexDigits, List.map_append, List.sum_append,
    ← hashDigits, hdigits]
  omega

theorem length_fold_truncateName_lt (hlimit : 4 < limit) (h : limit < name.length) :
    (p.fold (truncateName name limit)).length < (p.fold name).length := by
  have hsplit : (name.toList.map p.case.growth).sum =
      ((name.toList.take (limit - 4)).map p.case.growth).sum +
        ((name.toList.drop (limit - 4)).map p.case.growth).sum := by
    rw [← List.sum_append, ← List.map_append, List.take_append_drop]
  rw [p.length_fold_truncateName hlimit h, length_fold, hsplit]
  omega

/-- A folded name still tells the hash that it ends in. -/
theorem hash_eq_of_fold_eq {a b : String} {as bs : List Char}
    (h : p.fold (String.ofList (as ++ hashDigits a)) = p.fold (String.ofList (bs ++ hashDigits b))) :
    (nameHash a).toNat % 0x10000 = (nameHash b).toNat % 0x10000 := by
  have hsigma (name : String) : 'Σ' ∉ hashDigits name := not_mem_hexDigits (by decide)
  obtain ⟨front, hfront⟩ := p.fold_append as (hsigma a)
  obtain ⟨front', hfront'⟩ := p.fold_append bs (hsigma b)
  simp only [hashDigits, flatMap_hexDigits fun _ => p.case.letter_upperHexDigit] at hfront hfront'
  rw [hashDigits, hashDigits] at h
  rw [h, hfront'] at hfront
  have hdigits := (List.append_inj' hfront (by simp only [length_hexDigits])).2
  exact ((hexDigits_inj p.case.digit_inj).mp hdigits).symm

/-- A spelling that is too long and one that is not are shortened to names of different lengths. -/
theorem fold_truncateName_ne (hlimit : 4 < limit) {a b : String} (h : p.fold a = p.fold b)
    (ha : limit < a.length) (hb : b.length ≤ limit) :
    p.fold (truncateName a limit) ≠ p.fold (truncateName b limit) := by
  have hshorter := p.length_fold_truncateName_lt hlimit ha
  rw [truncateName_of_le hb, ← h]
  intro heq
  rw [heq] at hshorter
  exact Nat.lt_irrefl _ hshorter

/-- Two spellings of one name, shortened and folded. -/
theorem fold_truncateName_eq_iff (hlimit : 4 < limit) {a b : String} (h : p.fold a = p.fold b) :
    p.fold (truncateName a limit) = p.fold (truncateName b limit) ↔
      a.length ≤ limit ∧ b.length ≤ limit ∨
      limit < a.length ∧ limit < b.length ∧
        (nameHash a).toNat % 0x10000 = (nameHash b).toNat % 0x10000 ∧
        p.fold (String.ofList (a.toList.take (limit - 4) ++ hashDigits a)) =
          p.fold (String.ofList (b.toList.take (limit - 4) ++ hashDigits a)) := by
  rcases Nat.lt_or_ge limit a.length with ha | ha <;> rcases Nat.lt_or_ge limit b.length with hb | hb
  · rw [truncateName_of_lt hlimit ha, truncateName_of_lt hlimit hb]
    constructor
    · intro heq
      have hhash := p.hash_eq_of_fold_eq heq
      refine .inr ⟨ha, hb, hhash, ?_⟩
      rwa [hashDigits_eq_iff.mpr hhash] at heq ⊢
    · rintro (⟨hfits, -⟩ | ⟨-, -, hhash, hkept⟩)
      · omega
      · rw [hkept, hashDigits_eq_iff.mpr hhash]
  · exact iff_of_false (p.fold_truncateName_ne hlimit h ha hb) (by omega)
  · exact iff_of_false (p.fold_truncateName_ne hlimit h.symm hb ha).symm (by omega)
  · rw [truncateName_of_le ha, truncateName_of_le hb]
    exact iff_of_true h (.inl ⟨ha, hb⟩)

end IdentifierPolicy

/-! ## Written names -/

namespace Profile

/-- A written name denotes a name within the limit exactly if the name fits with all that its characters
grow by, or is too long and no character of the beginning that is kept grows. -/
theorem denoted_length_le_iff (p : Profile) (kind : IdentifierKind) (name : String) :
    ∃ denoted, p.identifiers.denoted? (p.identifier kind name) = some denoted ∧
      (denoted.length ≤ p.identifiers.maxLength kind ↔
        if name.length ≤ p.identifiers.maxLength kind then
          name.length + (name.toList.map p.identifiers.case.growth).sum ≤
            p.identifiers.maxLength kind
        else
          ∀ c ∈ name.toList.take (p.identifiers.maxLength kind - 4),
            p.identifiers.case.growth c = 0) := by
  have hlimit : 4 < p.identifiers.maxLength kind := four_lt_limitOf p.vendor p.version
  refine ⟨p.identifiers.fold (p.identifiers.truncate name kind),
    (p.identifier_writes kind name).denoted?_eq, ?_⟩
  rw [IdentifierPolicy.truncate]
  split
  · next hfits => rw [truncateName_of_le hfits, IdentifierPolicy.length_fold]
  · next hlong =>
    rw [p.identifiers.length_fold_truncateName hlimit (Nat.lt_of_not_le hlong)]
    have hroom {m n : Nat} : m + n ≤ m ↔ n = 0 := by omega
    rw [hroom, List.sum_eq_zero_iff_forall_eq_nat, List.forall_mem_map]

/-- A name of thirty characters fits, but its sharp s becomes two letters. -/
theorem denoted_longer_than_limit :
    let p := Profile.ofVendor .oracle ⟨11, 2, 0⟩
    let name := "KUNDENLIEFERSTRAßENBEZEICHNUNG"
    p.identifiers.denoted? (p.identifier .table name) = some "KUNDENLIEFERSTRASSENBEZEICHNUNG" ∧
      name.length = p.identifiers.maxLength .table ∧
      ¬∀ denoted, p.identifiers.denoted? (p.identifier .table name) = some denoted →
        denoted.length ≤ p.identifiers.maxLength .table := by
  have hdenoted : (Profile.ofVendor .oracle ⟨11, 2, 0⟩).identifiers.denoted?
      ((Profile.ofVendor .oracle ⟨11, 2, 0⟩).identifier .table "KUNDENLIEFERSTRAßENBEZEICHNUNG") =
        some "KUNDENLIEFERSTRASSENBEZEICHNUNG" := by decide +kernel
  exact ⟨hdenoted, by decide, fun h => absurd (h _ hdenoted) (by decide)⟩

/-- Two spellings of one name are written alike exactly if both fit, or neither fits and the hashes of
the two spellings end alike behind beginnings that fold alike. -/
theorem identifier_eq_iff_of_fold_eq (p : Profile) (kind : IdentifierKind) {a b : String}
    (h : p.identifiers.fold a = p.identifiers.fold b) :
    p.identifier kind a = p.identifier kind b ↔
      a.length ≤ p.identifiers.maxLength kind ∧ b.length ≤ p.identifiers.maxLength kind ∨
      p.identifiers.maxLength kind < a.length ∧ p.identifiers.maxLength kind < b.length ∧
        (nameHash a).toNat % 0x10000 = (nameHash b).toNat % 0x10000 ∧
        p.identifiers.fold
            (String.ofList (a.toList.take (p.identifiers.maxLength kind - 4) ++ hashDigits a)) =
          p.identifiers.fold
            (String.ofList (b.toList.take (p.identifiers.maxLength kind - 4) ++ hashDigits a)) :=
  identifier_eq_iff.trans
    (p.identifiers.fold_truncateName_eq_iff (four_lt_limitOf p.vendor p.version) h)

/-- One of two spellings has a sharp s and fits, the other has two letters for it and is too long. -/
theorem identifier_eq_iff_of_fold_eq_sharp :
    let p := Profile.ofVendor .oracle ⟨11, 2, 0⟩
    let a := "KUNDENLIEFERSTRAßENBEZEICHNUNG"
    let b := "KUNDENLIEFERSTRASSENBEZEICHNUNG"
    p.identifiers.fold a = p.identifiers.fold b ∧
      (p.identifier .table a = p.identifier .table b ↔
        a.length ≤ 30 ∧ b.length ≤ 30 ∨
        30 < a.length ∧ 30 < b.length ∧
          (nameHash a).toNat % 0x10000 = (nameHash b).toNat % 0x10000 ∧
          p.identifiers.fold (String.ofList (a.toList.take 26 ++ hashDigits a)) =
            p.identifiers.fold (String.ofList (b.toList.take 26 ++ hashDigits a))) :=
  have h : (Profile.ofVendor .oracle ⟨11, 2, 0⟩).identifiers.fold "KUNDENLIEFERSTRAßENBEZEICHNUNG" =
      (Profile.ofVendor .oracle ⟨11, 2, 0⟩).identifiers.fold "KUNDENLIEFERSTRASSENBEZEICHNUNG" := by
    decide +kernel
  ⟨h, identifier_eq_iff_of_fold_eq _ .table h⟩

/-- A name in capitals is another table than the same name in small letters. -/
theorem spellings_written_apart :
    let p := Profile.ofVendor .oracle ⟨11, 2, 0⟩
    let a := "Customer_Order_Line_Item_Discount"
    let b := "CUSTOMER_ORDER_LINE_ITEM_DISCOUNT"
    p.identifiers.case ≠ .preserve ∧
      p.identifier .table a = "CUSTOMER_ORDER_LINE_ITEM_D9829" ∧
      p.identifier .table b = "CUSTOMER_ORDER_LINE_ITEM_D88A9" ∧
      ¬∀ a b, p.identifiers.fold a = p.identifiers.fold b →
        p.identifier .table a = p.identifier .table b := by
  intro p a b
  have ha : p.identifier .table a = "CUSTOMER_ORDER_LINE_ITEM_D9829" := by decide +kernel
  have hb : p.identifier .table b = "CUSTOMER_ORDER_LINE_ITEM_D88A9" := by decide +kernel
  have hfold : p.identifiers.fold a = p.identifiers.fold b := by decide +kernel
  refine ⟨by decide, ha, hb, fun h => ?_⟩
  have halike := h a b hfold
  rw [ha, hb] at halike
  exact absurd halike (by decide)

end Profile

end ObjectSql
