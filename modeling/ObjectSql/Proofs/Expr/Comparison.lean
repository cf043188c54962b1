import ObjectSql.Proofs.Expr.Construction

/-!
# What can be compared

Comparisons are accepted from both sides alike: of values of one category, of anything with objects and
placeholders, and with `NULL` for equality. A comparison with `NULL` is a test of the other side, so no
comparison has `NULL` as an operand. This rests on the categories of two kinds of operands only: `NULL` is not
of the category of maps, and a map member is.
-/
namespace ObjectSql.Expr

def isMap (e : Expr) : Bool := e.mapBinding?.isSome

def isParameter (e : Expr) : Bool :=
  match e.node with
  | .parameter _ => true
  | _ => false

/-- Whether two expressions, neither of which is a map, have categories that can be compared. -/
def Agrees (left right : Expr) : Prop :=
  left.category = right.category ∨ left.isParameter ∨ right.isParameter ∨
    left.category = .object ∨ right.category = .object

/-- The operands that a comparison accepts. -/
inductive Accepts (op : BinaryOp) (left right : Expr) : Prop where
  | map (hop : op = .eq ∨ op = .ne)
    (h : left.isMap ∧ right.isNullLiteral ∨ right.isMap ∧ left.isNullLiteral)
  | null (hop : op = .eq ∨ op = .ne) (hleft : left.category ≠ .map) (hright : right.category ≠ .map)
    (h : left.isNullLiteral ∨ right.isNullLiteral)
  | values (hleft : left.category ≠ .map ∧ ¬left.isNullLiteral)
    (hright : right.category ≠ .map ∧ ¬right.isNullLiteral) (h : left.Agrees right)

variable {e left right : Expr} {op : BinaryOp}

theorem Accepts.symm (h : Accepts op left right) : Accepts op right left := by
  cases h with
  | map hop h => exact .map hop h.symm
  | null hop hleft hright h => exact .null hop hright hleft h.symm
  | values hleft hright h =>
    refine .values hright hleft ?_
    unfold Agrees at h ⊢
    grind

theorem isMap_iff : e.isMap ↔ ∃ b, e.node = .map b := by
  obtain ⟨category, logicalType, table, node⟩ := e
  cases node <;> simp [isMap, mapBinding?]

/-! ## Categories of operands -/

/-- Whether `NULL` and map members are told apart by their categories. -/
structure Categorized (e : Expr) : Prop where
  null : e.isNullLiteral → e.category ≠ .map
  map : e.isMap → e.category = .map

theorem WellFormed.categorized (h : e.WellFormed) : e.Categorized := by
  have hformed := h.formed
  unfold Formed at hformed
  constructor
  · intro hnull
    unfold isNullLiteral at hnull
    split at hnull
    · next hnode =>
      rw [hnode] at hformed
      rw [hformed]
      nofun
    · next hnode => simp [hnode] at hformed
    · cases hnull
  · intro hmap
    obtain ⟨b, hb⟩ := isMap_iff.mp hmap
    rw [hb] at hformed
    rw [hformed]
    rfl

/-- The categories of an expression that is built are as comparisons need them. -/
theorem Built.categorized (h : e.Built) : e.Categorized := h.wellFormed.categorized

/-! ## Acceptance -/

theorem exists_compareMap : (∃ e, left.compareMap op right = .ok e) ↔
    (op = .eq ∨ op = .ne) ∧ left.isMap ∧ right.isNullLiteral := by
  simp only [compareMap_eq_ok, isMap_iff]
  constructor
  · rintro ⟨e, hnull, b, hb, ⟨hop, -⟩ | ⟨hop, -⟩⟩
    · exact ⟨.inl hop, ⟨b, hb⟩, hnull⟩
    · exact ⟨.inr hop, ⟨b, hb⟩, hnull⟩
  · rintro ⟨hop | hop, ⟨b, hb⟩, hnull⟩
    · exact ⟨_, hnull, b, hb, .inl ⟨hop, rfl⟩⟩
    · exact ⟨_, hnull, b, hb, .inr ⟨hop, rfl⟩⟩

theorem comparable_iff (hl : ¬left.isNullLiteral) (hr : ¬right.isNullLiteral) :
    left.comparable right ↔ left.Agrees right := by
  have hany : ∀ e : Expr, ¬e.isNullLiteral →
      (e.comparesWithAny ↔ e.category = .object ∨ e.isParameter) := by
    rintro ⟨category, logicalType, table, node⟩ hnull
    cases node <;> simp_all [comparesWithAny, isParameter, isNullLiteral]
  simp only [comparable, Bool.or_eq_true, beq_iff_eq, hany left hl, hany right hr, Agrees]
  grind

theorem exists_compareValues : (∃ e, left.compareValues op right = .ok e) ↔
    if right.isNullLiteral then op = .eq ∨ op = .ne else left.comparable right := by
  simp only [compareValues_eq_ok]
  split
  · next hnull =>
    constructor
    · rintro ⟨e, ⟨-, ⟨hop, -⟩ | ⟨hop, -⟩⟩ | ⟨hvalue, -⟩⟩
      · exact .inl hop
      · exact .inr hop
      · simp [hnull] at hvalue
    · rintro (hop | hop)
      · exact ⟨_, .inl ⟨hnull, .inl ⟨hop, rfl⟩⟩⟩
      · exact ⟨_, .inl ⟨hnull, .inr ⟨hop, rfl⟩⟩⟩
  · next hnull => simp [hnull]

/-- A map is accepted with `NULL` only. -/
theorem Categorized.accepts_of_map (hl : left.Categorized) (h : left.category = .map) :
    Accepts op left right ↔ (op = .eq ∨ op = .ne) ∧ left.isMap ∧ right.isNullLiteral := by
  have hnull : ¬left.isNullLiteral := fun hnull => hl.null hnull h
  constructor
  · rintro (⟨hop, hmap | hmap⟩ | ⟨hop, hleft, -⟩ | ⟨hleft, -⟩)
    · exact ⟨hop, hmap⟩
    · exact absurd hmap.2 hnull
    · exact absurd h hleft
    · exact absurd h hleft.1
  · rintro ⟨hop, hmap⟩
    exact .map hop (.inl hmap)

/-- Without a map, `NULL` on either side is accepted for equality. -/
theorem Categorized.accepts_of_values (hl : left.Categorized) (hr : right.Categorized)
    (hleft : left.category ≠ .map) (hright : right.category ≠ .map) :
    Accepts op left right ↔
      if left.isNullLiteral ∨ right.isNullLiteral then op = .eq ∨ op = .ne
      else left.Agrees right := by
  have hmap : ¬left.isMap ∧ ¬right.isMap :=
    ⟨fun h => hleft (hl.map h), fun h => hright (hr.map h)⟩
  split
  · next hnull =>
    refine ⟨?_, fun hop => .null hop hleft hright hnull⟩
    rintro (⟨hop, -⟩ | ⟨hop, -⟩ | ⟨hl, hr⟩)
    · exact hop
    · exact hop
    · exact (hnull.elim hl.2 hr.2).elim
  · next hnull =>
    rw [not_or] at hnull
    refine ⟨?_, fun h => .values ⟨hleft, hnull.1⟩ ⟨hright, hnull.2⟩ h⟩
    rintro (⟨-, h | h⟩ | ⟨-, -, -, h⟩ | ⟨-, -, h⟩)
    · exact absurd h.1 hmap.1
    · exact absurd h.1 hmap.2
    · exact absurd h (not_or.mpr hnull)
    · exact h

/-- A comparison accepts its operands exactly as told. -/
theorem Categorized.exists_compare (hl : left.Categorized) (hr : right.Categorized) :
    (∃ e, left.compare op right = .ok e) ↔ Accepts op left right := by
  unfold Expr.compare
  by_cases hleft : left.category = .map
  · simp only [if_pos hleft]
    rw [exists_compareMap, hl.accepts_of_map hleft]
  · by_cases hright : right.category = .map
    · simp only [if_neg hleft, if_pos hright]
      rw [exists_compareMap, ← hr.accepts_of_map hright]
      exact ⟨Accepts.symm, Accepts.symm⟩
    · simp only [if_neg hleft, if_neg hright]
      rw [hl.accepts_of_values hr hleft hright]
      by_cases hnull : left.isNullLiteral <;> by_cases hnull' : right.isNullLiteral
      · simp [exists_compareValues, hnull, hnull']
      · simp [exists_compareValues, hnull, hnull']
      · simp [exists_compareValues, hnull, hnull']
      · simp [exists_compareValues, hnull, hnull', comparable_iff]

/-! ## Results -/

/-- What a comparison gives from either side. -/
def ComparesTo (left : Expr) (op : BinaryOp) (right e : Expr) : Prop :=
  left.compare op right = .ok e ∧ right.compare op left = .ok e

theorem compare_of_null (hleft : left.category ≠ .map) (hright : right.category ≠ .map)
    (hnull : right.isNullLiteral) : left.compare op right = left.compareValues op right := by
  simp [Expr.compare, hleft, hright, hnull]

/-- A value is compared with `NULL` in the same way when `NULL` comes first. -/
theorem comparesTo_of_null (hleft : left.category ≠ .map) (hright : right.category ≠ .map)
    (hnull : right.isNullLiteral) (hvalue : ¬left.isNullLiteral)
    (h : left.compareValues op right = .ok e) : left.ComparesTo op right e := by
  refine ⟨(compare_of_null hleft hright hnull).trans h, ?_⟩
  simp [Expr.compare, hleft, hright, hnull, hvalue, h]

theorem comparesTo_of_map (hleft : left.category = .map) (hright : right.category ≠ .map)
    (h : left.compareMap op right = .ok e) : left.ComparesTo op right e := by
  simp [ComparesTo, Expr.compare, hleft, hright, h]

theorem compareMap_ne_binary (h : left.compareMap op right = .ok e) {a b : Expr} {o : BinaryOp} :
    e.node ≠ .binary a o b := by
  obtain ⟨-, _, -, ⟨-, rfl⟩ | ⟨-, rfl⟩⟩ := compareMap_eq_ok.mp h
  · nofun
  · nofun

theorem compareValues_operands (h : left.compareValues op right = .ok e) {a b : Expr} {o : BinaryOp}
    (he : e.node = .binary a o b) : ¬right.isNullLiteral ∧ a = left ∧ b = right := by
  obtain ⟨-, ⟨-, rfl⟩ | ⟨-, rfl⟩⟩ | ⟨hnull, -, rfl⟩ := compareValues_eq_ok.mp h
  · cases he
  · cases he
  · cases he
    simp [hnull]

theorem operands_of_compare (h : left.compare op right = .ok e) {a b : Expr} {o : BinaryOp}
    (he : e.node = .binary a o b) : ¬a.isNullLiteral ∧ ¬b.isNullLiteral := by
  unfold Expr.compare at h
  split at h
  · exact absurd he (compareMap_ne_binary h)
  · split at h
    · exact absurd he (compareMap_ne_binary h)
    · split at h
      · next hnull =>
        obtain ⟨hvalue, -, -⟩ := compareValues_operands h he
        simp_all
      · next hnull =>
        obtain ⟨hvalue, rfl, rfl⟩ := compareValues_operands h he
        simp_all

theorem find_isEmpty (vendor : Vendor) : Method.find vendor (some .map) "isEmpty" = .ok .isEmpty := by
  cases vendor <;> rfl

theorem invoke_isEmpty {b : MapBinding} (hmap : e.category = .map) (hb : e.node = .map b) (ctx : Context) :
    e.invoke ctx "isEmpty" [] = .ok (existsIn b.entries true) := by
  have hempty : e.mapIsEmpty = .ok (existsIn b.entries true) := mapIsEmpty_eq_ok.mpr ⟨b, hb, rfl⟩
  rw [invoke, hmap, find_isEmpty]
  simp only [bind, Except.bind, Method.invoke, Method.applyTo, hempty]
  rfl

/-- A comparison is accepted from both sides or from none, exactly for the operands told by `Accepts`. It
never has `NULL` as an operand: a value with `NULL` on either side is tested for `NULL`, and a map with `NULL` on
either side is tested as by the method `isEmpty` of the product, or the negation of that. -/
theorem compare_accepts (hl : left.Categorized) (hr : right.Categorized) (op : BinaryOp) (ctx : Context) :
    ((∃ e, left.compare op right = .ok e) ↔ ∃ e, right.compare op left = .ok e) ∧
      ((∃ e, left.compare op right = .ok e) ↔ Accepts op left right) ∧
      (∀ e a o b, left.compare op right = .ok e → e.node = .binary a o b →
        ¬a.isNullLiteral ∧ ¬b.isNullLiteral) ∧
      (right.isNullLiteral → left.category ≠ .map →
        left.compare .eq right = .ok (predicate left.table (.isNull left false)) ∧
          left.compare .ne right = .ok (predicate left.table (.isNull left true)) ∧
          (¬left.isNullLiteral →
            left.ComparesTo .eq right (predicate left.table (.isNull left false)) ∧
              left.ComparesTo .ne right (predicate left.table (.isNull left true)))) ∧
      (right.isNullLiteral → ∀ b, left.node = .map b →
        left.invoke ctx "isEmpty" [] = .ok (existsIn b.entries true) ∧
          left.ComparesTo .eq right (existsIn b.entries true) ∧
          left.ComparesTo .ne right (existsIn b.entries false)) := by
  have haccepts : (∃ e, left.compare op right = .ok e) ↔ Accepts op left right := hl.exists_compare hr
  refine ⟨?_, haccepts, fun e a o b h he => operands_of_compare h he, fun hnull hvalue => ?_,
    fun hnull b hb => ?_⟩
  · rw [haccepts, hr.exists_compare hl]
    exact ⟨Accepts.symm, Accepts.symm⟩
  · have hright : right.category ≠ .map := hr.null hnull
    have heq : left.compareValues .eq right = .ok (predicate left.table (.isNull left false)) :=
      compareValues_eq_ok.mpr (.inl ⟨hnull, .inl ⟨rfl, rfl⟩⟩)
    have hne : left.compareValues .ne right = .ok (predicate left.table (.isNull left true)) :=
      compareValues_eq_ok.mpr (.inl ⟨hnull, .inr ⟨rfl, rfl⟩⟩)
    exact ⟨(compare_of_null hvalue hright hnull).trans heq, (compare_of_null hvalue hright hnull).trans hne,
      fun hleft => ⟨comparesTo_of_null hvalue hright hnull hleft heq,
        comparesTo_of_null hvalue hright hnull hleft hne⟩⟩
  · have hmap : left.category = .map := hl.map (isMap_iff.mpr ⟨b, hb⟩)
    have hright : right.category ≠ .map := hr.null hnull
    exact ⟨invoke_isEmpty hmap hb ctx,
      comparesTo_of_map hmap hright (compareMap_eq_ok.mpr ⟨hnull, b, hb, .inl ⟨rfl, rfl⟩⟩),
      comparesTo_of_map hmap hright (compareMap_eq_ok.mpr ⟨hnull, b, hb, .inr ⟨rfl, rfl⟩⟩)⟩

def orderPrices : MapBinding where
  owner := ⟨"ORDERS", "A0"⟩
  ownerIdColumn := "ID"
  joinTable := "ORDER_PRICES"
  ownerColumn := "ORDER_ID"
  keyColumn := "PRICE_KEY"
  valueColumn := some "AMOUNT"
  keyLogicalType := "string"

/-- An order equals `NULL` in its prices if it has none, from either side, and is not less than `NULL`. -/
theorem compare_accepts_prices :
    ((map orderPrices).Categorized ∧ null.Categorized) ∧
      (map orderPrices).ComparesTo .eq null (existsIn orderPrices.entries true) ∧
      ¬∃ e, (map orderPrices).compare .lt null = .ok e := by
  have hl : (map orderPrices).Categorized := Built.categorized (.map orderPrices)
  have hr : null.Categorized := Built.categorized .null
  let ctx : Context := ⟨.ofVendor .h2 Vendor.h2.defaultVersion, .where⟩
  have ⟨_, _, _, _, hmap⟩ := compare_accepts hl hr .eq ctx
  have ⟨_, haccepts, _⟩ := compare_accepts hl hr .lt ctx
  refine ⟨⟨hl, hr⟩, (hmap rfl orderPrices rfl).2.1, ?_⟩
  rw [haccepts]
  rintro (⟨hop, -⟩ | ⟨hop, -⟩ | ⟨-, hright, -⟩)
  · simp at hop
  · simp at hop
  · exact hright.2 rfl

/-- A `NULL` of the category of maps, which no function builds. -/
def mapNull : Expr := typed .map "map" .null

/-- A map member of another category, which no function builds either. -/
def looseMap : Expr := typed .object "object" (.map orderPrices)

def orderAmount : Expr := column orderPrices.owner "AMOUNT" "decimal"

/-- A `NULL` of the category of maps is accepted after a map and not before it, and a map of another category is
tested as a value. Arithmetic takes the operators of comparisons too, and `NULL` as it is. -/
theorem compare_uncategorized :
    ((map orderPrices).compare .eq mapNull = .ok (existsIn orderPrices.entries true) ∧
        mapNull.compare .eq (map orderPrices) = .error (.invalidComparison .map .eq .map)) ∧
      (looseMap.isMap ∧ looseMap.compare .eq null = .ok looseMap.isNull) ∧
      (orderAmount.arithmetic .eq null).node = .binary orderAmount .eq null ∧ null.isNullLiteral :=
  ⟨⟨rfl, rfl⟩, ⟨rfl, rfl⟩, rfl, rfl⟩

end ObjectSql.Expr
