import ObjectSql.Expr.Method
import ObjectSql.Proofs.Except
import ObjectSql.Proofs.Statement.Building

/-!
# Expressions as they are built

Expressions come from the functions that build nodes, from comparisons, from operations and from methods. The
fields of an expression that is built this way follow from its node, and so do those of every expression in it:
a test or a negation is a predicate over the table of its operand, an operator reads from the table of an operand,
`NULL` is an object and a negation is not of something that is negated in place.
-/
namespace ObjectSql

/-! ## Parts -/

mutual

/-- The expressions that an expression is made of, beginning with itself. Those of its statements are parts too. -/
def Expr.parts : Expr → List Expr
  | ⟨category, logicalType, table, node⟩ => ⟨category, logicalType, table, node⟩ :: node.parts

def Node.parts : Node → List Expr
  | .column _ | .literal _ | .null | .parameter _ | .raw _ | .map _ => []
  | .function _ args | .template _ args => exprsParts args
  | .binary left _ right => left.parts ++ right.parts
  | .not operand | .isNull operand _ => operand.parts
  | .inList operand list _ => operand.parts ++ exprsParts list
  | .aggregate _ arg => arg.parts
  | .subquery query | .exists query _ => query.parts

def Join.parts : Join → List Expr
  | ⟨_, _, on⟩ => exprsParts on

def OrderItem.parts : OrderItem → List Expr
  | ⟨expr, _, _⟩ => expr.parts

def Select.parts : Select → List Expr
  | ⟨_, joins, _, projection, conditions, groupBy, having, ordering, _, _, _⟩ =>
    joinsParts joins ++ exprsParts projection ++ exprsParts conditions ++ exprsParts groupBy ++
      exprsParts having ++ itemsParts ordering

def exprsParts : List Expr → List Expr
  | [] => []
  | e :: es => e.parts ++ exprsParts es

def joinsParts : List Join → List Expr
  | [] => []
  | j :: js => j.parts ++ joinsParts js

def itemsParts : List OrderItem → List Expr
  | [] => []
  | i :: is => i.parts ++ itemsParts is

end

/-- The expressions that a statement is made of, without their parts. -/
def Select.exprs (s : Select) : List Expr :=
  s.joins.flatMap Join.on ++ s.projection ++ s.conditions ++ s.groupBy ++ s.having ++
    s.ordering.map OrderItem.expr

theorem Expr.parts_eq (e : Expr) : e.parts = e :: e.node.parts := by
  cases e
  rw [parts]

theorem exprsParts_eq (es : List Expr) : exprsParts es = es.flatMap Expr.parts := by
  induction es with
  | nil => rfl
  | cons e es ih => rw [exprsParts, ih, List.flatMap_cons]

theorem joinsParts_eq (js : List Join) : joinsParts js = (js.flatMap Join.on).flatMap Expr.parts := by
  induction js with
  | nil => rfl
  | cons j js ih =>
    cases j
    rw [joinsParts, ih, Join.parts, exprsParts_eq, List.flatMap_cons, List.flatMap_append]

theorem itemsParts_eq (is : List OrderItem) :
    itemsParts is = (is.map OrderItem.expr).flatMap Expr.parts := by
  induction is with
  | nil => rfl
  | cons i is ih =>
    cases i
    rw [itemsParts, ih, OrderItem.parts, List.map_cons, List.flatMap_cons]

theorem Select.parts_eq (s : Select) : s.parts = s.exprs.flatMap Expr.parts := by
  cases s
  rw [parts, exprs]
  simp only [joinsParts_eq, exprsParts_eq, itemsParts_eq, List.flatMap_append]

/-! ## Well formed expressions -/

namespace Expr

/-- Whether an expression is a negation or a test, whose negation is not a new node. -/
def negatesInPlace (e : Expr) : Bool :=
  match e.node with
  | .not _ | .isNull _ _ | .inList _ _ _ | .exists _ _ => true
  | _ => false

/-- What the node of an expression says about its fields. -/
def Formed (e : Expr) : Prop :=
  match e.node with
  | .column _ => e.table.isSome
  | .literal value => value ≠ .null ∧ e.table = none
  | .null => e = .null
  | .parameter _ | .function _ _ | .subquery _ | .raw _ => e.table = none
  | .template _ args => e.table = args.findSome? Expr.table
  | .binary left _ right => e.table = (left.table <|> right.table)
  | .not operand => e = predicate operand.table e.node ∧ operand.negatesInPlace = false
  | .isNull operand _ | .inList operand _ _ => e = predicate operand.table e.node
  | .aggregate _ arg => e.table = arg.table
  | .exists _ _ => e = predicate none e.node
  | .map binding => e = .map binding

def WellFormed (e : Expr) : Prop := ∀ f ∈ e.parts, f.Formed

end Expr

def Select.WellFormed (s : Select) : Prop := ∀ e ∈ s.exprs, e.WellFormed

namespace Expr

variable {e left right : Expr} {es args : List Expr} {op : BinaryOp}

theorem wellFormed_iff : e.WellFormed ↔ e.Formed ∧ ∀ f ∈ e.node.parts, f.Formed := by
  rw [WellFormed, parts_eq, List.forall_mem_cons]

theorem WellFormed.formed (h : e.WellFormed) : e.Formed := (wellFormed_iff.mp h).1

theorem forall_exprsParts :
    (∀ f ∈ exprsParts es, f.Formed) ↔ ∀ e ∈ es, e.WellFormed := by
  rw [exprsParts_eq]
  simp only [List.mem_flatMap, WellFormed]
  grind

theorem forall_selectParts {s : Select} : (∀ f ∈ s.parts, f.Formed) ↔ s.WellFormed := by
  rw [Select.parts_eq, ← exprsParts_eq, forall_exprsParts, Select.WellFormed]

theorem wellFormed_of_leaf (h : e.Formed) (hparts : e.node.parts = []) : e.WellFormed :=
  wellFormed_iff.mpr ⟨h, by simp [hparts]⟩

theorem wellFormed_null : null.WellFormed := wellFormed_of_leaf rfl rfl

theorem wellFormed_literal (value : Value) : (literal value).WellFormed := by
  cases value with
  | null => exact wellFormed_null
  | _ => exact wellFormed_of_leaf ⟨nofun, rfl⟩ rfl

theorem wellFormed_column (table : TableRef) (name logicalType : String) :
    (column table name logicalType).WellFormed := wellFormed_of_leaf rfl rfl

theorem wellFormed_function (name logicalType : String) (h : ∀ a ∈ args, a.WellFormed) :
    (function name args logicalType).WellFormed :=
  wellFormed_iff.mpr ⟨rfl, forall_exprsParts.mpr h⟩

theorem wellFormed_template (text : String) (category : Category) (logicalType : String)
    (h : ∀ a ∈ args, a.WellFormed) : (template text args category logicalType).WellFormed :=
  wellFormed_iff.mpr ⟨rfl, forall_exprsParts.mpr h⟩

theorem WellFormed.binary (hl : left.WellFormed) (hr : right.WellFormed) (category : Category)
    (logicalType : String) : (left.binary op right category logicalType).WellFormed :=
  wellFormed_iff.mpr ⟨rfl, List.forall_mem_append.mpr ⟨hl, hr⟩⟩

theorem WellFormed.isNull (h : e.WellFormed) : e.isNull.WellFormed := wellFormed_iff.mpr ⟨rfl, h⟩

theorem WellFormed.inList (h : e.WellFormed) (hes : ∀ a ∈ es, a.WellFormed) :
    (e.inList es).WellFormed :=
  wellFormed_iff.mpr ⟨rfl, List.forall_mem_append.mpr ⟨h, forall_exprsParts.mpr hes⟩⟩

theorem wellFormed_subquery {query : Select} (h : query.WellFormed) (category : Category)
    (logicalType : String) : (subquery query category logicalType).WellFormed :=
  wellFormed_iff.mpr ⟨rfl, forall_selectParts.mpr h⟩

theorem wellFormed_existsIn {query : Select} (h : query.WellFormed) (negated : Bool) :
    (existsIn query negated).WellFormed :=
  wellFormed_iff.mpr ⟨rfl, forall_selectParts.mpr h⟩

theorem WellFormed.aggregate (h : e.WellFormed) (category : Category) (logicalType f : String) :
    WellFormed ⟨category, logicalType, e.table, .aggregate f e⟩ :=
  wellFormed_iff.mpr ⟨rfl, h⟩

/-- A test that is negated in place keeps the table of its operand, and a new negation is not over a test. -/
theorem WellFormed.negate (h : e.WellFormed) : e.negate.WellFormed := by
  have hformed := h.formed
  have hparts := (wellFormed_iff.mp h).2
  obtain ⟨category, logicalType, table, node⟩ := e
  cases node with
  | not operand => exact hparts
  | isNull operand negated =>
    have htable : table = operand.table := congrArg Expr.table hformed
    exact wellFormed_iff.mpr ⟨congrArg (predicate · _) htable, hparts⟩
  | inList operand list negated =>
    have htable : table = operand.table := congrArg Expr.table hformed
    exact wellFormed_iff.mpr ⟨congrArg (predicate · _) htable, hparts⟩
  | «exists» query negated =>
    have htable : table = none := congrArg Expr.table hformed
    exact wellFormed_iff.mpr ⟨congrArg (predicate · _) htable, hparts⟩
  | _ => exact wellFormed_iff.mpr ⟨⟨rfl, rfl⟩, h⟩

end Expr

/-! ## Statements -/

namespace Select

variable {s : Select} {e : Expr}

theorem fromTable_wellFormed (table : TableRef) : (fromTable table).WellFormed := by
  simp [WellFormed, exprs, fromTable]

theorem WellFormed.addCondition (h : s.WellFormed) (he : e.WellFormed) :
    (s.addCondition e).WellFormed := by
  simp only [WellFormed, exprs, Select.addCondition, List.mem_append, List.mem_singleton] at h ⊢
  grind

theorem WellFormed.select {i : Nat} {s' : Select} (h : s.WellFormed) (he : e.WellFormed)
    (hs : s.select e = .ok (i, s')) : s'.WellFormed := by
  cases (select_eq_ok_iff.mp hs).2 with
  | found => exact h
  | added =>
    simp only [WellFormed, exprs, List.mem_append, List.mem_singleton] at h ⊢
    grind

end Select

theorem MapBinding.entries_wellFormed (b : MapBinding) : b.entries.WellFormed :=
  (Select.fromTable_wellFormed _).addCondition
    ((Expr.wellFormed_column _ _ _).binary (Expr.wellFormed_column _ _ _) _ _)

/-! ## Comparisons -/

namespace Expr

variable {e left right : Expr} {es args : List Expr} {op : BinaryOp}

theorem mapIsEmpty_eq_ok : left.mapIsEmpty = .ok e ↔
    ∃ b, left.node = .map b ∧ e = existsIn b.entries true := by
  obtain ⟨category, logicalType, table, node⟩ := left
  cases node <;> simp [mapIsEmpty, mapBinding?, eq_comm]

/-- A map is compared with `NULL` only, as a test for entries. -/
theorem compareMap_eq_ok : left.compareMap op right = .ok e ↔ right.isNullLiteral ∧
    ∃ b, left.node = .map b ∧
      (op = .eq ∧ e = existsIn b.entries true ∨ op = .ne ∧ e = existsIn b.entries false) := by
  unfold compareMap
  by_cases hnull : right.isNullLiteral
  · rw [if_pos hnull]
    cases op with
    | eq => simp [hnull, mapIsEmpty_eq_ok]
    | ne =>
      simp only [hnull, Except.map_eq_ok, mapIsEmpty_eq_ok]
      constructor
      · rintro ⟨_, ⟨b, hb, rfl⟩, rfl⟩
        exact ⟨trivial, b, hb, .inr ⟨trivial, rfl⟩⟩
      · rintro ⟨-, b, hb, ⟨⟨⟩, -⟩ | ⟨-, rfl⟩⟩
        exact ⟨_, ⟨b, hb, rfl⟩, rfl⟩
    | _ => simp
  · simp [hnull]

/-- A value is compared with `NULL` as a test for it, and with other values if the categories agree. -/
theorem compareValues_eq_ok : left.compareValues op right = .ok e ↔
    (right.isNullLiteral ∧ (op = .eq ∧ e = left.isNull ∨ op = .ne ∧ e = left.isNotNull)) ∨
      (right.isNullLiteral = false ∧ left.comparable right ∧
        e = left.binary op right .boolean "bool") := by
  unfold compareValues
  by_cases hnull : right.isNullLiteral
  · rw [if_pos hnull]
    cases op <;> simp [hnull, @eq_comm _ e]
  · rw [if_neg hnull]
    split <;> simp_all [@eq_comm _ e]

theorem WellFormed.compareMap (h : left.compareMap op right = .ok e) : e.WellFormed := by
  obtain ⟨-, b, -, ⟨-, rfl⟩ | ⟨-, rfl⟩⟩ := compareMap_eq_ok.mp h
  · exact wellFormed_existsIn b.entries_wellFormed true
  · exact wellFormed_existsIn b.entries_wellFormed false

theorem WellFormed.compareValues (hl : left.WellFormed) (hr : right.WellFormed)
    (h : left.compareValues op right = .ok e) : e.WellFormed := by
  obtain ⟨-, ⟨-, rfl⟩ | ⟨-, rfl⟩⟩ | ⟨-, -, rfl⟩ := compareValues_eq_ok.mp h
  · exact hl.isNull
  · exact hl.isNull.negate
  · exact hl.binary hr _ _

theorem WellFormed.compare (hl : left.WellFormed) (hr : right.WellFormed)
    (h : left.compare op right = .ok e) : e.WellFormed := by
  unfold Expr.compare at h
  split at h
  · exact WellFormed.compareMap h
  · split at h
    · exact WellFormed.compareMap h
    · split at h
      · exact WellFormed.compareValues hr hl h
      · exact WellFormed.compareValues hl hr h

/-! ## Methods -/

theorem WellFormed.apply {o : Operation} (hargs : ∀ a ∈ args, a.WellFormed) (h : o.apply args = .ok e) :
    e.WellFormed := by
  unfold Operation.apply at h
  split at h
  · cases h
    exact wellFormed_template _ _ _ hargs
  · cases h

theorem WellFormed.operation {vendor : Vendor} {name : String} (hargs : ∀ a ∈ args, a.WellFormed)
    (h : operation vendor name args = .ok e) : e.WellFormed := by
  obtain ⟨o, -, h⟩ := Except.bind_eq_ok.mp h
  exact WellFormed.apply hargs h

theorem WellFormed.pattern {side : Affix} {vendor : Vendor} (h : left.WellFormed)
    (he : side.pattern vendor left = .ok e) : e.WellFormed := by
  unfold Affix.pattern at he
  split at he
  · cases he
    exact wellFormed_literal _
  · refine WellFormed.operation (fun a ha => ?_) he
    have hmem : a = left ∨ a = literal (.text "%") := by
      cases side <;> simpa [Affix.around, or_comm] using ha
    rcases hmem with rfl | rfl
    · exact h
    · exact wellFormed_literal _

theorem WellFormed.mapSize (h : left.mapSize = .ok e) : e.WellFormed := by
  unfold Expr.mapSize at h
  split at h
  · next b _ =>
    obtain ⟨⟨i, query⟩, hselect, rfl⟩ := Except.map_eq_ok.mp h
    have hcount : (raw "COUNT(*)" "i64").WellFormed := wellFormed_of_leaf rfl rfl
    exact wellFormed_subquery (b.entries_wellFormed.select hcount hselect) _ _
  · cases h

theorem WellFormed.mapContainsKey (hr : right.WellFormed) (h : left.mapContainsKey right = .ok e) :
    e.WellFormed := by
  unfold Expr.mapContainsKey at h
  split at h
  · next b _ =>
    obtain ⟨found, hfound, rfl⟩ := Except.map_eq_ok.mp h
    have hkey : found.WellFormed := (wellFormed_column _ _ _).compare hr hfound
    exact wellFormed_existsIn (b.entries_wellFormed.addCondition hkey) false
  · cases h

end Expr

namespace AggregateFunction

variable {f : AggregateFunction} {clause : Clause} {arg e : Expr}

def call (f : AggregateFunction) (arg : Expr) (result : Category × String) : Expr :=
  ⟨result.1, result.2, arg.table, .aggregate f.sql arg⟩

/-- An aggregate is its call, or else a query of the call over the table of the argument. -/
theorem applyIn_eq_ok : f.applyIn clause arg = .ok e ↔ ∃ result, f.resultType arg = .ok result ∧
    if clause.allowsAggregates then e = f.call arg result
    else ∃ table, arg.table = some table ∧ result.1 ≠ .map ∧
      e = .subquery { Select.fromTable table with projection := [f.call arg result] } result.1
        result.2 := by
  unfold applyIn
  rw [Except.bind_eq_ok]
  refine exists_congr fun ⟨category, logicalType⟩ => and_congr_right fun _ => ?_
  dsimp only
  by_cases hclause : clause.allowsAggregates
  · simp [hclause, call, pure, Except.pure, eq_comm]
  · rw [if_neg hclause, if_neg hclause]
    cases htable : arg.table with
    | none => simp
    | some table =>
      by_cases hmap : category = .map
      · simp [Select.select, hmap, bind, Except.bind]
      · simp [Select.select, Select.fromTable, hmap, call, htable, bind, Except.bind, pure, Except.pure,
          eq_comm]

end AggregateFunction

namespace Expr

variable {e left right : Expr} {es args : List Expr} {op : BinaryOp}

theorem WellFormed.applyIn {f : AggregateFunction} {clause : Clause} (h : left.WellFormed)
    (he : f.applyIn clause left = .ok e) : e.WellFormed := by
  obtain ⟨result, -, he⟩ := AggregateFunction.applyIn_eq_ok.mp he
  have hcall : (f.call left result).WellFormed := h.aggregate _ _ _
  split at he
  · exact he ▸ hcall
  · obtain ⟨table, -, -, rfl⟩ := he
    refine wellFormed_subquery (fun a ha => ?_) _ _
    have hmem : a = f.call left result := by simpa [Select.exprs, Select.fromTable] using ha
    exact hmem ▸ hcall

theorem WellFormed.applyTo {m : Method} {vendor : Vendor} (h : left.WellFormed)
    (hargs : ∀ a ∈ args, a.WellFormed) (he : m.applyTo vendor left args = .ok e) : e.WellFormed := by
  have hall : ∀ a ∈ left :: args, a.WellFormed := List.forall_mem_cons.mpr ⟨h, hargs⟩
  unfold Method.applyTo at he
  split at he
  · split at he
    · cases he
      exact wellFormed_template _ _ _ hall
    · cases he
  · obtain ⟨pattern, hpattern, rfl⟩ := Except.map_eq_ok.mp he
    exact h.binary (WellFormed.pattern (hargs _ List.mem_cons_self) hpattern) _ _
  · cases he
  · exact WellFormed.operation hall he
  · cases he
  · obtain ⟨found, hfound, he⟩ := Except.bind_eq_ok.mp he
    obtain ⟨b, -, rfl⟩ := mapIsEmpty_eq_ok.mp hfound
    split at he <;> cases he
    exact wellFormed_existsIn b.entries_wellFormed true
  · obtain ⟨found, hfound, he⟩ := Except.bind_eq_ok.mp he
    split at he <;> cases he
    exact WellFormed.mapSize hfound
  · exact WellFormed.mapContainsKey (hargs _ List.mem_cons_self) he
  · split at he <;> cases he
  · cases he

theorem WellFormed.call {m : Method} {ctx : Context} {receiver : Option Expr}
    (hreceiver : ∀ r, receiver = some r → r.WellFormed) (hargs : ∀ a ∈ args, a.WellFormed)
    (h : m.invoke ctx receiver args = .ok e) : e.WellFormed := by
  cases receiver with
  | some r => exact (hreceiver r rfl).applyTo hargs h
  | none =>
    change m.applyAlone ctx.clause args = .ok e at h
    unfold Method.applyAlone at h
    split at h
    · exact WellFormed.applyIn (hargs _ List.mem_cons_self) h
    all_goals cases h

/-! ## Building -/

/-- Expressions that are built by the functions that build nodes and those that call methods. Statements
are built by adding expressions to them. -/
inductive Built : Expr → Prop where
  | column (table : TableRef) (name logicalType : String) : Built (column table name logicalType)
  | literal (value : Value) : Built (literal value)
  | null : Built null
  | parameter (key : MappingKey) (column : Nat) (logicalType : String) :
    Built (parameter key column logicalType)
  | fixedParameter (key : MappingKey) (value : Value) : Built (fixedParameter key value)
  | raw (sql logicalType : String) : Built (raw sql logicalType)
  | function {args : List Expr} (name logicalType : String) :
    (∀ a ∈ args, Built a) → Built (function name args logicalType)
  | template {args : List Expr} (text : String) (category : Category) (logicalType : String) :
    (∀ a ∈ args, Built a) → Built (template text args category logicalType)
  | map (binding : MapBinding) : Built (map binding)
  | subquery {query : Select} (category : Category) (logicalType : String) :
    (∀ a ∈ query.exprs, Built a) → Built (subquery query category logicalType)
  | existsIn {query : Select} (negated : Bool) :
    (∀ a ∈ query.exprs, Built a) → Built (existsIn query negated)
  | compare {left right e : Expr} {op : BinaryOp} :
    Built left → Built right → left.compare op right = .ok e → Built e
  | like {left right : Expr} : Built left → Built right → Built (left.like right)
  | and {left right : Expr} : Built left → Built right → Built (left.and right)
  | or {left right : Expr} : Built left → Built right → Built (left.or right)
  | arithmetic {left right : Expr} (op : BinaryOp) :
    Built left → Built right → Built (left.arithmetic op right)
  | negate {e : Expr} : Built e → Built e.negate
  | isNull {e : Expr} : Built e → Built e.isNull
  | isNotNull {e : Expr} : Built e → Built e.isNotNull
  | inList {e : Expr} {list : List Expr} : Built e → (∀ a ∈ list, Built a) → Built (e.inList list)
  | operation {vendor : Vendor} {name : String} {args : List Expr} {e : Expr} :
    (∀ a ∈ args, Built a) → operation vendor name args = .ok e → Built e
  | invoke {receiver e : Expr} {ctx : Context} {method : String} {args : List Expr} :
    Built receiver → (∀ a ∈ args, Built a) → receiver.invoke ctx method args = .ok e → Built e
  | invokeStatic {e : Expr} {ctx : Context} {method : String} {args : List Expr} :
    (∀ a ∈ args, Built a) → invokeStatic ctx method args = .ok e → Built e
  | call {m : Method} {receiver : Option Expr} {e : Expr} {ctx : Context} {args : List Expr} :
    (∀ r, receiver = some r → Built r) → (∀ a ∈ args, Built a) →
      m.invoke ctx receiver args = .ok e → Built e

theorem Built.wellFormed (h : e.Built) : e.WellFormed := by
  induction h with
  | column table name logicalType => exact wellFormed_column table name logicalType
  | literal value => exact wellFormed_literal value
  | null => exact wellFormed_null
  | parameter | fixedParameter | raw | map => exact wellFormed_of_leaf rfl rfl
  | function name logicalType _ ih => exact wellFormed_function name logicalType ih
  | template text category logicalType _ ih => exact wellFormed_template text category logicalType ih
  | subquery category logicalType _ ih => exact wellFormed_subquery ih category logicalType
  | existsIn negated _ ih => exact wellFormed_existsIn ih negated
  | compare _ _ h ihl ihr => exact ihl.compare ihr h
  | like _ _ ihl ihr | and _ _ ihl ihr | or _ _ ihl ihr | arithmetic op _ _ ihl ihr =>
    exact ihl.binary ihr _ _
  | negate _ ih => exact ih.negate
  | isNull _ ih => exact ih.isNull
  | isNotNull _ ih => exact ih.isNull.negate
  | inList _ _ ih ihs => exact ih.inList ihs
  | operation _ h ih => exact WellFormed.operation ih h
  | invoke _ _ h ih ihs =>
    obtain ⟨m, -, h⟩ := Except.bind_eq_ok.mp h
    exact ih.applyTo ihs h
  | invokeStatic _ h ih =>
    obtain ⟨m, -, h⟩ := Except.bind_eq_ok.mp h
    exact WellFormed.call (fun r hr => by cases hr) ih h
  | call _ _ h ih ihs => exact WellFormed.call ih ihs h

end Expr

end ObjectSql
