import ObjectSql.Proofs.Expr.Construction

/-!
# Tables of aggregates

The query that an aggregate becomes is over the table that its argument carries. Operators, templates and tests
carry the tables of the columns that they read; functions carry none, and a test for membership carries that of
its operand only. An argument whose columns are of one table has its aggregate if it carries the table.
-/
namespace ObjectSql

/-! ## Reading columns -/

mutual

/-- The tables of the columns that an expression reads outside of queries. Those in the arguments of functions
and in the items of lists are `hidden` from the table that an expression carries. -/
def Expr.tablesRead (hidden : Bool) : Expr → List TableRef
  | ⟨_, _, table, node⟩ => node.tablesRead hidden table

def Node.tablesRead (hidden : Bool) (table : Option TableRef) : Node → List TableRef
  | .column _ => table.toList
  | .literal _ | .null | .parameter _ | .raw _ | .subquery _ | .exists _ _ => []
  | .function _ args => if hidden then exprsTables hidden args else []
  | .template _ args => exprsTables hidden args
  | .binary left _ right => left.tablesRead hidden ++ right.tablesRead hidden
  | .not operand | .isNull operand _ => operand.tablesRead hidden
  | .inList operand list _ =>
    operand.tablesRead hidden ++ if hidden then exprsTables hidden list else []
  | .aggregate _ arg => arg.tablesRead hidden
  | .map binding => [binding.owner]

def exprsTables (hidden : Bool) : List Expr → List TableRef
  | [] => []
  | e :: es => e.tablesRead hidden ++ exprsTables hidden es

end

/-! ## Carrying tables -/

mutual

/-- What is not hidden is read. -/
theorem Expr.tablesRead_subset : ∀ e : Expr, e.tablesRead false ⊆ e.tablesRead true
  | ⟨_, _, table, node⟩ => by
    rw [Expr.tablesRead, Expr.tablesRead]
    exact node.tablesRead_subset table

theorem Node.tablesRead_subset (table : Option TableRef) :
    ∀ n : Node, n.tablesRead false table ⊆ n.tablesRead true table
  | .column _ | .literal _ | .null | .parameter _ | .raw _ | .subquery _ | .exists _ _ | .map _ =>
    List.Subset.refl _
  | .function _ _ => List.nil_subset _
  | .template _ args => exprsTables_subset args
  | .binary left _ right =>
    List.append_subset.mpr ⟨List.Subset.trans left.tablesRead_subset (List.subset_append_left ..),
      List.Subset.trans right.tablesRead_subset (List.subset_append_right ..)⟩
  | .not operand | .isNull operand _ | .aggregate _ operand => operand.tablesRead_subset
  | .inList operand _ _ =>
    List.append_subset.mpr ⟨List.Subset.trans operand.tablesRead_subset (List.subset_append_left ..),
      List.nil_subset _⟩

theorem exprsTables_subset : ∀ es : List Expr, exprsTables false es ⊆ exprsTables true es
  | [] => List.Subset.refl _
  | e :: es =>
    List.append_subset.mpr ⟨List.Subset.trans e.tablesRead_subset (List.subset_append_left ..),
      List.Subset.trans (exprsTables_subset es) (List.subset_append_right ..)⟩

end

mutual

-- By induction on the expression: each node tells from which of its parts the table is taken, and those parts are
-- the ones whose columns are listed.
/-- A well formed expression carries the first table that is not hidden. -/
theorem Expr.WellFormed.table_eq : ∀ {e : Expr}, e.WellFormed → e.table = (e.tablesRead false).head?
  | ⟨_, _, table, .column _⟩, _ => by cases table <;> rfl
  | ⟨_, _, _, .literal _⟩, h => h.formed.2
  | ⟨_, _, _, .null⟩, h | ⟨_, _, _, .map _⟩, h => congrArg Expr.table h.formed
  | ⟨_, _, _, .parameter _⟩, h | ⟨_, _, _, .function _ _⟩, h | ⟨_, _, _, .subquery _⟩, h
  | ⟨_, _, _, .raw _⟩, h => h.formed
  | ⟨_, _, _, .exists _ _⟩, h => congrArg Expr.table h.formed
  | ⟨_, _, _, .template _ args⟩, h =>
    h.formed.trans (exprsTables_head (Expr.forall_exprsParts.mp (Expr.wellFormed_iff.mp h).2))
  | ⟨_, _, _, .binary left _ right⟩, h => by
    obtain ⟨hl, hr⟩ := List.forall_mem_append.mp (Expr.wellFormed_iff.mp h).2
    have hleft : left.table = (left.tablesRead false).head? := Expr.WellFormed.table_eq hl
    have hright : right.table = (right.tablesRead false).head? := Expr.WellFormed.table_eq hr
    rw [h.formed, Expr.tablesRead, Node.tablesRead, List.head?_append, hleft, hright]
    exact Option.orElse_eq_or
  | ⟨_, _, _, .not operand⟩, h => by
    have hoperand : operand.WellFormed := (Expr.wellFormed_iff.mp h).2
    exact (congrArg Expr.table h.formed.1).trans hoperand.table_eq
  | ⟨_, _, _, .isNull operand _⟩, h => by
    have hoperand : operand.WellFormed := (Expr.wellFormed_iff.mp h).2
    exact (congrArg Expr.table h.formed).trans hoperand.table_eq
  | ⟨_, _, _, .inList operand list _⟩, h => by
    have hoperand : operand.WellFormed :=
      fun f hf => (Expr.wellFormed_iff.mp h).2 f (List.mem_append_left _ hf)
    have htable : (operand.tablesRead false ++ []).head? = operand.table := by
      rw [List.append_nil, hoperand.table_eq]
    exact (congrArg Expr.table h.formed).trans htable.symm
  | ⟨_, _, _, .aggregate _ arg⟩, h => by
    have harg : arg.WellFormed := (Expr.wellFormed_iff.mp h).2
    exact h.formed.trans harg.table_eq

theorem exprsTables_head : ∀ {es : List Expr}, (∀ e ∈ es, e.WellFormed) →
    es.findSome? Expr.table = (exprsTables false es).head?
  | [], _ => rfl
  | e :: es, h => by
    obtain ⟨he, hes⟩ := List.forall_mem_cons.mp h
    rw [List.findSome?_cons, exprsTables, List.head?_append, ← he.table_eq, ← exprsTables_head hes]
    cases e.table <;> rfl

end

/-! ## Aggregates of arguments -/

namespace AggregateFunction

def methodName : AggregateFunction → String
  | count => "count"
  | sum => "sum"
  | avg => "avg"
  | min => "min"
  | max => "max"

/-- Whether an aggregate is for arguments of a category; there are no sums and averages but of numbers. -/
def Admits (f : AggregateFunction) (category : Category) : Prop :=
  (f = sum ∨ f = avg) → category = .numeric

variable {f : AggregateFunction} {e : Expr}

theorem invokeStatic_eq (f : AggregateFunction) (ctx : Context) (e : Expr) :
    Expr.invokeStatic ctx f.methodName [e] = f.applyIn ctx.clause e := by
  have hfind : Method.find ctx.profile.vendor none f.methodName = .ok (.aggregate f) := by
    cases ctx.profile.vendor <;> cases f <;> rfl
  rw [Expr.invokeStatic, hfind]
  rfl

theorem Admits.resultType (h : f.Admits e.category) (hmap : e.category ≠ .map) :
    ∃ result, f.resultType e = .ok result ∧ result.1 ≠ .map := by
  cases f with
  | count => exact ⟨_, rfl, nofun⟩
  | min | max => exact ⟨_, rfl, hmap⟩
  | sum =>
    have hnumeric := h (.inl rfl)
    exact ⟨_, if_pos hnumeric, nofun⟩
  | avg =>
    have hnumeric := h (.inr rfl)
    exact ⟨_, if_pos hnumeric, nofun⟩

theorem allowsAggregates_iff {clause : Clause} :
    clause.allowsAggregates ↔ clause = .projection ∨ clause = .having := by
  cases clause <;> simp [Clause.allowsAggregates]

/-- An aggregate is called in projections and after grouping. Elsewhere it is a query of the call over the
table of the argument, of the same type, exactly if a column of the argument is not hidden. -/
theorem invoke_iff_not_hidden {table : TableRef} (h : e.Built) (hmap : e.category ≠ .map)
    (hone : ∀ t ∈ e.tablesRead true, t = table) (hf : f.Admits e.category) :
    ∃ call : Expr, call.node = .aggregate f.sql e ∧
      f.resultType e = .ok (call.category, call.logicalType) ∧
      (∀ ctx : Context, ctx.clause = .projection ∨ ctx.clause = .having →
        Expr.invokeStatic ctx f.methodName [e] = .ok call) ∧
      ∀ ctx : Context, ¬(ctx.clause = .projection ∨ ctx.clause = .having) → ∀ r,
        Expr.invokeStatic ctx f.methodName [e] = .ok r ↔ e.tablesRead false ≠ [] ∧
          r = .subquery { Select.fromTable table with projection := [call] } call.category
            call.logicalType := by
  obtain ⟨result, hresult, hvalue⟩ := hf.resultType hmap
  have hhead := h.wellFormed.table_eq
  have hall : ∀ t, e.table = some t → t = table := fun t ht =>
    hone t (e.tablesRead_subset (List.mem_of_head? (hhead.symm.trans ht)))
  have hcarried : e.tablesRead false ≠ [] ↔ e.table = some table := by
    rw [hhead] at hall ⊢
    cases hread : e.tablesRead false with
    | nil => simp
    | cons t ts =>
      rw [hread] at hall
      simp [hall t rfl]
  refine ⟨f.call e result, rfl, hresult, fun ctx hclause => ?_, fun ctx hclause r => ?_⟩
  · rw [invokeStatic_eq, applyIn_eq_ok]
    exact ⟨result, hresult, by rw [if_pos (allowsAggregates_iff.mpr hclause)]⟩
  · rw [← allowsAggregates_iff] at hclause
    rw [invokeStatic_eq, applyIn_eq_ok, hcarried]
    simp only [if_neg hclause, hresult, Except.ok.injEq, exists_eq_left']
    constructor
    · rintro ⟨t, ht, -, hr⟩
      obtain rfl := hall t ht
      exact ⟨ht, hr⟩
    · rintro ⟨ht, hr⟩
      exact ⟨table, ht, hvalue, hr⟩

def amount : Expr := .column ⟨"ORDERS", "A0"⟩ "AMOUNT" "decimal"

theorem amount_built : amount.Built := .column _ _ _

/-- The largest amount is a query in a condition. -/
theorem invoke_iff_not_hidden_amount :
    let p := Profile.ofVendor .h2 Vendor.h2.defaultVersion
    (amount.Built ∧ amount.category ≠ .map ∧ (∀ t ∈ amount.tablesRead true, t = ⟨"ORDERS", "A0"⟩) ∧
      max.Admits amount.category) ∧
      ∃ call : Expr, call.node = .aggregate "MAX" amount ∧
        Expr.invokeStatic ⟨p, .where⟩ "max" [amount] =
          .ok (.subquery { Select.fromTable ⟨"ORDERS", "A0"⟩ with projection := [call] } .numeric
            "decimal") := by
  intro p
  have hmap : amount.category ≠ .map := by decide
  have hone : ∀ t ∈ amount.tablesRead true, t = ⟨"ORDERS", "A0"⟩ := fun t ht => List.mem_singleton.mp ht
  have hadmits : max.Admits amount.category := fun _ => rfl
  obtain ⟨call, hnode, hresult, -, hquery⟩ :=
    invoke_iff_not_hidden amount_built hmap hone hadmits
  have htype : (Category.numeric, "decimal") = (call.category, call.logicalType) :=
    Except.ok.inj hresult
  have hcall := (hquery ⟨p, .where⟩ (by simp) _).mpr ⟨List.cons_ne_nil _ _, rfl⟩
  simp only [Prod.mk.injEq] at htype
  rw [← htype.1, ← htype.2] at hcall
  exact ⟨⟨amount_built, hmap, hone, hadmits⟩, call, hnode, hcall⟩

/-- The largest size of an amount is no query in a condition, since a function hides the column that it reads. -/
theorem invoke_of_function_fails :
    let size : Expr := .function "ABS" [amount] "decimal"
    size.Built ∧ size.category = .numeric ∧ size.tablesRead true = [⟨"ORDERS", "A0"⟩] ∧
      Expr.invokeStatic ⟨.ofVendor .h2 Vendor.h2.defaultVersion, .where⟩ "max" [size] =
        .error (.invalidCall "MAX" .noSourceTable) := by
  refine ⟨.function _ _ ?_, rfl, rfl, rfl⟩
  simpa using amount_built

end AggregateFunction

end ObjectSql
