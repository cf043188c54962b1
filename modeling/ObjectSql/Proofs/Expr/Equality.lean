import ObjectSql.Expr.Equality

/-!
# Expressions that are the same as themselves

Sameness compares what an expression is made of, down to the values in it, and floats among them as numbers.
So an expression with a NaN is the same as no expression, and every other one is the same as itself.
-/
namespace ObjectSql

/-! ## The values in an expression -/

mutual

/-- The values in an expression and in its subqueries: those of literals, and those that parameters have. -/
def Expr.valuesBy (ofParameter : BoundParameter → List Value) : Expr → List Value
  | ⟨_, _, _, node⟩ => node.valuesBy ofParameter

def Node.valuesBy (ofParameter : BoundParameter → List Value) : Node → List Value
  | .column _ | .null | .raw _ | .map _ => []
  | .literal value => [value]
  | .parameter p => ofParameter p
  | .function _ args | .template _ args => exprsValuesBy ofParameter args
  | .binary left _ right => left.valuesBy ofParameter ++ right.valuesBy ofParameter
  | .not operand | .isNull operand _ => operand.valuesBy ofParameter
  | .inList operand list _ => operand.valuesBy ofParameter ++ exprsValuesBy ofParameter list
  | .aggregate _ arg => arg.valuesBy ofParameter
  | .subquery query | .exists query _ => query.valuesBy ofParameter

def Join.valuesBy (ofParameter : BoundParameter → List Value) : Join → List Value
  | ⟨_, _, on⟩ => exprsValuesBy ofParameter on

def OrderItem.valuesBy (ofParameter : BoundParameter → List Value) : OrderItem → List Value
  | ⟨expr, _, _⟩ => expr.valuesBy ofParameter

def Select.valuesBy (ofParameter : BoundParameter → List Value) : Select → List Value
  | ⟨_, joins, _, projection, conditions, groupBy, having, ordering, _, _, _⟩ =>
    joinsValuesBy ofParameter joins ++ exprsValuesBy ofParameter projection ++
      exprsValuesBy ofParameter conditions ++ exprsValuesBy ofParameter groupBy ++
      exprsValuesBy ofParameter having ++ itemsValuesBy ofParameter ordering

def exprsValuesBy (ofParameter : BoundParameter → List Value) : List Expr → List Value
  | [] => []
  | e :: es => e.valuesBy ofParameter ++ exprsValuesBy ofParameter es

def joinsValuesBy (ofParameter : BoundParameter → List Value) : List Join → List Value
  | [] => []
  | j :: js => j.valuesBy ofParameter ++ joinsValuesBy ofParameter js

def itemsValuesBy (ofParameter : BoundParameter → List Value) : List OrderItem → List Value
  | [] => []
  | i :: is => i.valuesBy ofParameter ++ itemsValuesBy ofParameter is

end

def BoundParameter.fixedValues (p : BoundParameter) : List Value := p.value.toList

namespace Expr

def literals (e : Expr) : List Value := e.valuesBy fun _ => []

/-- The literals in an expression, and the values that are fixed for its parameters. -/
def values (e : Expr) : List Value := e.valuesBy BoundParameter.fixedValues

def NanFree (e : Expr) : Prop := .float .nan ∉ e.values

end Expr

/-! ## Values -/

theorem Binary64.numericEq_self {x : Binary64} (h : .nan ≠ x) : x.numericEq x := by
  cases x <;> simp [numericEq] at h ⊢

theorem Value.same_self {v : Value} (h : .float .nan ≠ v) : v.same v := by
  cases v with
  | float x => exact Binary64.numericEq_self fun hx => h (congrArg Value.float hx)
  | _ => simp [same]

theorem Value.nan_ne_of_same {v w : Value} (h : v.same w) : .float .nan ≠ w := by
  rintro rfl
  cases v with
  | float x => cases x <;> cases h
  | _ => simp [same] at h

namespace BoundParameter

variable {p q : BoundParameter}

theorem same_self (h : .float .nan ∉ p.fixedValues) : p.same p := by
  obtain ⟨key, column, value⟩ := p
  cases value with
  | none => simp [same]
  | some v => simpa [same] using Value.same_self ((not_congr List.mem_singleton).mp h)

theorem nan_not_mem_of_same (h : p.same q) : .float .nan ∉ q.fixedValues := by
  obtain ⟨key, column, value⟩ := p
  obtain ⟨key', column', value'⟩ := q
  cases value <;> cases value' <;> simp [same] at h
  · exact List.not_mem_nil
  · exact (not_congr List.mem_singleton).mpr (Value.nan_ne_of_same h.2)

end BoundParameter

/-! ## Expressions without a NaN -/

mutual

theorem Expr.same_self_of : ∀ e : Expr, .float .nan ∉ e.valuesBy BoundParameter.fixedValues → e.same e
  | ⟨_, _, _, node⟩, h => by simpa [Expr.same] using node.same_self_of h

theorem Node.same_self_of : ∀ n : Node, .float .nan ∉ n.valuesBy BoundParameter.fixedValues → n.same n
  | .column _, _ | .null, _ | .raw _, _ | .map _, _ => by simp [Node.same]
  | .literal _, h => by simpa [Node.same] using Value.same_self ((not_congr List.mem_singleton).mp h)
  | .parameter _, h => by simpa [Node.same] using BoundParameter.same_self h
  | .function _ args, h | .template _ args, h => by simpa [Node.same] using sameExprs_self_of args h
  | .not operand, h | .isNull operand _, h | .aggregate _ operand, h => by
    simpa [Node.same] using operand.same_self_of h
  | .subquery query, h | .exists query _, h => by simpa [Node.same] using query.same_self_of h
  | .binary left _ right, h => by
    rw [Node.valuesBy, List.mem_append, not_or] at h
    simp [Node.same, left.same_self_of h.1, right.same_self_of h.2]
  | .inList operand list _, h => by
    rw [Node.valuesBy, List.mem_append, not_or] at h
    simp [Node.same, operand.same_self_of h.1, sameExprs_self_of list h.2]

theorem Join.same_self_of : ∀ j : Join, .float .nan ∉ j.valuesBy BoundParameter.fixedValues → j.same j
  | ⟨_, _, on⟩, h => by simpa [Join.same] using sameExprs_self_of on h

theorem OrderItem.same_self_of :
    ∀ i : OrderItem, .float .nan ∉ i.valuesBy BoundParameter.fixedValues → i.same i
  | ⟨expr, _, _⟩, h => by simpa [OrderItem.same] using expr.same_self_of h

theorem Select.same_self_of :
    ∀ s : Select, .float .nan ∉ s.valuesBy BoundParameter.fixedValues → s.same s
  | ⟨_, joins, _, projection, conditions, groupBy, having, ordering, _, _, _⟩, h => by
    simp only [Select.valuesBy, List.mem_append, not_or, and_assoc] at h
    obtain ⟨hjoins, hprojection, hconditions, hgroups, hhaving, hordering⟩ := h
    simp [Select.same, sameJoins_self_of joins hjoins, sameExprs_self_of projection hprojection,
      sameExprs_self_of conditions hconditions, sameExprs_self_of groupBy hgroups,
      sameExprs_self_of having hhaving, sameItems_self_of ordering hordering]

theorem sameExprs_self_of :
    ∀ es : List Expr, .float .nan ∉ exprsValuesBy BoundParameter.fixedValues es → sameExprs es es
  | [], _ => by simp [sameExprs]
  | e :: es, h => by
    rw [exprsValuesBy, List.mem_append, not_or] at h
    simp [sameExprs, e.same_self_of h.1, sameExprs_self_of es h.2]

theorem sameJoins_self_of :
    ∀ js : List Join, .float .nan ∉ joinsValuesBy BoundParameter.fixedValues js → sameJoins js js
  | [], _ => by simp [sameJoins]
  | j :: js, h => by
    rw [joinsValuesBy, List.mem_append, not_or] at h
    simp [sameJoins, j.same_self_of h.1, sameJoins_self_of js h.2]

theorem sameItems_self_of :
    ∀ is : List OrderItem, .float .nan ∉ itemsValuesBy BoundParameter.fixedValues is → sameItems is is
  | [], _ => by simp [sameItems]
  | i :: is, h => by
    rw [itemsValuesBy, List.mem_append, not_or] at h
    simp [sameItems, i.same_self_of h.1, sameItems_self_of is h.2]

end

/-! ## Expressions with a NaN -/

-- The second node splits the cases: a first node with another constructor is not the same.
mutual

theorem Expr.nan_not_mem_of_same :
    ∀ e f : Expr, e.same f → .float .nan ∉ f.valuesBy BoundParameter.fixedValues
  | ⟨_, _, _, n⟩, ⟨_, _, _, m⟩, h => by
    rw [Expr.same, Bool.and_eq_true] at h
    exact n.nan_not_mem_of_same m h.2
termination_by structural _ f => f

theorem Node.nan_not_mem_of_same :
    ∀ n m : Node, n.same m → .float .nan ∉ m.valuesBy BoundParameter.fixedValues
  | _, .column _, _ | _, .null, _ | _, .raw _, _ | _, .map _, _ => by simp [Node.valuesBy]
  | n, .literal w, h => by
    cases n <;> simp [Node.same] at h
    exact (not_congr List.mem_singleton).mpr (Value.nan_ne_of_same h)
  | n, .parameter q, h => by
    cases n <;> simp [Node.same] at h
    exact BoundParameter.nan_not_mem_of_same h
  | n, .function _ args, h | n, .template _ args, h => by
    cases n <;> simp [Node.same] at h
    exact nan_not_mem_of_sameExprs _ args h.2
  | n, .not operand, h => by
    cases n <;> simp [Node.same] at h
    exact Expr.nan_not_mem_of_same _ operand h
  | n, .isNull operand _, h => by
    cases n <;> simp [Node.same] at h
    exact Expr.nan_not_mem_of_same _ operand h.1
  | n, .aggregate _ operand, h => by
    cases n <;> simp [Node.same] at h
    exact Expr.nan_not_mem_of_same _ operand h.2
  | n, .subquery query, h => by
    cases n <;> simp [Node.same] at h
    exact Select.nan_not_mem_of_same _ query h
  | n, .exists query _, h => by
    cases n <;> simp [Node.same] at h
    exact Select.nan_not_mem_of_same _ query h.1
  | n, .binary left _ right, h => by
    cases n <;> simp [Node.same] at h
    rw [Node.valuesBy, List.mem_append, not_or]
    exact ⟨Expr.nan_not_mem_of_same _ left h.1.1, Expr.nan_not_mem_of_same _ right h.2⟩
  | n, .inList operand list _, h => by
    cases n <;> simp [Node.same] at h
    rw [Node.valuesBy, List.mem_append, not_or]
    exact ⟨Expr.nan_not_mem_of_same _ operand h.1.1, nan_not_mem_of_sameExprs _ list h.1.2⟩
termination_by structural _ m => m

theorem Join.nan_not_mem_of_same :
    ∀ j k : Join, j.same k → .float .nan ∉ k.valuesBy BoundParameter.fixedValues
  | ⟨_, _, on⟩, ⟨_, _, on'⟩, h => by
    rw [Join.same, Bool.and_eq_true] at h
    exact nan_not_mem_of_sameExprs on on' h.2
termination_by structural _ k => k

theorem OrderItem.nan_not_mem_of_same :
    ∀ i j : OrderItem, i.same j → .float .nan ∉ j.valuesBy BoundParameter.fixedValues
  | ⟨expr, _, _⟩, ⟨expr', _, _⟩, h => by
    simp only [OrderItem.same, Bool.and_eq_true] at h
    exact expr.nan_not_mem_of_same expr' h.1.1
termination_by structural _ j => j

theorem Select.nan_not_mem_of_same :
    ∀ s t : Select, s.same t → .float .nan ∉ t.valuesBy BoundParameter.fixedValues
  | ⟨_, joins, _, projection, conditions, groupBy, having, ordering, _, _, _⟩,
    ⟨_, joins', _, projection', conditions', groupBy', having', ordering', _, _, _⟩, h => by
    simp only [Select.same, Bool.and_eq_true, and_assoc] at h
    obtain ⟨-, hjoins, -, hprojection, hconditions, hgroups, hhaving, hordering, -⟩ := h
    simp [Select.valuesBy, nan_not_mem_of_sameJoins joins joins' hjoins,
      nan_not_mem_of_sameExprs projection projection' hprojection,
      nan_not_mem_of_sameExprs conditions conditions' hconditions,
      nan_not_mem_of_sameExprs groupBy groupBy' hgroups,
      nan_not_mem_of_sameExprs having having' hhaving,
      nan_not_mem_of_sameItems ordering ordering' hordering]
termination_by structural _ t => t

theorem nan_not_mem_of_sameExprs :
    ∀ es fs : List Expr, sameExprs es fs → .float .nan ∉ exprsValuesBy BoundParameter.fixedValues fs
  | _, [], _ => List.not_mem_nil
  | [], _ :: _, h => by simp [sameExprs] at h
  | e :: es, f :: fs, h => by
    rw [sameExprs, Bool.and_eq_true] at h
    rw [exprsValuesBy, List.mem_append, not_or]
    exact ⟨e.nan_not_mem_of_same f h.1, nan_not_mem_of_sameExprs es fs h.2⟩
termination_by structural _ fs => fs

theorem nan_not_mem_of_sameJoins :
    ∀ js ks : List Join, sameJoins js ks → .float .nan ∉ joinsValuesBy BoundParameter.fixedValues ks
  | _, [], _ => List.not_mem_nil
  | [], _ :: _, h => by simp [sameJoins] at h
  | j :: js, k :: ks, h => by
    rw [sameJoins, Bool.and_eq_true] at h
    rw [joinsValuesBy, List.mem_append, not_or]
    exact ⟨j.nan_not_mem_of_same k h.1, nan_not_mem_of_sameJoins js ks h.2⟩
termination_by structural _ ks => ks

theorem nan_not_mem_of_sameItems :
    ∀ is js : List OrderItem, sameItems is js →
      .float .nan ∉ itemsValuesBy BoundParameter.fixedValues js
  | _, [], _ => List.not_mem_nil
  | [], _ :: _, h => by simp [sameItems] at h
  | i :: is, j :: js, h => by
    rw [sameItems, Bool.and_eq_true] at h
    rw [itemsValuesBy, List.mem_append, not_or]
    exact ⟨i.nan_not_mem_of_same j h.1, nan_not_mem_of_sameItems is js h.2⟩
termination_by structural _ js => js

end

namespace Expr

theorem NanFree.same_self {e : Expr} (h : e.NanFree) : e.same e := e.same_self_of h

theorem NanFree.of_same {e f : Expr} (h : e.same f) : f.NanFree := e.nan_not_mem_of_same f h

end Expr

end ObjectSql
