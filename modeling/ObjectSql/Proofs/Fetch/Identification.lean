import ObjectSql.Proofs.Fetch.Binding

/-!
# Statements that read one object

A compiled statement has a condition and a placeholder for every identity column of its class, so
what keeps it to one object is that there is such a column. Every accepted identity has one but an
application identity without members.
-/
namespace ObjectSql

namespace Catalog

variable {c : Catalog} {name : String}

theorem keyColumns_ne_nil {m : MemberMapping} {columns : List IdentityColumn}
    (h : keyColumns name m = .ok columns) : columns ≠ [] := by
  unfold keyColumns at h
  split at h
  · cases h
  · next hcolumns =>
    cases h
    simpa [List.isEmpty_iff] using hcolumns

/-- A key has columns as soon as it has a member. -/
theorem identityColumns_eq_nil_iff {columns : List IdentityColumn}
    (h : c.identityColumns name = .ok columns) :
    columns = [] ↔ c.identity name = .ok (.application []) := by
  obtain ⟨strategy, hstrategy, h⟩ := Except.bind_eq_ok.mp h
  rw [hstrategy]
  cases strategy with
  | surrogate column logicalType =>
    cases h
    simp
  | application members =>
    obtain ⟨lists, hlists, h⟩ := Except.bind_eq_ok.mp h
    cases h
    cases mapM_eq_ok hlists with
    | nil => simp
    | @cons number keys numbers lists hkeys _ =>
      obtain ⟨⟨depth, m⟩, -, hkeys⟩ := Except.bind_eq_ok.mp hkeys
      simp [keyColumns_ne_nil hkeys]

end Catalog

/-- The condition that a column of the primary table has its identity value, which is bound. -/
def CompiledFetch.Identifies (q : CompiledFetch) (x : IdentityColumn) : Prop :=
  Expr.columnEq q.query.table x.column x.logicalType (.parameter x.key x.position x.logicalType) ∈
      q.query.conditions ∧
    ∀ lock, .deferred x.key x.position ∈ (q.text lock).params

namespace FetchRequest

variable {c : Catalog} {p : Profile} {className : String} {fetch store : List Nat}
  {r : FetchRequest} {q : CompiledFetch}

/-- Both texts of a statement have the placeholders of its scope. -/
theorem Stages.text_params {s : FetchScope} {requested : List RequestedMember}
    {version : Option VersionMapping} {plan : FetchPlan} {d : FetchDraft}
    (h : r.Stages c p (.ofLists className fetch store) s requested version plan d)
    (hq : r.statement = some q) (lock : Bool) : (q.text lock).params = s.placeholders := by
  obtain ⟨d', hrestrict, rfl, hcompiled⟩ := h.restricted hq
  have hplaced : d'.Placed := (FetchDraft.restrict_steps (K := fun _ => True)
    (T := fun _ => True) hrestrict).placed h.planned.placed
  cases lock <;> exact (Select.toSql_params p _ d'.query).trans (hcompiled.params hplaced)

/-- A statement restricts every identity column of its class to a bound value. -/
theorem compile_identifies (hr : compile c p (.ofLists className fetch store) = .ok r)
    (hq : r.statement = some q) :
    ∃ columns, c.identityColumns className = .ok columns ∧ ∀ x ∈ columns, q.Identifies x := by
  obtain ⟨s, requested, version, plan, d, hstages⟩ := compile_stages hr
  obtain ⟨d', -, rfl, hcompiled⟩ := hstages.restricted hq
  obtain ⟨tenancy, deleted, hconditions, -, -⟩ := hcompiled.conditions
  refine ⟨s.identity, (FetchScope.ofKey_spec hstages.scope).identity, fun x hx => ⟨?_, ?_⟩⟩
  · change FetchDraft.identityCondition d'.query.table x ∈ d'.query.conditions
    rw [hconditions, List.append_assoc]
    exact List.mem_append_left _ (List.mem_map_of_mem hx)
  · intro lock
    rw [hstages.text_params hq, FetchScope.placeholders, List.append_assoc]
    exact List.mem_append_left _ (List.mem_map_of_mem hx)

/-- A statement restricts an identity column of the primary table to a bound value, unless the class
has an application identity without members. -/
theorem compile_identifies_iff (hr : compile c p (.ofLists className fetch store) = .ok r)
    (hq : r.statement = some q) :
    (∃ columns, c.identityColumns className = .ok columns ∧ ∃ x ∈ columns, q.Identifies x) ↔
      c.identity className ≠ .ok (.application []) := by
  obtain ⟨columns, hcolumns, hidentifies⟩ := compile_identifies hr hq
  rw [ne_eq, ← Catalog.identityColumns_eq_nil_iff hcolumns]
  constructor
  · rintro ⟨columns', hcolumns', x, hx, -⟩ rfl
    cases hcolumns.symm.trans hcolumns'
    cases hx
  · intro hne
    obtain ⟨x, hx⟩ := List.exists_mem_of_ne_nil columns hne
    exact ⟨columns, hcolumns, x, hx, hidentifies x hx⟩

def notes (identity : IdentityStrategy) : Catalog where
  classes := [
    { name := "Note", table := ⟨"NOTE", none, none, none, none⟩, superclass := none
      isAbstract := false, identity := some identity
      members := [⟨1, "text", ["TEXT"], "string", .scalar, none⟩] }]

theorem compile_identifies_iff_note :
    ∃ r q, compile (notes (.application [1])) (.ofVendor .mysql ⟨8, 0, 0⟩)
        (.ofLists "Note" [1] []) = .ok r ∧ r.statement = some q ∧
      q.Identifies ⟨some 1, 0, "TEXT", "string"⟩ := by
  have hcompiled : (compile (notes (.application [1])) (.ofVendor .mysql ⟨8, 0, 0⟩)
      (.ofLists "Note" [1] [])).toOption.any (·.statement.isSome) := by decide +kernel
  obtain ⟨r, hr, hstatement⟩ := Except.exists_of_any hcompiled
  obtain ⟨q, hq⟩ := Option.isSome_iff_exists.mp hstatement
  obtain ⟨columns, hcolumns, x, hx, hidentifies⟩ := (compile_identifies_iff hr hq).mpr (by
    rw [show (notes (.application [1])).identity "Note" = .ok (.application [1]) from rfl]
    simp)
  cases hcolumns
  obtain rfl := List.mem_singleton.mp hx
  exact ⟨r, q, hr, hq, hidentifies⟩

/-- A note whose key has no members is read from whatever row comes first. -/
theorem compile_unidentified :
    ∃ r q, compile (notes (.application [])) (.ofVendor .mysql ⟨8, 0, 0⟩)
        (.ofLists "Note" [1] []) = .ok r ∧ r.statement = some q ∧ q.query.conditions = [] ∧
      (q.text false).sql = "SELECT A0.TEXT FROM NOTE A0" ∧ ∀ x, ¬q.Identifies x := by
  have hcompiled : (compile (notes (.application [])) (.ofVendor .mysql ⟨8, 0, 0⟩)
      (.ofLists "Note" [1] [])).toOption.any fun r => r.statement.any fun q =>
        q.query.conditions.isEmpty && (q.text false).sql == "SELECT A0.TEXT FROM NOTE A0" := by
    decide +kernel
  obtain ⟨r, hr, hstatement⟩ := Except.exists_of_any hcompiled
  obtain ⟨q, hq, hbare⟩ := (Option.any_eq_true _ _).mp hstatement
  obtain ⟨hconditions, hsql⟩ := Bool.and_eq_true_iff.mp hbare
  have hnone : q.query.conditions = [] := List.isEmpty_iff.mp hconditions
  refine ⟨r, q, hr, hq, hnone, eq_of_beq hsql, fun x hx => ?_⟩
  have hcondition := hx.1
  rw [hnone] at hcondition
  cases hcondition

end FetchRequest

end ObjectSql
