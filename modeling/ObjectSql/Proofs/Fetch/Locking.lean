import ObjectSql.Proofs.Fetch.Binding
import ObjectSql.Proofs.Statement.Locking
import ObjectSql.Proofs.Statement.Occurrences

/-!
# Locked fetches

A fetch is compiled to two texts of one statement, of which one locks the row that it reads. Both have
the same placeholders, so the layout that has been recorded for one of them holds for the other.
-/
namespace ObjectSql

namespace FetchDraft

variable {s : FetchScope} {K : MappingKey → Prop} {T : String → Prop} {d d' : FetchDraft}

theorem Step.unbound (h : Step s K T d d') (hd : d.layout.layout.Unbound) :
    d'.layout.layout.Unbound := by
  cases h with
  | project _ h =>
    obtain ⟨es, types, rfl, -⟩ := project_cases h
    exact hd
  | setColumns => exact hd.setColumns _ _
  | joinChain | joinRelated | addChild | addCondition => exact hd

/-- No placeholder is noted before a statement is complete. -/
theorem Steps.unbound (h : Steps s K T d d') (hd : d.layout.layout.Unbound) :
    d'.layout.layout.Unbound := by
  induction h with
  | refl => exact hd
  | tail _ hstep ih => exact hstep.unbound ih

theorem IsPlanned.unbound {requested : List RequestedMember} {version : Option VersionMapping}
    {plan : FetchPlan} (h : d.IsPlanned s requested version plan) : d.layout.layout.Unbound := by
  obtain ⟨className, hsteps⟩ := h.steps (fun _ => True) fun _ _ _ _ => trivial
  exact hsteps.unbound fun _ he => nomatch he

end FetchDraft

/-- How both texts of a compiled fetch belong to its statement and to its layout. -/
structure CompiledFetch.IsOfProfile (q : CompiledFetch) (p : Profile) : Prop where
  text : ∀ lock, q.text lock = q.query.toSql p lock
  /-- Either text may be the one that is recorded. -/
  recorded : ∃ l : Layout, l.Unbound ∧
    ∀ lock, q.layout.layout = l.recordParameters (q.text lock).params
  placeholders : ∀ lock key,
    q.layout.layout.placeholders key = BoundParameter.positionsOf key (q.text lock).params

theorem FetchDraft.finish_isOfProfile {d : FetchDraft} (hd : d.Placed)
    (hunbound : d.layout.layout.Unbound) (p : Profile) : (d.finish p).IsOfProfile p := by
  have htext (lock : Bool) : (d.finish p).text lock = d.query.toSql p lock := by cases lock <;> rfl
  have hparams (lock : Bool) :
      ((d.finish p).text lock).params = (d.query.toSql p false).params := by
    rw [htext, Select.toSql_params, Select.toSql_params]
  refine ⟨htext, ⟨d.layout.layout, hunbound, fun lock => ?_⟩, fun lock key => ?_⟩
  · rw [hparams]
    rfl
  · rw [hparams]
    exact hunbound.placeholders_recordParameters hd.sorted _ key

/-- The texts of a statement for any profiles have the same parameters, and a lock adds its own words
to the text of the outermost statement and nothing else. So the layout of a compiled fetch places the
values of both of its texts. -/
theorem FetchRequest.variants_differ_by_lock :
    (∀ (s : Select) (p : Profile), s.LocksOnce p) ∧
      ∀ (c : Catalog) (p : Profile) (className : String) (fetch store : List Nat) (r : FetchRequest)
        (q : CompiledFetch), compile c p (.ofLists className fetch store) = .ok r →
        r.statement = some q → q.IsOfProfile p := by
  refine ⟨fun s p => s.locksOnce p, fun c p className fetch store r q hr hq => ?_⟩
  obtain ⟨s, requested, version, plan, d, hstages⟩ := compile_stages hr
  obtain ⟨d', hrestrict, rfl, -⟩ := hstages.restricted hq
  have hsteps := FetchDraft.restrict_steps (K := fun _ => True) (T := fun _ => True) hrestrict
  exact FetchDraft.finish_isOfProfile (hsteps.placed hstages.planned.placed)
    (hsteps.unbound hstages.planned.unbound) p

theorem FetchRequest.variants_differ_by_lock_entry :
    ∃ r q, compile ledger (Profile.ofVendor .sqlserver ⟨15, 0, 0⟩) (.ofLists "Entry" [3] []) =
      .ok r ∧ r.statement = some q ∧ q.IsOfProfile (Profile.ofVendor .sqlserver ⟨15, 0, 0⟩) ∧
      BoundParameter.positionsOf (.member 2) q.locked.params = [1, 2] := by
  have hcompiled : (compile ledger (Profile.ofVendor .sqlserver ⟨15, 0, 0⟩)
      (.ofLists "Entry" [3] [])).toOption.any fun r => r.statement.any fun q =>
        q.layout.layout.placeholders (.member 2) = [1, 2] := by decide +kernel
  obtain ⟨r, hr, hstatement⟩ := Except.exists_of_any hcompiled
  obtain ⟨q, hq, hplaces⟩ := (Option.any_eq_true _ _).mp hstatement
  have hprofile := variants_differ_by_lock.2 ledger _ "Entry" [3] [] r q hr hq
  exact ⟨r, q, hr, hq, hprofile, (hprofile.placeholders true _).symm.trans (by simpa using hplaces)⟩
end ObjectSql
