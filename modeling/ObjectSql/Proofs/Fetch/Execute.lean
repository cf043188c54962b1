import Mathlib.Data.List.Count
import ObjectSql.Fetch.Compile
import ObjectSql.Fetch.Execute
import ObjectSql.Proofs.Except

/-!
# How a fetch uses its connection and its object

What a run leaves behind tells how it went. The statement runs on one connection, which is returned
before the object is written to; a fetch that fails before it has a row leaves the object alone. What
fails after the row is there is a fault of metadata, or the object reports it by the load that the run
ends with. So any other error tells what the datastore answered.
-/
namespace ObjectSql

/-! ## Faults of metadata -/

/-- Whether nothing fails but for a fault of metadata. -/
def OnlyFaults {α : Type} (x : Except FetchError α) : Prop :=
  ∀ e, x = .error e → ∃ fault, e = .metadata fault

namespace OnlyFaults

variable {α β : Type} {x : Except FetchError α} {f : α → Except FetchError β}

theorem ok (a : α) : OnlyFaults (.ok a) := by
  intro e h
  cases h

theorem error (fault : MetadataFault) : OnlyFaults (.error (.metadata fault) : Except FetchError α) := by
  intro e h
  cases h
  exact ⟨fault, rfl⟩

theorem bind (hx : OnlyFaults x) (hf : ∀ a, OnlyFaults (f a)) : OnlyFaults (x >>= f) := by
  intro e h
  cases x with
  | error e' =>
    cases h
    exact hx e rfl
  | ok a => exact hf a e h

theorem map (hx : OnlyFaults x) (g : α → β) : OnlyFaults (x.map g) := by
  intro e h
  cases x with
  | error e' =>
    cases h
    exact hx e rfl
  | ok a => cases h

theorem mapM {as : List α} (hf : ∀ a, OnlyFaults (f a)) : OnlyFaults (as.mapM f) := by
  induction as with
  | nil => exact ok []
  | cons a as ih =>
    rw [List.mapM_cons]
    exact bind (hf a) fun b => bind ih fun bs => ok (b :: bs)

end OnlyFaults

section

variable (row : List Value)

theorem readAt_onlyFaults (position : Nat) : OnlyFaults (readAt row position) := by
  unfold readAt
  split
  · exact .ok _
  · exact .error _

theorem readAll_onlyFaults (positions : List Nat) : OnlyFaults (readAll row positions) :=
  .mapM (readAt_onlyFaults row)

theorem readFirst_onlyFaults (positions : List Nat) : OnlyFaults (readFirst row positions) := by
  unfold readFirst
  split
  · exact .error _
  · exact readAt_onlyFaults row _

theorem readIdentity_onlyFaults (l : Layout) (keys : List MappingKey) (surrogate : Bool) :
    OnlyFaults (readIdentity row l keys surrogate) :=
  .map (.mapM fun key => readAll_onlyFaults row (l.positions key)) _

theorem readRelated_onlyFaults (child : ClassLayout) (target : String) (identity : IdentityValue)
    (keys : List MappingKey) : OnlyFaults (readRelated row child target identity keys) := by
  have hfields (n : Nat) : OnlyFaults
      ((readFirst row (child.layout.positions (.member n))).map fun v => (n, v)) :=
    .map (readFirst_onlyFaults row _) _
  refine .bind ?_ fun discriminator => .bind (.mapM hfields) fun fields => .ok _
  cases child.layout.find? .discriminator with
  | none => exact .ok none
  | some m => exact .map (readFirst_onlyFaults row m.columns) some

theorem FieldPlan.read_onlyFaults (plan : FieldPlan) (className : String) (c : ClassLayout) :
    OnlyFaults (plan.read className c row) := by
  cases plan with
  | scalar m => exact .map (readFirst_onlyFaults row _) _
  | reference m target surrogate => exact .map (readIdentity_onlyFaults row _ _ _) _
  | object m target surrogate keys =>
    unfold read
    dsimp only
    split
    · exact .error _
    · next child _ =>
      refine .bind (readIdentity_onlyFaults row _ _ _) fun id => ?_
      cases id with
      | none => exact .ok _
      | some id => exact .map (readRelated_onlyFaults row child target id keys) _

theorem StorePlan.read_onlyFaults (plan : StorePlan) (l : Layout) :
    OnlyFaults (plan.read l row) := .map (readIdentity_onlyFaults row _ _ _) _

end

theorem FetchRequest.bindAll_onlyFaults (r : FetchRequest) (text : SqlText) (identity : List Value)
    (tenant : Option String) : OnlyFaults (r.bindAll text identity tenant) := by
  refine .mapM fun p => ?_
  unfold bindParameter
  split
  · exact .ok _
  · split
    · split
      · exact .ok _
      · exact .error _
    · split
      · exact .error _
      · split
        · exact .ok _
        · exact .error _

/-! ## Writing to the object -/

namespace FetchEvent

@[simp]
def writes : FetchEvent → Bool
  | setVersion _ | replaceField _ _ | storeReference _ _ | loadDeferred _ => true
  | lockMode _ | acquire | query _ _ _ | release => false

@[simp]
def connects : FetchEvent → Bool
  | acquire | query _ _ _ | release => true
  | _ => false

theorem not_connects_of_writes {e : FetchEvent} (h : e.writes) : ¬e.connects := by
  cases e <;> simp_all

end FetchEvent

namespace FetchedObject

/-- Whether an object reports an error by the load that a run ends with. -/
def Reports (o : FetchedObject) (events : List FetchEvent) (e : FetchError) : Prop :=
  ∃ n, events.getLast? = some (.loadDeferred n) ∧ o.loadDeferred n = .error e

variable {o : FetchedObject} {before after : List FetchEvent} {e : FetchError}

theorem not_reports_nil : ¬o.Reports [] e := by
  rintro ⟨n, hlast, -⟩
  cases hlast

theorem not_reports (h : ∀ x ∈ before, ¬x.writes) : ¬o.Reports before e := by
  rintro ⟨n, hlast, -⟩
  exact h _ (List.mem_of_getLast? hlast) rfl

/-- What has been done before without a report does not matter. -/
theorem reports_append (h : ¬o.Reports before e) :
    o.Reports (before ++ after) e ↔ o.Reports after e := by
  rcases List.eq_nil_or_concat after with rfl | ⟨after, x, rfl⟩
  · rw [List.append_nil]
    exact iff_of_false h not_reports_nil
  · simp only [Reports, List.concat_eq_append, ← List.append_assoc, List.getLast?_concat]

end FetchedObject

namespace FetchRun

/-- Whether a run does nothing but write to an object. It fails by a fault of metadata, or with what the
object reports. -/
structure WritesOnly {α : Type} (o : FetchedObject) (run : FetchRun α) : Prop where
  events : ∀ e ∈ run.events, e.writes
  fails : ∀ e, run.result = .error e → (∃ fault, e = .metadata fault) ∨ o.Reports run.events e
  reports : ∀ e, o.Reports run.events e → run.result = .error e

namespace WritesOnly

variable {α β : Type} {o : FetchedObject} {run : FetchRun α} {e : FetchError}

theorem ofExcept {x : Except FetchError α} (h : OnlyFaults x) :
    (FetchRun.ofExcept x).WritesOnly o where
  events := by simp [FetchRun.ofExcept]
  fails e he := .inl (h e he)
  reports _ h := absurd h FetchedObject.not_reports_nil

theorem done (a : α) : (FetchRun.done a).WritesOnly o := ofExcept (.ok a)

theorem emit {event : FetchEvent} (h : event.writes) (hload : ∀ n, event ≠ .loadDeferred n) :
    (FetchRun.emit event).WritesOnly o where
  events := by simpa [FetchRun.emit] using h
  fails _ he := nomatch he
  reports _ h := by
    obtain ⟨n, hlast, -⟩ := h
    exact absurd (Option.some.inj hlast) (hload n)

theorem load (o : FetchedObject) (n : Nat) :
    (⟨[.loadDeferred n], o.loadDeferred n⟩ : FetchRun Unit).WritesOnly o where
  events := by simp
  fails _ he := .inr ⟨n, rfl, he⟩
  reports _ h := by
    obtain ⟨n', hlast, he⟩ := h
    cases hlast
    exact he

theorem bind {next : α → FetchRun β} (hrun : run.WritesOnly o)
    (hnext : ∀ a, (next a).WritesOnly o) : (run >>= next).WritesOnly o := by
  obtain ⟨events, result⟩ := run
  cases result with
  | error e =>
    refine ⟨hrun.events, fun e' he => ?_, fun e' he => ?_⟩
    · cases he
      exact hrun.fails e rfl
    · cases hrun.reports e' he
      rfl
  | ok a =>
    have hreports (e : FetchError) :
        o.Reports (events ++ (next a).events) e ↔ o.Reports (next a).events e :=
      FetchedObject.reports_append fun h => nomatch hrun.reports e h
    refine ⟨fun e he => ?_, fun e he => ?_, fun e he => ?_⟩
    · rcases List.mem_append.mp he with he | he
      · exact hrun.events e he
      · exact (hnext a).events e he
    · exact ((hnext a).fails e he).imp_right (hreports e).mpr
    · exact (hnext a).reports e ((hreports e).mp he)

theorem error_iff (h : run.WritesOnly o) (he : ∀ fault, e ≠ .metadata fault) :
    run.result = .error e ↔ o.Reports run.events e :=
  ⟨fun hfails => (h.fails e hfails).resolve_left fun ⟨fault, hfault⟩ => he fault hfault,
    h.reports e⟩

theorem forEach {step : α → FetchRun Unit} (h : ∀ a, (step a).WritesOnly o) (as : List α) :
    (FetchRun.forEach step as).WritesOnly o := by
  induction as with
  | nil => exact done ()
  | cons a as ih => exact bind (h a) fun _ => ih

end WritesOnly

end FetchRun

namespace FetchRequest

open FetchRun

variable (r : FetchRequest)

section

variable (o : FetchedObject)

theorem loadDeferred_writesOnly : (r.loadDeferred o).WritesOnly o := .forEach (.load o) _

theorem applyVersion_writesOnly (c : CompiledFetch) (row : List Value) :
    (r.applyVersion c row).WritesOnly o := by
  unfold applyVersion
  split
  · exact .done ()
  · next m _ =>
    refine .bind (.ofExcept (readFirst_onlyFaults row m.columns)) fun v =>
      .bind (.emit rfl (by simp)) fun _ => ?_
    split
    · exact .done ()
    · exact .emit rfl (by simp)

theorem applyRow_writesOnly (c : CompiledFetch) (row : List Value) :
    (r.applyRow c row).WritesOnly o := by
  refine .bind (r.applyVersion_writesOnly o c row) fun _ => .bind ?_ fun _ => ?_
  · exact .forEach (fun plan =>
      .bind (.ofExcept (plan.read_onlyFaults row r.className c.layout)) fun _ =>
        .emit rfl (by simp)) _
  · exact .forEach (fun plan =>
      .bind (.ofExcept (plan.read_onlyFaults row c.layout.layout)) fun _ => .emit rfl (by simp)) _

end

/-! ## The ways in which a fetch ends -/

variable (env : FetchEnvironment) (o : FetchedObject)

/-- The binding of the placeholders of a statement, if it comes to that. -/
def Binds (c : CompiledFetch) (bound : Except FetchError (List Value)) : Prop :=
  r.statement = some c ∧ ¬(r.isVersionOnly ∧ o.cachedVersion.isSome) ∧
    r.bindAll (c.text (env.locks o.identity)) o.identity env.tenant = bound

/-- What follows an answer of the datastore to a statement. -/
inductive Follows : Except DatastoreError (Option (List Value)) → List FetchEvent →
    Except FetchError FetchOutcome → Prop where
  | failed (e : DatastoreError) : Follows (.error e) [] (.error (classify env.profile e))
  | absent : Follows (.ok none) [] (.error (.notFound r.className o.identity))
  | applied {row : List Value} {run : FetchRun FetchOutcome} (hwrites : run.WritesOnly o) :
    Follows (.ok (some row)) run.events run.result

/-- What has happened in the end, and what has come of it. -/
inductive Ends : List FetchEvent → Except FetchError FetchOutcome → Prop where
  | unasked {run : FetchRun FetchOutcome} (hbinds : ∀ c bound, ¬r.Binds env o c bound)
    (hwrites : run.WritesOnly o) (hidle : r.statement = none ∨ run.events = []) :
    Ends run.events run.result
  | unbound {c : CompiledFetch} {e : FetchError} (hbinds : r.Binds env o c (.error e)) :
    Ends [.lockMode o.identity] (.error e)
  | refused {c : CompiledFetch} {params : List Value} {e : DatastoreError}
    (hbinds : r.Binds env o c (.ok params)) (hfault : env.acquireFault = some e) :
    Ends [.lockMode o.identity, .acquire] (.error (classify env.profile e))
  | answered {c : CompiledFetch} {params : List Value} {sql : String} {events : List FetchEvent}
    {result : Except FetchError FetchOutcome} (hbinds : r.Binds env o c (.ok params))
    (hfault : env.acquireFault = none)
    (hfollows : r.Follows env o (env.query sql params c.resultTypes) events result) :
    Ends (.lockMode o.identity :: .acquire :: .query sql params c.resultTypes :: .release :: events)
      result

section

variable {c : CompiledFetch} {identity params : List Value}

theorem queryRow_unbound {e : FetchError}
    (hbind : r.bindAll (c.text (env.locks identity)) identity env.tenant = .error e) :
    r.queryRow c env identity = ⟨[.lockMode identity], .error e⟩ := by
  unfold queryRow
  dsimp only
  rw [hbind]
  rfl

theorem queryRow_refused {e : DatastoreError}
    (hbind : r.bindAll (c.text (env.locks identity)) identity env.tenant = .ok params)
    (hfault : env.acquireFault = some e) : r.queryRow c env identity =
      ⟨[.lockMode identity, .acquire], .error (classify env.profile e)⟩ := by
  unfold queryRow
  dsimp only
  rw [hbind, hfault]
  rfl

/-- The connection is released before it is told what the datastore has answered. -/
theorem queryRow_answered
    (hbind : r.bindAll (c.text (env.locks identity)) identity env.tenant = .ok params)
    (hfault : env.acquireFault = none) : r.queryRow c env identity =
      ⟨[.lockMode identity, .acquire,
          .query (c.text (env.locks identity)).sql params c.resultTypes, .release],
        match env.query (c.text (env.locks identity)).sql params c.resultTypes with
        | .error e => .error (classify env.profile e)
        | .ok none => .error (.notFound r.className identity)
        | .ok (some row) => .ok row⟩ := by
  simp only [queryRow, bind, andThen, emit, FetchRun.ofExcept, hbind, hfault]
  rcases env.query (c.text (env.locks identity)).sql params c.resultTypes with e | _ | row <;> rfl

end

theorem execute_ends : r.Ends env o (r.execute env o).events (r.execute env o).result := by
  unfold execute
  split
  · next hnone =>
    refine .unasked (fun c bound h => ?_)
      (.bind (r.loadDeferred_writesOnly o) fun _ => .done _) (.inl hnone)
    cases hnone.symm.trans h.1
  · next c hsome =>
    split
    · next hcached =>
      exact .unasked (fun c bound h => h.2.1 (by simpa using hcached)) (.done _) (.inr rfl)
    · next hcached =>
      have hcached : ¬(r.isVersionOnly ∧ o.cachedVersion.isSome) := by simpa using hcached
      cases hbind : r.bindAll (c.text (env.locks o.identity)) o.identity env.tenant with
      | error e =>
        rw [r.queryRow_unbound env hbind]
        exact .unbound ⟨hsome, hcached, hbind⟩
      | ok params =>
        have hbinds : r.Binds env o c (.ok params) := ⟨hsome, hcached, hbind⟩
        cases hfault : env.acquireFault with
        | some e =>
          rw [r.queryRow_refused env hbind hfault]
          exact .refused hbinds hfault
        | none =>
          have hends {events : List FetchEvent} {result : Except FetchError FetchOutcome}
              (h : r.Follows env o
                (env.query (c.text (env.locks o.identity)).sql params c.resultTypes) events
                result) := Ends.answered hbinds hfault h
          rw [r.queryRow_answered env hbind hfault]
          rcases hreply : env.query (c.text (env.locks o.identity)).sql params c.resultTypes with
            e | _ | row
          all_goals rw [hreply] at hends
          · exact hends (.failed e)
          · exact hends .absent
          · have happlied : (do
                r.applyRow c row
                r.loadDeferred o
                done FetchOutcome.loaded).WritesOnly o :=
              .bind (r.applyRow_writesOnly o c row) fun _ =>
                .bind (r.loadDeferred_writesOnly o) fun _ => .done _
            exact hends (.applied happlied)

/-! ## What the events tell -/

/-- An answer of the datastore: why there is no connection, or what a statement is answered. -/
def Replied (events : List FetchEvent) (reply : Except DatastoreError (Option (List Value))) : Prop :=
  (.acquire ∈ events ∧ ∃ e, env.acquireFault = some e ∧ reply = .error e) ∨
    ∃ sql params types, .query sql params types ∈ events ∧ reply = env.query sql params types

def failure? : Except DatastoreError (Option (List Value)) → Option FetchError
  | .error e => some (classify env.profile e)
  | .ok none => some (.notFound r.className o.identity)
  | .ok (some _) => none

section

variable {r env o} {events : List FetchEvent} {result : Except FetchError FetchOutcome}
  {reply : Except DatastoreError (Option (List Value))}

theorem Binds.unique {c c' : CompiledFetch} {bound bound' : Except FetchError (List Value)}
    (h : r.Binds env o c bound) (h' : r.Binds env o c' bound') : bound = bound' := by
  obtain ⟨hstatement, -, rfl⟩ := h
  obtain ⟨hstatement', -, rfl⟩ := h'
  cases hstatement.symm.trans hstatement'
  rfl

theorem not_mem_of_writes (h : ∀ e ∈ events, e.writes) {event : FetchEvent} (hconnects : event.connects) :
    event ∉ events := fun hmem => FetchEvent.not_connects_of_writes (h event hmem) hconnects

theorem not_replied (h : ∀ e ∈ events, ¬e.connects) : ¬Replied env events reply := by
  rintro (⟨hmem, -⟩ | ⟨sql, params, types, hmem, -⟩)
  · exact h _ hmem rfl
  · exact h _ hmem rfl

theorem replied_refused {e : DatastoreError} {identity : List Value}
    (hfault : env.acquireFault = some e) :
    Replied env [.lockMode identity, .acquire] reply ↔ reply = .error e := by
  simp [Replied, hfault]

theorem replied_answered {identity params : List Value} {sql : String} {types : List String}
    (hfault : env.acquireFault = none) (hevents : ∀ e ∈ events, e.writes) :
    Replied env (.lockMode identity :: .acquire :: .query sql params types :: .release :: events)
      reply ↔ reply = env.query sql params types := by
  have hnot (sql' : String) (params' : List Value) (types' : List String) :
      FetchEvent.query sql' params' types' ∉ events := not_mem_of_writes hevents rfl
  simp [Replied, hfault, hnot]

theorem Follows.writes (h : r.Follows env o reply events result) : ∀ e ∈ events, e.writes := by
  cases h with
  | failed => simp
  | absent => simp
  | applied hwrites => exact hwrites.events

/-- Behind an answer a fetch fails by it, or with what the object reports. -/
theorem Follows.error_iff (h : r.Follows env o reply events result) {e : FetchError}
    (he : ∀ fault, e ≠ .metadata fault) :
    result = .error e ↔ r.failure? env o reply = some e ∨ o.Reports events e := by
  cases h with
  | failed => simp [failure?, FetchedObject.not_reports_nil]
  | absent => simp [failure?, FetchedObject.not_reports_nil]
  | applied hwrites => simpa [failure?] using hwrites.error_iff he

/-- What the object reports behind an answer is all that it reports. -/
theorem reports_answered {identity params : List Value} {sql : String} {types : List String}
    {e : FetchError} : o.Reports
      (.lockMode identity :: .acquire :: .query sql params types :: .release :: events) e ↔
    o.Reports events e :=
  have hsilent : ¬o.Reports [.lockMode identity, .acquire, .query sql params types, .release] e :=
    FetchedObject.not_reports (by simp)
  FetchedObject.reports_append hsilent

/-- A fetch fails for another reason than metadata if and because the datastore answers so or the object
reports so. -/
theorem Ends.error_iff (h : r.Ends env o events result) {e : FetchError}
    (he : ∀ fault, e ≠ .metadata fault) : result = .error e ↔
      (∃ reply, Replied env events reply ∧ r.failure? env o reply = some e) ∨
        o.Reports events e := by
  cases h with
  | @unasked run _ hwrites _ =>
    have hnone (reply : Except DatastoreError (Option (List Value))) :
        ¬Replied env run.events reply :=
      not_replied fun x hx => FetchEvent.not_connects_of_writes (hwrites.events x hx)
    simp [hnone, hwrites.error_iff he]
  | @unbound c e' hbinds =>
    have hnone (reply : Except DatastoreError (Option (List Value))) :
        ¬Replied env [.lockMode o.identity] reply := not_replied (by simp)
    have hsilent : ¬o.Reports [.lockMode o.identity] e := FetchedObject.not_reports (by simp)
    have hother : e' ≠ e := by
      rintro rfl
      obtain ⟨fault, rfl⟩ := r.bindAll_onlyFaults _ _ _ e' hbinds.2.2
      exact he fault rfl
    simp [hnone, hsilent, hother]
  | refused _ hfault =>
    have hsilent : ¬o.Reports [.lockMode o.identity, .acquire] e :=
      FetchedObject.not_reports (by simp)
    simp [replied_refused hfault, hsilent, failure?]
  | answered _ hfault hfollows =>
    simp [replied_answered hfault hfollows.writes, reports_answered, hfollows.error_iff he]

/-- A report ends the fetch, and the object has not been asked to load anything before there is a row. -/
theorem Ends.reported (h : r.Ends env o events result) {e : FetchError} (he : o.Reports events e) :
    result = .error e ∧ (r.statement = none ∨ ∃ row, Replied env events (.ok (some row))) := by
  cases h with
  | unasked _ hwrites hidle =>
    refine ⟨hwrites.reports e he, hidle.imp_right fun hnil => ?_⟩
    exact absurd (hnil ▸ he) FetchedObject.not_reports_nil
  | unbound _ => exact absurd he (FetchedObject.not_reports (by simp))
  | refused _ _ => exact absurd he (FetchedObject.not_reports (by simp))
  | answered _ hfault hfollows =>
    rw [reports_answered] at he
    generalize hreply : env.query _ _ _ = reply at hfollows
    cases hfollows with
    | failed => exact absurd he FetchedObject.not_reports_nil
    | absent => exact absurd he FetchedObject.not_reports_nil
    | @applied row run hwrites =>
      exact ⟨hwrites.reports e he, .inr ⟨row, (replied_answered hfault hwrites.events).mpr hreply.symm⟩⟩

theorem Ends.unbound_events (h : r.Ends env o events result) {c : CompiledFetch} {e : FetchError}
    (hbinds : r.Binds env o c (.error e)) : events = [.lockMode o.identity] ∧ result = .error e := by
  cases h with
  | unasked hnone _ _ => exact absurd hbinds (hnone _ _)
  | unbound hbinds' =>
    cases hbinds.unique hbinds'
    exact ⟨rfl, rfl⟩
  | refused hbinds' _ => cases hbinds.unique hbinds'
  | answered hbinds' _ _ => cases hbinds.unique hbinds'

end

end FetchRequest

end ObjectSql
