import ObjectSql.Dialect.Profile
import ObjectSql.Fetch.Request
import ObjectSql.Fetch.Run

/-!
# Executing a fetch

A fetch asks for the lock of an object, binds the placeholders, runs the statement on a connection
that it returns at once, and hands the values of the row to the object: the version first, then the
fetched members, then the references to store, then the members that the object loads itself.
-/
namespace ObjectSql

/-- Everything that a fetch is executed with. -/
structure FetchEnvironment where
  profile : Profile
  /-- Whether a row is to be locked, by its identity. -/
  locks : List Value → Bool
  tenant : Option String
  /-- Why no connection can be opened. -/
  acquireFault : Option DatastoreError
  /-- The first row of a statement. -/
  query : String → List Value → List String → Except DatastoreError (Option (List Value))

/-- The object that a fetch reads into. -/
structure FetchedObject where
  identity : List Value
  /-- A version that is known already. -/
  cachedVersion : Option Value
  /-- What comes of it when the object loads a member that is not read from the row. -/
  loadDeferred : Nat → Except FetchError Unit

inductive FetchOutcome where
  | loaded
  | versionCached
  | noStatement
deriving Repr, DecidableEq, Inhabited

/-! ## Rows -/

/-- The value at a position of a row, counted from one. -/
def readAt (row : List Value) (position : Nat) : Except FetchError Value :=
  match position, row[position - 1]? with
  | _ + 1, some v => .ok v
  | _, _ => .error (.metadata (.rowTooShort row.length position))

def readAll (row : List Value) (positions : List Nat) : Except FetchError (List Value) :=
  positions.mapM (readAt row)

def readFirst (row : List Value) (positions : List Nat) : Except FetchError Value :=
  match positions with
  | [] => .error (.metadata .noResultColumn)
  | position :: _ => readAt row position

def readIdentity (row : List Value) (l : Layout) (keys : List MappingKey) (surrogate : Bool) :
    Except FetchError (Option IdentityValue) :=
  (keys.mapM fun key => readAll row (l.positions key)).map fun values =>
    IdentityValue.ofColumns values.flatten surrogate

/-- A related object at its layout. -/
def readRelated (row : List Value) (child : ClassLayout) (target : String)
    (identity : IdentityValue) (keys : List MappingKey) : Except FetchError LoadedObject := do
  let discriminator ← (child.layout.find? .discriminator).mapM fun m => readFirst row m.columns
  let members := child.layout.resultMembers.filter fun n => !keys.contains (.member n)
  let fields ← members.mapM fun n =>
    (readFirst row (child.layout.positions (.member n))).map fun v => (n, v)
  pure ⟨⟨target, identity⟩, discriminator, fields⟩

namespace FieldPlan

def member : FieldPlan → Nat
  | scalar m | reference m _ _ | object m _ _ _ => m

def read (plan : FieldPlan) (className : String) (c : ClassLayout) (row : List Value) :
    Except FetchError FieldValue :=
  match plan with
  | scalar m => (readFirst row (c.layout.positions (.member m))).map FieldValue.ofValue
  | reference m target surrogate =>
    (readIdentity row c.layout [.member m] surrogate).map fun id =>
      id.elim .null fun id => .reference ⟨target, id⟩
  | object m target surrogate keys =>
    match c.child? m with
    | none => .error (.metadata (.noRelatedLayout m className))
    | some child => do
      match ← readIdentity row child.layout keys surrogate with
      | none => pure .null
      | some id => (readRelated row child target id keys).map .object

end FieldPlan

def StorePlan.read (plan : StorePlan) (l : Layout) (row : List Value) :
    Except FetchError (Option ObjectReference) :=
  (readIdentity row l [.member plan.member] plan.surrogate).map fun id =>
    id.map fun id => ⟨plan.target, id⟩

/-! ## Execution -/

namespace FetchRequest

/-- The value of a placeholder. -/
def bindParameter (r : FetchRequest) (identity : List Value) (tenant : Option String)
    (p : BoundParameter) : Except FetchError Value :=
  match p.value with
  | some v => .ok v
  | none =>
    if p.key = .tenant then
      match tenant with
      | some t => .ok (.text t)
      | none => .error (.metadata (.tenantMissing r.className))
    else
      match r.identity.findIdx? fun e => e = (p.key, p.column) with
      | none => .error (.metadata (.notIdentityColumn p.key r.className))
      | some slot =>
        match identity[slot]? with
        | some v => .ok v
        | none =>
          .error (.metadata (.identityTooShort r.className r.identity.length identity.length))

def bindAll (r : FetchRequest) (text : SqlText) (identity : List Value) (tenant : Option String) :
    Except FetchError (List Value) :=
  text.params.mapM (r.bindParameter identity tenant)

/-- An error of the datastore is a cancellation if any of its links is. -/
def classify (p : Profile) (e : DatastoreError) : FetchError :=
  if e.any fun l => p.isStatementCancel l.code l.sqlState then .cancelled e else .datastore e

open FetchRun

def loadDeferred (r : FetchRequest) (o : FetchedObject) : FetchRun Unit :=
  forEach
    (fun m => do
      emit (.loadDeferred m)
      ofExcept (o.loadDeferred m))
    r.deferred

def applyVersion (r : FetchRequest) (c : CompiledFetch) (row : List Value) : FetchRun Unit :=
  match c.layout.layout.find? .version with
  | none => done ()
  | some m => do
    let v ← ofExcept (readFirst row m.columns)
    emit (.setVersion v)
    match r.versionMember with
    | none => done ()
    | some member => emit (.replaceField member (.ofValue v))

def applyRow (r : FetchRequest) (c : CompiledFetch) (row : List Value) : FetchRun Unit := do
  r.applyVersion c row
  forEach
    (fun plan => do
      let v ← ofExcept (plan.read r.className c.layout row)
      emit (.replaceField plan.member v))
    r.fields
  forEach
    (fun plan => do
      let reference ← ofExcept (plan.read c.layout.layout row)
      emit (.storeReference plan.member reference))
    r.store

/-- Runs the statement and returns its row. -/
def queryRow (r : FetchRequest) (c : CompiledFetch) (env : FetchEnvironment)
    (identity : List Value) : FetchRun (List Value) := do
  emit (.lockMode identity)
  let text := c.text (env.locks identity)
  let params ← ofExcept (r.bindAll text identity env.tenant)
  emit .acquire
  match env.acquireFault with
  | some e => fail (classify env.profile e)
  | none => do
    emit (.query text.sql params c.resultTypes)
    emit .release
    match env.query text.sql params c.resultTypes with
    | .error e => fail (classify env.profile e)
    | .ok none => fail (.notFound r.className identity)
    | .ok (some row) => pure row

def execute (r : FetchRequest) (env : FetchEnvironment) (o : FetchedObject) :
    FetchRun FetchOutcome :=
  match r.statement with
  | none => do
    r.loadDeferred o
    pure .noStatement
  | some c =>
    if r.isVersionOnly && o.cachedVersion.isSome then done .versionCached
    else do
      let row ← r.queryRow c env o.identity
      r.applyRow c row
      r.loadDeferred o
      pure .loaded

end FetchRequest

end ObjectSql
