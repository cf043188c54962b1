import ObjectSql.Expr.Compare
import ObjectSql.Fetch.Request
import ObjectSql.Metadata.Catalog

/-!
# Compiling a fetch

The primary table is the one nearest to the root that a requested member is read from, or the first
with a version. Other tables of the chain are joined to it on identity when a column of theirs is
needed. A relation is read as a foreign key, or with the row that it refers to; rows are restricted
by identity, tenant and soft deletion.
-/
namespace ObjectSql

/-- A requested member with the place of its class in the chain. -/
structure RequestedMember where
  depth : Nat
  member : MemberMapping
  /-- Whether the member is stored as a reference only. -/
  storeOnly : Bool
deriving Repr, DecidableEq, Inhabited

namespace RequestedMember

/-- Whether a column of the member's table is read. -/
def isProjected (r : RequestedMember) : Bool :=
  match r.member.kind with
  | .scalar => !r.storeOnly
  | .relation _ => true
  | .map _ => false

end RequestedMember

/-- What stays the same while a fetch is compiled. -/
structure FetchScope where
  catalog : Catalog
  chain : List ClassMapping
  /-- The place of the primary table in the chain. -/
  primary : Nat
  identity : List IdentityColumn

namespace FetchScope

def classAt (s : FetchScope) (depth : Nat) : ClassMapping := s.chain.getD depth default

/-- The first part of its kind in the chain from a place on. -/
def nearest {α : Type} (s : FetchScope) (start : Nat) (part : ClassMapping → Option α) :
    Option (Nat × α) :=
  (s.chain.zipIdx.drop start).findSome? fun (k, depth) => (part k).map (depth, ·)

def primaryDepth (chain : List ClassMapping) (requested : List RequestedMember) : Nat :=
  match ((requested.filter RequestedMember.isProjected).map RequestedMember.depth).max? with
  | some depth => depth
  | none => (chain.findIdx? (·.table.version.isSome)).getD 0

end FetchScope

def IdentityColumn.key (c : IdentityColumn) : MappingKey :=
  c.member.elim .datastoreId .member

namespace FetchError

def ofSql {α : Type} : Except SqlError α → Except FetchError α := Except.mapError sql

def ofMetadata {α : Type} : Except MetadataFault α → Except FetchError α := Except.mapError metadata

end FetchError

open FetchError

/-- A statement under construction. -/
structure FetchDraft where
  query : Select
  /-- Joined tables of the chain by their place in it. -/
  joined : List (Nat × TableRef)
  layout : ClassLayout
  resultTypes : List String

namespace FetchDraft

def start (className table : String) : FetchDraft := ⟨.ofName table, [], .empty className, []⟩

def setColumns (d : FetchDraft) (key : MappingKey) (positions : List Nat) : FetchDraft :=
  { d with layout := { d.layout with layout := d.layout.layout.setColumns key positions } }

/-- Projects a column and tells its position. -/
def project (d : FetchDraft) (table : TableRef) (column logicalType : String) :
    Except FetchError (Nat × FetchDraft) := do
  let (position, query) ← ofSql (d.query.select (.column table column logicalType))
  let resultTypes :=
    if d.resultTypes.length < position then d.resultTypes ++ [logicalType] else d.resultTypes
  pure (position, { d with query := query, resultTypes := resultTypes })

/-- Projects columns that are given with their types. -/
def projectAll (d : FetchDraft) (table : TableRef) :
    List (String × String) → Except FetchError (List Nat × FetchDraft)
  | [] => .ok ([], d)
  | (column, logicalType) :: columns => do
    let (position, d) ← d.project table column logicalType
    let (positions, d) ← d.projectAll table columns
    pure (position :: positions, d)

/-- Equality of columns of two tables, which are given in pairs with their common type. -/
def columnsEqual (left right : TableRef) (columns : List (String × String × String)) :
    Except FetchError (List Expr) :=
  ofSql (columns.mapM fun (l, r, logicalType) =>
    (Expr.column left l logicalType).compare .eq (.column right r logicalType))

/-- The table of a class of the chain, joined on identity at its first use. -/
def chainTable (s : FetchScope) (d : FetchDraft) (depth : Nat) :
    Except FetchError (TableRef × FetchDraft) :=
  if depth = s.primary then .ok (d.query.table, d)
  else
    match d.joined.lookup depth with
    | some table => .ok (table, d)
    | none => do
      let (table, query) := d.query.newTableAlias (s.classAt depth).table.name
      let on ← columnsEqual query.table table
        (s.identity.map fun c => (c.column, c.column, c.logicalType))
      let query := query.join .inner table on
      pure (table, { d with query := query, joined := (depth, table) :: d.joined })

/-- Projects the version of the nearest table from the primary one on. -/
def selectVersion (s : FetchScope) (d : FetchDraft) :
    Except FetchError (Option VersionMapping × FetchDraft) :=
  match s.nearest s.primary (·.table.version) with
  | none => .ok (none, d)
  | some (depth, version) => do
    let (table, d) ← chainTable s d depth
    let (position, d) ← d.project table version.column version.logicalType
    pure (some version, d.setColumns .version [position])

def selectScalar (s : FetchScope) (d : FetchDraft) (depth : Nat) (m : MemberMapping) :
    Except FetchError FetchDraft :=
  match m.columns with
  | [column] => do
    let (table, d) ← chainTable s d depth
    let (position, d) ← d.project table column m.logicalType
    pure (d.setColumns (.member m.number) [position])
  | _ => .error (.metadata (.notOneColumn m.name))

/-- The identity columns of a target, of which the relation has to have as many. -/
def targetIdentity (s : FetchScope) (m : MemberMapping) (target : String) :
    Except FetchError (List IdentityColumn) := do
  let identity ← ofMetadata (s.catalog.identityColumns target)
  if identity.length = m.columns.length then pure identity
  else .error (.metadata (.relationWidth m.name m.columns.length target identity.length))

def isSurrogate (identity : List IdentityColumn) : Bool := identity.all (·.member.isNone)

/-- Projects the foreign key of a relation and tells whether the target has surrogate identity. -/
def selectForeignKey (s : FetchScope) (d : FetchDraft) (depth : Nat) (m : MemberMapping)
    (target : String) : Except FetchError (Bool × FetchDraft) := do
  let identity ← targetIdentity s m target
  let (table, d) ← chainTable s d depth
  let (positions, d) ←
    d.projectAll table (m.columns.zip (identity.map IdentityColumn.logicalType))
  pure (isSurrogate identity, d.setColumns (.member m.number) positions)

/-- Whether a relation is read with the related row. The row of an abstract class with subclasses
has to name its class. -/
def readsRelatedRow (s : FetchScope) (m : MemberMapping) (target : String) :
    Except FetchError Bool :=
  if m.recursionDepth = some 0 then .ok false
  else do
    let k ← ofMetadata (s.catalog.getClass target)
    pure !(k.isAbstract && k.table.discriminator.isNone && s.catalog.hasSubclasses k.name)

/-- Keys in the order of their first occurrence. -/
def distinctKeys : List MappingKey → List MappingKey
  | [] => []
  | k :: ks => k :: (distinctKeys ks).filter (· ≠ k)

/-- The layout of a related row whose identity columns stand at the given positions. -/
def identityLayout (target : String) (identity : List (MappingKey × Nat)) : ClassLayout :=
  { ClassLayout.empty target with
    layout := (distinctKeys (identity.map Prod.fst)).foldl
      (fun l key =>
        l.setColumns key ((identity.filter fun e => e.1 = key).map Prod.snd)) .empty }

/-- Projects the scalar members of a related row that are not part of its identity. -/
def selectRelatedFields (d : FetchDraft) (related : TableRef) (keys : List MappingKey)
    (child : ClassLayout) : List MemberMapping → Except FetchError (ClassLayout × FetchDraft)
  | [] => .ok (child, d)
  | m :: ms =>
    match m.kind, m.columns with
    | .scalar, [column] =>
      if keys.contains (.member m.number) then d.selectRelatedFields related keys child ms
      else do
        let (position, d) ← d.project related column m.logicalType
        d.selectRelatedFields related keys
          { child with layout := child.layout.setColumns (.member m.number) [position] } ms
    | _, _ => d.selectRelatedFields related keys child ms

/-- Joins the table of a relation's target and projects identity, class and scalar members of its
row. -/
def selectRelated (s : FetchScope) (d : FetchDraft) (depth : Nat) (m : MemberMapping)
    (target : String) : Except FetchError (Bool × List MappingKey × FetchDraft) := do
  let identity ← targetIdentity s m target
  let k ← ofMetadata (s.catalog.getClass target)
  let (owner, d) ← chainTable s d depth
  let (related, query) := d.query.newTableAlias k.table.name
  let on ← columnsEqual owner related
    ((m.columns.zip identity).map fun (column, c) => (column, c.column, c.logicalType))
  let d := { d with query := query.join .leftOuter related on }
  let (positions, d) ←
    d.projectAll related (identity.map fun c => (c.column, c.logicalType))
  let keys := identity.map IdentityColumn.key
  let child := identityLayout target (keys.zip positions)
  let (child, d) ←
    match k.table.discriminator with
    | none => pure (child, d)
    | some column => do
      let (position, d) ← d.project related column "string"
      pure ({ child with layout := child.layout.setColumns .discriminator [position] }, d)
  let (child, d) ← d.selectRelatedFields related keys child k.members
  pure (isSurrogate identity, distinctKeys keys,
    { d with layout := d.layout.addChild m.number child })

def addCondition (d : FetchDraft) (e : Expr) : FetchDraft :=
  { d with query := d.query.addCondition e }

/-- Restricts rows to one identity. -/
def restrictIdentity (d : FetchDraft) : List IdentityColumn → Except FetchError FetchDraft
  | [] => .ok d
  | c :: cs => do
    let condition ← ofSql ((Expr.column d.query.table c.column c.logicalType).compare .eq
      (.parameter c.key c.position c.logicalType))
    (d.addCondition condition).restrictIdentity cs

def restrictTenant (s : FetchScope) (d : FetchDraft) : Except FetchError FetchDraft :=
  match s.nearest 0 (·.table.tenancy) with
  | none => .ok d
  | some (depth, tenancy) => do
    let (table, d) ← chainTable s d depth
    let column := Expr.column table tenancy.column "string"
    let condition ←
      match tenancy.allowed with
      | some allowed => pure (column.inList (allowed.map fun t => .literal (.text t)))
      | none => ofSql (column.compare .eq (.parameter .tenant 0 "string"))
    pure (d.addCondition condition)

def restrictDeleted (s : FetchScope) (d : FetchDraft) : Except FetchError FetchDraft :=
  match s.nearest 0 (·.table.softDelete) with
  | none => .ok d
  | some (depth, column) => do
    let (table, d) ← chainTable s d depth
    let condition ← ofSql ((Expr.column table column "bool").compare .eq
      (.fixedParameter .softDelete (.bool false)))
    pure (d.addCondition condition)

def restrict (s : FetchScope) (d : FetchDraft) : Except FetchError FetchDraft := do
  let d ← d.restrictIdentity s.identity
  let d ← restrictTenant s d
  restrictDeleted s d

/-- Renders the statement and notes its placeholders. -/
def finish (d : FetchDraft) (p : Profile) : CompiledFetch :=
  let unlocked := d.query.toSql p false
  { query := d.query
    unlocked := unlocked
    locked := d.query.toSql p true
    layout := { d.layout with layout := d.layout.layout.recordParameters unlocked.params }
    resultTypes := d.resultTypes }

end FetchDraft

/-- How the requested members are read. -/
structure FetchPlan where
  fields : List FieldPlan
  store : List StorePlan
  deferred : List Nat

namespace FetchPlan

def empty : FetchPlan := ⟨[], [], []⟩

open FetchDraft

/-- Plans a member and projects what it is read from. Only relations are stored as references. -/
def addMember (s : FetchScope) (plan : FetchPlan) (d : FetchDraft) (r : RequestedMember) :
    Except FetchError (FetchPlan × FetchDraft) :=
  let number := r.member.number
  match r.member.kind, r.storeOnly with
  | .map _, false => .ok ({ plan with deferred := plan.deferred ++ [number] }, d)
  | .relation target, true => do
    let (surrogate, d) ← selectForeignKey s d r.depth r.member target
    pure ({ plan with store := plan.store ++ [⟨number, target, surrogate⟩] }, d)
  | .map _, true | .scalar, true => .ok (plan, d)
  | .scalar, false => do
    let d ← selectScalar s d r.depth r.member
    pure ({ plan with fields := plan.fields ++ [.scalar number] }, d)
  | .relation target, false => do
    if ← readsRelatedRow s r.member target then
      let (surrogate, keys, d) ← selectRelated s d r.depth r.member target
      pure ({ plan with fields := plan.fields ++ [.object number target surrogate keys] }, d)
    else
      let (surrogate, d) ← selectForeignKey s d r.depth r.member target
      pure ({ plan with fields := plan.fields ++ [.reference number target surrogate] }, d)

def addMembers (s : FetchScope) (plan : FetchPlan) (d : FetchDraft) :
    List RequestedMember → Except FetchError (FetchPlan × FetchDraft)
  | [] => .ok (plan, d)
  | r :: rs => do
    let (plan, d) ← plan.addMember s d r
    plan.addMembers s d rs

end FetchPlan

namespace FetchRequest

/-- The members of a list with their places in the chain. -/
def findMembers (c : Catalog) (className : String) (storeOnly : Bool) (numbers : List Nat) :
    Except FetchError (List RequestedMember) :=
  ofMetadata (numbers.mapM fun number =>
    (c.member className number).map fun (depth, m) => ⟨depth, m, storeOnly⟩)

/-- Compiles the fetch of a class; a member that is fetched is not stored as well. -/
def compile (c : Catalog) (p : Profile) (key : FetchKey) : Except FetchError FetchRequest := do
  let chain ← ofMetadata (c.chain key.className)
  let fetched ← findMembers c key.className false key.fetch
  let stored ← findMembers c key.className true (key.store.filter fun n => !key.fetch.contains n)
  let requested := fetched ++ stored
  let identity ← ofMetadata (c.identityColumns key.className)
  let s : FetchScope := ⟨c, chain, FetchScope.primaryDepth chain requested, identity⟩
  let table := (s.classAt s.primary).table.name
  let (version, d) ← FetchDraft.selectVersion s (.start key.className table)
  let (plan, d) ← FetchPlan.empty.addMembers s d requested
  let statement ←
    if d.query.projection.isEmpty then pure none
    else do
      let d ← FetchDraft.restrict s d
      pure (some (d.finish p))
  pure
    { className := key.className
      table := table
      statement := statement
      fields := plan.fields
      store := plan.store
      deferred := plan.deferred
      hasVersion := version.isSome
      versionMember := version.bind VersionMapping.member
      identity := identity.map fun c => (c.key, c.position) }

end FetchRequest

end ObjectSql
