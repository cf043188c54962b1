import ObjectSql.Proofs.Schema.Script

/-!
# Creating a table

A table can be created exactly if its identity columns can be declared and its keys are complete, whatever
the capabilities of the profile are. The statements are then told by the table: a definition with one line
for each column and key, then what is added to it, each with a text of its own.
-/
namespace ObjectSql

open Text

/-! ## Steps that succeed under a condition -/

/-- A step succeeds under a condition and not otherwise, with one result. -/
def Yields {ε α : Type} (x : Except ε α) (P : Prop) (a : α) : Prop := ∀ b, x = .ok b ↔ P ∧ b = a

namespace Yields

variable {ε α β : Type} {x : Except ε α} {P Q : Prop} {a : α} {b : β}

theorem ok (a : α) : Yields (.ok a : Except ε α) True a := by
  intro b
  rw [Except.ok.injEq, true_and, eq_comm]

theorem error (e : ε) (a : α) : Yields (.error e) False a := by
  intro b
  simp

theorem congr (h : Yields x P a) (hPQ : P ↔ Q) : Yields x Q a := by
  intro b
  rw [h b, hPQ]

theorem map (h : Yields x P a) (f : α → β) : Yields (x.map f) P (f a) := by
  intro b
  rw [Except.map_eq_ok]
  constructor
  · rintro ⟨a', ha', rfl⟩
    obtain ⟨hP, rfl⟩ := (h a').mp ha'
    exact ⟨hP, rfl⟩
  · rintro ⟨hP, rfl⟩
    exact ⟨a, (h a).mpr ⟨hP, rfl⟩, rfl⟩

theorem bind {f : α → Except ε β} (h : Yields x P a) (hf : P → Yields (f a) Q b) :
    Yields (x >>= f) (P ∧ Q) b := by
  intro b'
  rw [Except.bind_eq_ok]
  constructor
  · rintro ⟨a', ha', hb'⟩
    obtain ⟨hP, rfl⟩ := (h a').mp ha'
    obtain ⟨hQ, rfl⟩ := (hf hP b').mp hb'
    exact ⟨⟨hP, hQ⟩, rfl⟩
  · rintro ⟨⟨hP, hQ⟩, rfl⟩
    exact ⟨a, (h a).mpr ⟨hP, rfl⟩, (hf hP b').mpr ⟨hQ, rfl⟩⟩

/-- The last step of a sequence puts the results together. -/
theorem bind_pure (h : Yields x P a) (f : α → β) : Yields (x >>= fun a => pure (f a)) P (f a) := by
  have hmap : (x >>= fun a => pure (f a)) = x.map f := by cases x <;> rfl
  rw [hmap]
  exact h.map f

theorem mapM {f : α → Except ε β} {P : α → Prop} {g : α → β} (as : List α)
    (h : ∀ a, Yields (f a) (P a) (g a)) : Yields (as.mapM f) (∀ a ∈ as, P a) (as.map g) := by
  induction as with
  | nil => exact (ok []).congr (by simp)
  | cons a as ih =>
    rw [List.mapM_cons]
    refine ((h a).bind fun _ => ih.bind_pure _).congr ?_
    simp

end Yields

/-! ## The statements of a table -/

/-- A column of the name, up to the case of ASCII letters, stands at a position of the key. -/
def Key.Holds (k : Key) (name : String) : Prop :=
  ∃ c, some c ∈ k.columns ∧ sameIgnoringCase c.name name

def Key.setColumns (k : Key) : List Column := k.columns.filterMap id

inductive TableLine where
  | column (c : Column)
  /-- A column with which the primary key is declared. -/
  | keyColumn (c : Column)
  | primaryKey (k : Key)
  | unique (k : Key)
  | foreignKey (k : Key)

namespace Profile

variable (p : Profile) (t : Table)

def inlinesIdentity : Bool :=
  match p.identity?.map IdentitySyntax.placement with
  | some .inlinePrimaryKey => true
  | _ => false

/-- How a column is stored: its type, or an identity keyword in place of it or behind it. -/
def storage (c : Column) : String :=
  if c.identity then
    match p.identity?.map IdentitySyntax.placement with
    | some (.replaceType keyword) => keyword (IntegerWidth.ofLogicalType c.logicalType)
    | some (.afterType keyword) => c.typeText ++ " " ++ keyword
    | _ => c.typeText
  else c.typeText

def columnNames (columns : List Column) : String :=
  "(" ++ joined ", " (columns.map fun c => p.columnName c.name) ++ ")"

def foreignKeyText (k : Key) : String :=
  match k.kind with
  | .foreign r =>
    "CONSTRAINT " ++ p.keyName t k ++ " FOREIGN KEY " ++ p.columnNames k.setColumns ++
      " REFERENCES " ++ p.identifier .table r.table ++ " (" ++
      joined ", " (r.columns.map p.columnName) ++ ")" ++
      actionClause "DELETE" r.onDelete ++ actionClause "UPDATE" r.onUpdate
  | _ => ""

def lineText : TableLine → String
  | .column c => p.columnName c.name ++ " " ++ p.storage c ++ columnSuffix c
  | .keyColumn c => p.columnName c.name ++ " INTEGER PRIMARY KEY AUTOINCREMENT"
  | .primaryKey k => "CONSTRAINT " ++ p.keyName t k ++ " PRIMARY KEY " ++ p.columnNames k.setColumns
  | .unique k => "CONSTRAINT " ++ p.keyName t k ++ " UNIQUE " ++ p.columnNames k.setColumns
  | .foreignKey k => p.foreignKeyText t k

def columnLine (c : Column) : TableLine :=
  if c.identity && p.inlinesIdentity then .keyColumn c else .column c

/-- The line of the primary key, unless an identity column is declared as the primary key. -/
def primaryLines : List TableLine :=
  if p.inlinesIdentity && t.columns.any Column.identity then []
  else t.primaryKey.toList.map .primaryKey

def definitionLines : List TableLine :=
  t.columns.map p.columnLine ++ p.primaryLines t ++ t.candidateKeys.map .unique ++
    if p.supports .alterTableAddConstraint then [] else t.foreignKeys.map .foreignKey

def additionText (k : Key) : String :=
  "ALTER TABLE " ++ p.tableName t ++ " ADD " ++ p.foreignKeyText t k

def indexText (k : Key) : String :=
  "CREATE " ++ (if isUniqueIndex k.kind then "UNIQUE " else "") ++ "INDEX " ++
    (if p.supports .createIndexIfNotExists then "IF NOT EXISTS " else "") ++
    p.keyName t k ++ " ON " ++ p.tableName t ++ " " ++ p.columnNames k.setColumns

/-- The definition of a table, then one statement for each foreign key that is added to it and for each
index. -/
def creationScript : List String :=
  [p.definition t ((p.definitionLines t).map (p.lineText t))] ++
    (if p.supports .alterTableAddConstraint then t.foreignKeys.map (p.additionText t) else []) ++
    t.indices.map (p.indexText t)

/-- A profile has a declaration for an identity column. Where it is declared as the primary key, it has to
be the only column of that key. -/
def DeclaresIdentity (c : Column) : Prop :=
  ∃ s, p.identity? = some s ∧ (s.placement = .inlinePrimaryKey →
    ∃ k, t.primaryKey = some k ∧ k.size = 1 ∧ k.Holds c.name)

structure Creatable : Prop where
  identity : ∀ c ∈ t.columns, c.identity → p.DeclaresIdentity t c
  primaryKey : ∀ k ∈ t.primaryKey, k.isComplete
  candidateKeys : ∀ k ∈ t.candidateKeys, k.isComplete
  foreignKeys : ∀ k ∈ t.foreignKeys, k.kind.family = .foreign ∧ k.isComplete
  indices : ∀ k ∈ t.indices, k.isComplete

/-! ## Texts of columns and keys -/

variable {p t} {c : Column} {k : Key}

theorem keyColumns_yields : Yields (p.keyColumns k) k.isComplete (p.columnNames k.setColumns) := by
  have hcolumns : Yields k.completeColumns k.isComplete k.setColumns := by
    unfold Key.completeColumns
    split
    · next h => exact (Yields.ok _).congr (iff_of_true trivial h)
    · next h => exact (Yields.error _ _).congr (iff_of_false not_false h)
  exact hcolumns.map _

theorem constraintClause_yields (words : String) :
    Yields (p.constraintClause t k words) k.isComplete
      ("CONSTRAINT " ++ p.keyName t k ++ words ++ p.columnNames k.setColumns) :=
  keyColumns_yields.map _

theorem foreignKeyClause_yields : Yields (p.foreignKeyClause t k)
    (k.kind.family = .foreign ∧ k.isComplete) (p.foreignKeyText t k) := by
  unfold foreignKeyClause foreignKeyText
  cases k.kind with
  | foreign r => exact (keyColumns_yields.map _).congr (by simp [KeyKind.family])
  | _ => exact (Yields.error _ _).congr (by simp [KeyKind.family])

theorem addForeignKey_yields (hadd : p.supports .alterTableAddConstraint) :
    Yields (p.addForeignKey t k) (k.kind.family = .foreign ∧ k.isComplete) (p.additionText t k) := by
  rw [addForeignKey, require, if_pos hadd]
  exact foreignKeyClause_yields.map _

theorem createIndex_yields : Yields (p.createIndex t k) k.isComplete (p.indexText t k) :=
  keyColumns_yields.map _

theorem isPrimaryKeyColumn_iff {name : String} :
    t.isPrimaryKeyColumn name ↔ ∃ k, t.primaryKey = some k ∧ k.Holds name := by
  simp [Table.isPrimaryKeyColumn, Key.Holds, Option.any_eq_true]

theorem isOnlyKeyColumn_iff :
    isOnlyKeyColumn t c ↔ ∃ k, t.primaryKey = some k ∧ k.size = 1 ∧ k.Holds c.name := by
  rw [isOnlyKeyColumn, Bool.and_eq_true, isPrimaryKeyColumn_iff]
  cases t.primaryKey <;> simp

theorem columnDefinition_yields : Yields (p.columnDefinition t c)
    (c.identity → p.DeclaresIdentity t c) (p.lineText t (p.columnLine c)) := by
  unfold columnDefinition columnLine inlinesIdentity
  by_cases hidentity : c.identity
  · rw [if_pos hidentity, hidentity, Bool.true_and]
    cases hsyntax : p.identity? with
    | none => exact (Yields.error _ _).congr (by simp [DeclaresIdentity, hsyntax])
    | some s =>
      cases hplacement : s.placement with
      | inlinePrimaryKey =>
        have hdeclares : p.DeclaresIdentity t c ↔ isOnlyKeyColumn t c := by
          simp [DeclaresIdentity, hsyntax, hplacement, isOnlyKeyColumn_iff]
        simp only [Option.map_some, hplacement, hdeclares, lineText, if_true]
        split
        · next honly => exact (Yields.ok _).congr (iff_of_true trivial fun _ => honly)
        · next honly => exact (Yields.error _ _).congr (iff_of_false not_false fun h => honly (h trivial))
      | _ =>
        have hdeclares : p.DeclaresIdentity t c := ⟨s, hsyntax, by simp [hplacement]⟩
        simp only [Option.map_some, hplacement, lineText, storage, hidentity, hsyntax, if_true,
          Bool.false_eq_true, if_false, ← String.append_assoc]
        exact (Yields.ok _).congr (iff_of_true trivial fun _ => hdeclares)
  · rw [if_neg hidentity, if_neg (by simp [hidentity])]
    have hstorage : p.storage c = c.typeText := if_neg hidentity
    rw [lineText, hstorage]
    exact (Yields.ok _).congr (iff_of_true trivial fun h => absurd h hidentity)

/-! ## The primary key -/

theorem inlinesIdentity_iff :
    p.inlinesIdentity ↔ ∃ s, p.identity? = some s ∧ s.placement = .inlinePrimaryKey := by
  unfold inlinesIdentity
  cases hsyntax : p.identity? with
  | none => simp
  | some s => cases hplacement : s.placement <;> simp [hplacement]

/-- An identity column that is declared as the primary key is the only column of that key. -/
theorem DeclaresIdentity.key (h : p.DeclaresIdentity t c) (hinline : p.inlinesIdentity) :
    ∃ k, t.primaryKey = some k ∧ ∃ d, k.columns = [some d] ∧ sameIgnoringCase d.name c.name := by
  obtain ⟨s, hs, hkey⟩ := h
  obtain ⟨s', hs', hplacement⟩ := inlinesIdentity_iff.mp hinline
  cases hs.symm.trans hs'
  obtain ⟨k, hk, hsize, d, hd, hsame⟩ := hkey hplacement
  obtain ⟨e, he⟩ := List.length_eq_one_iff.mp hsize
  rw [he, List.mem_singleton] at hd
  exact ⟨k, hk, d, by rw [he, hd], hsame⟩

/-- Where all identity columns can be declared, the primary key has no line of its own exactly if one of
them is declared as the primary key. -/
theorem hasInlineKey_eq (h : ∀ c ∈ t.columns, c.identity → p.DeclaresIdentity t c) :
    p.hasInlineKey t = (p.inlinesIdentity && t.columns.any Column.identity) := by
  change (p.inlinesIdentity && t.columns.any fun c => c.identity && t.isPrimaryKeyColumn c.name) = _
  cases hinline : p.inlinesIdentity with
  | false => rfl
  | true =>
    have hcolumn : ∀ c ∈ t.columns, (c.identity && t.isPrimaryKeyColumn c.name) = c.identity := by
      intro c hc
      cases hidentity : c.identity with
      | false => rfl
      | true =>
        obtain ⟨k, hk, d, hd, hsame⟩ := (h c hc hidentity).key hinline
        exact isPrimaryKeyColumn_iff.mpr ⟨k, hk, d, by rw [hd]; simp, hsame⟩
    rw [Bool.true_and, Bool.true_and, Bool.eq_iff_iff, List.any_eq_true, List.any_eq_true]
    exact exists_congr fun c => and_congr_right fun hc => by rw [hcolumn c hc]

def primaryTexts (p : Profile) (t : Table) : Except SqlError (List String) :=
  match t.primaryKey with
  | some k =>
    if p.hasInlineKey t then .ok []
    else (p.constraintClause t k " PRIMARY KEY ").map fun line => [line]
  | none => .ok []

theorem primaryTexts_yields (h : ∀ c ∈ t.columns, c.identity → p.DeclaresIdentity t c) :
    Yields (p.primaryTexts t) (∀ k ∈ t.primaryKey, k.isComplete)
      ((p.primaryLines t).map (p.lineText t)) := by
  unfold primaryTexts primaryLines
  rw [hasInlineKey_eq h]
  cases hk : t.primaryKey with
  | none =>
    have hnone : (if p.inlinesIdentity && t.columns.any Column.identity then []
        else (none : Option Key).toList.map TableLine.primaryKey) = [] := ite_self _
    rw [hnone]
    exact (Yields.ok []).congr (by simp)
  | some k =>
    dsimp only
    split
    · next hinline =>
      -- the key has an identity column, which is declared, so it has no position that is not set
      obtain ⟨hinline, hidentity⟩ := Bool.and_eq_true_iff.mp hinline
      obtain ⟨c, hc, hidentity⟩ := List.any_eq_true.mp hidentity
      obtain ⟨k', hk', d, hd, -⟩ := (h c hc hidentity).key hinline
      cases hk.symm.trans hk'
      exact (Yields.ok _).congr (by simp [Key.isComplete, hd])
    · exact ((constraintClause_yields _).map _).congr (by simp)

/-! ## The statements together -/

theorem tableLines_eq (p : Profile) (t : Table) : p.tableLines t = (do
    let columns ← t.columns.mapM (p.columnDefinition t)
    let primary ← p.primaryTexts t
    let unique ← t.candidateKeys.mapM fun k => p.constraintClause t k " UNIQUE "
    let foreign ←
      (if p.supports .alterTableAddConstraint then .ok []
      else t.foreignKeys.mapM (p.foreignKeyClause t))
    pure (columns ++ primary ++ unique ++ foreign)) := by
  unfold tableLines primaryTexts
  congr 1
  funext columns
  cases t.primaryKey with
  | none => cases p.supports .alterTableAddConstraint <;> rfl
  | some k => cases p.hasInlineKey t <;> cases p.supports .alterTableAddConstraint <;> rfl

theorem createTable_eq (p : Profile) (t : Table) : p.createTable t = (do
    let lines ← p.tableLines t
    let keys ←
      (if p.supports .alterTableAddConstraint then t.foreignKeys.mapM (p.addForeignKey t)
      else .ok [])
    let indices ← t.indices.mapM (p.createIndex t)
    pure ([p.definition t lines] ++ keys ++ indices)) := by
  unfold createTable
  congr 1
  funext lines
  cases p.supports .alterTableAddConstraint <;> rfl

theorem tableLines_yields : Yields (p.tableLines t)
    ((∀ c ∈ t.columns, c.identity → p.DeclaresIdentity t c) ∧ (∀ k ∈ t.primaryKey, k.isComplete) ∧
      (∀ k ∈ t.candidateKeys, k.isComplete) ∧ (p.supports .alterTableAddConstraint = false →
        ∀ k ∈ t.foreignKeys, k.kind.family = .foreign ∧ k.isComplete))
    ((p.definitionLines t).map (p.lineText t)) := by
  have hcolumns : Yields (t.columns.mapM (p.columnDefinition t)) _ _ :=
    .mapM t.columns fun _ => columnDefinition_yields
  have hunique : Yields (t.candidateKeys.mapM fun k => p.constraintClause t k " UNIQUE ") _ _ :=
    .mapM t.candidateKeys fun _ => constraintClause_yields " UNIQUE "
  have hforeign : Yields
      (if p.supports .alterTableAddConstraint then .ok []
        else t.foreignKeys.mapM (p.foreignKeyClause t))
      (p.supports .alterTableAddConstraint = false →
        ∀ k ∈ t.foreignKeys, k.kind.family = .foreign ∧ k.isComplete)
      (if p.supports .alterTableAddConstraint then [] else t.foreignKeys.map (p.foreignKeyText t)) := by
    cases p.supports .alterTableAddConstraint with
    | true => exact (Yields.ok []).congr (by simp)
    | false => exact (Yields.mapM t.foreignKeys fun _ => foreignKeyClause_yields).congr (by simp)
  have htexts : (p.definitionLines t).map (p.lineText t) =
      t.columns.map (fun c => p.lineText t (p.columnLine c)) ++
        (p.primaryLines t).map (p.lineText t) ++
        t.candidateKeys.map (fun k => p.lineText t (.unique k)) ++
        if p.supports .alterTableAddConstraint then []
        else t.foreignKeys.map (p.foreignKeyText t) := by
    unfold definitionLines
    split <;> simp [lineText, Function.comp_def]
  rw [tableLines_eq, htexts]
  refine (hcolumns.bind fun hidentity => (primaryTexts_yields hidentity).bind fun _ =>
    hunique.bind fun _ => hforeign.bind_pure _).congr ?_
  rfl

theorem createTable_yields : Yields (p.createTable t) (p.Creatable t) (p.creationScript t) := by
  have hkeys : Yields
      (if p.supports .alterTableAddConstraint then t.foreignKeys.mapM (p.addForeignKey t)
        else .ok [])
      (p.supports .alterTableAddConstraint →
        ∀ k ∈ t.foreignKeys, k.kind.family = .foreign ∧ k.isComplete)
      (if p.supports .alterTableAddConstraint then t.foreignKeys.map (p.additionText t) else []) := by
    cases hadd : p.supports .alterTableAddConstraint with
    | true => exact (Yields.mapM t.foreignKeys fun _ => addForeignKey_yields hadd).congr (by simp)
    | false => exact (Yields.ok []).congr (by simp)
  have hindices : Yields (t.indices.mapM (p.createIndex t)) _ _ :=
    .mapM t.indices fun _ => createIndex_yields
  rw [createTable_eq]
  refine (tableLines_yields.bind fun _ => hkeys.bind fun _ => hindices.bind_pure _).congr ?_
  constructor
  · rintro ⟨⟨hidentity, hprimary, hunique, hinside⟩, hadded, hindices⟩
    refine ⟨hidentity, hprimary, hunique, ?_, hindices⟩
    cases hadd : p.supports .alterTableAddConstraint with
    | true => exact hadded hadd
    | false => exact hinside hadd
  · rintro ⟨hidentity, hprimary, hunique, hforeign, hindices⟩
    exact ⟨⟨hidentity, hprimary, hunique, fun _ => hforeign⟩, fun _ => hforeign, hindices⟩

/-- The statements that create a table are told by the table and the profile, and they are read as its
creation, the addition of its foreign keys where that is possible, and the creation of its indices. -/
theorem createTable_eq_ok_iff (p : Profile) (t : Table) (script : List String) :
    p.createTable t = .ok script ↔ p.Creatable t ∧ script = p.creationScript t ∧
      ReadsAs p.vendor script (p.tableCreation t) := by
  rw [createTable_yields script, and_congr_right_iff]
  intro hcreatable
  refine ⟨fun h => ⟨h, createTable_reads ?_⟩, And.left⟩
  exact (createTable_yields script).mpr ⟨hcreatable, h⟩

end Profile

end ObjectSql
