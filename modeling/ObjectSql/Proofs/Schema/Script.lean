import Mathlib.Data.List.Perm.Basic
import ObjectSql.Proofs.Schema.Reading

/-!
# Scripts of a schema

A script is read statement by statement. What the script that creates a schema is read as tells what
the script that drops it consists of: the foreign keys that were added to tables, the tables from the
last to the first, and the sequences, each under the name it was created with.
-/
namespace ObjectSql

/-! ## Reading scripts -/

/-- The statements that the texts of a script are read as. -/
def ReadsAs (v : Vendor) (script : List String) (statements : List SchemaStatement) : Prop :=
  script.map (SchemaStatement.read v) = statements.map some

theorem map_eq_map_iff_forall₂ {α β γ : Type} {f : α → γ} {g : β → γ} {as : List α} {bs : List β} :
    as.map f = bs.map g ↔ List.Forall₂ (fun a b => f a = g b) as bs := by
  rw [← List.forall₂_eq_eq_eq, List.forall₂_map_left_iff, List.forall₂_map_right_iff]

theorem exists_mapM {α β ε : Type} {f : α → Except ε β} {P : α → β → Prop} {as : List α}
    (h : ∀ a ∈ as, ∃ b, f a = .ok b ∧ P a b) :
    ∃ bs, as.mapM f = .ok bs ∧ List.Forall₂ P as bs := by
  induction as with
  | nil => exact ⟨[], rfl, .nil⟩
  | cons a as ih =>
    obtain ⟨⟨b, hb, hP⟩, has⟩ := List.forall_mem_cons.mp h
    obtain ⟨bs, hbs, hall⟩ := ih has
    refine ⟨b :: bs, ?_, .cons hP hall⟩
    rw [List.mapM_cons, hb, hbs]
    rfl

namespace ReadsAs

variable {v : Vendor} {α : Type}

theorem single {text : String} {statement : SchemaStatement}
    (h : SchemaStatement.read v text = some statement) : ReadsAs v [text] [statement] :=
  congrArg (fun s => [s]) h

theorem append {script script' : List String} {statements statements' : List SchemaStatement}
    (h : ReadsAs v script statements) (h' : ReadsAs v script' statements') :
    ReadsAs v (script ++ script') (statements ++ statements') := by
  rw [ReadsAs, List.map_append, List.map_append, h, h']

theorem map {f : α → String} {g : α → SchemaStatement} (as : List α)
    (h : ∀ a, SchemaStatement.read v (f a) = some (g a)) : ReadsAs v (as.map f) (as.map g) := by
  simp [ReadsAs, Function.comp_def, h]

theorem of_forall₂ {g : α → SchemaStatement} {as : List α} {script : List String}
    (h : List.Forall₂ (fun a text => SchemaStatement.read v text = some (g a)) as script) :
    ReadsAs v script (as.map g) := by
  induction h with
  | nil => rfl
  | cons hread _ ih => exact (single hread).append ih

theorem flatten {g : α → List SchemaStatement} {as : List α} {scripts : List (List String)}
    (h : List.Forall₂ (fun a script => ReadsAs v script (g a)) as scripts) :
    ReadsAs v scripts.flatten (as.flatMap g) := by
  induction h with
  | nil => rfl
  | cons hread _ ih => exact append hread ih

end ReadsAs

/-! ## What the scripts consist of -/

namespace SchemaStatement

def droppedKey : SchemaStatement → Option SchemaStatement
  | addForeignKey table key _ => some (dropForeignKey table key)
  | _ => none

def droppedTable : SchemaStatement → Option SchemaStatement
  | createTable table => some (dropTable table)
  | _ => none

def droppedSequence : SchemaStatement → Option SchemaStatement
  | createSequence name => some (dropSequence name)
  | _ => none

end SchemaStatement

namespace Profile

open SchemaStatement Text

variable {p : Profile} {t : Table} {c : SchemaConfig} {created : List String}

def keyAddition (p : Profile) (t : Table) (k : Key) : SchemaStatement :=
  .addForeignKey (p.writtenTable t) (p.keyName t k) (p.identifier .table k.target)

def indexCreation (p : Profile) (t : Table) (k : Key) : SchemaStatement :=
  .createIndex (p.keyName t k) (p.writtenTable t)

def tableCreation (p : Profile) (t : Table) : List SchemaStatement :=
  .createTable (p.writtenTable t) ::
    (if p.supports .alterTableAddConstraint then t.foreignKeys.map (p.keyAddition t) else []) ++
    t.indices.map (p.indexCreation t)

def sequenceCreation (p : Profile) (o : SequenceOptions) : SchemaStatement :=
  .createSequence (p.identifier .sequence (o.name.getD ""))

def sequenceDrop (p : Profile) (o : SequenceOptions) : SchemaStatement :=
  .dropSequence (p.identifier .sequence (o.name.getD ""))

def keyDrop (p : Profile) (t : Table) (k : Key) : SchemaStatement :=
  .dropForeignKey (p.writtenTable t) (p.keyName t k)

def keyDrops (p : Profile) (tables : List Table) : List SchemaStatement :=
  if p.supports .alterTableDropConstraint then
    tables.flatMap fun t => t.foreignKeys.map (p.keyDrop t)
  else []

def definition (p : Profile) (t : Table) (lines : List String) : String :=
  "CREATE TABLE " ++ p.tableName t ++ " (\n" ++ joined ",\n" (lines.map ("    " ++ ·)) ++ "\n)"

theorem createTable_eq_ok {script : List String} (h : p.createTable t = .ok script) :
    ∃ lines keys indices, p.tableLines t = .ok lines ∧
      (if p.supports .alterTableAddConstraint then t.foreignKeys.mapM (p.addForeignKey t)
        else .ok []) = .ok keys ∧
      t.indices.mapM (p.createIndex t) = .ok indices ∧
      script = [p.definition t lines] ++ keys ++ indices := by
  obtain ⟨lines, hlines, h⟩ := Except.bind_eq_ok.mp h
  dsimp only at h
  split_ifs at h ⊢ <;>
    · obtain ⟨keys, hkeys, h⟩ := Except.bind_eq_ok.mp h
      obtain ⟨indices, hindices, h⟩ := Except.bind_eq_ok.mp h
      cases h
      exact ⟨lines, keys, indices, hlines, hkeys, hindices, rfl⟩

theorem createTable_reads {script : List String} (h : p.createTable t = .ok script) :
    ReadsAs p.vendor script (p.tableCreation t) := by
  obtain ⟨lines, keys, indices, -, hkeys, hindices, rfl⟩ := createTable_eq_ok h
  have hkeys : ReadsAs p.vendor keys
      (if p.supports .alterTableAddConstraint then t.foreignKeys.map (p.keyAddition t) else []) := by
    split_ifs at hkeys ⊢
    · exact .of_forall₂ ((mapM_eq_ok hkeys).imp fun _ _ => read_addForeignKey)
    · cases hkeys
      rfl
  have hindices : ReadsAs p.vendor indices (t.indices.map (p.indexCreation t)) :=
    .of_forall₂ ((mapM_eq_ok hindices).imp fun _ _ => read_createIndex)
  exact ((ReadsAs.single (read_definition p t _)).append hkeys).append hindices

/-- A schema that can be created has tables, and its sequences can be dropped. -/
theorem createSchema_reads (h : p.createSchema c = .ok created) :
    ∃ tables, c.build p = .ok tables ∧
      ReadsAs p.vendor created
        (c.sequences.map p.sequenceCreation ++ tables.flatMap p.tableCreation) ∧
      ∃ sequences, c.sequences.mapM p.dropNamedSequence = .ok sequences ∧
        ReadsAs p.vendor sequences (c.sequences.map p.sequenceDrop) := by
  obtain ⟨tables, htables, h⟩ := Except.bind_eq_ok.mp h
  obtain ⟨sequences, hsequences, h⟩ := Except.bind_eq_ok.mp h
  obtain ⟨scripts, hscripts, h⟩ := Except.bind_eq_ok.mp h
  cases h
  have hread : ReadsAs p.vendor sequences (c.sequences.map p.sequenceCreation) :=
    .of_forall₂ ((mapM_eq_ok hsequences).imp fun o text ho => by
      obtain ⟨_, -, hread, -⟩ := read_sequence ho
      exact hread)
  have hdrop : ∀ o ∈ c.sequences, ∃ text, p.dropNamedSequence o = .ok text ∧
      SchemaStatement.read p.vendor text = some (p.sequenceDrop o) := by
    intro o ho
    obtain ⟨text, -, htext⟩ := (exists_of_mapM hsequences).2 o ho
    obtain ⟨dropped, hdropped, -, hread⟩ := read_sequence htext
    exact ⟨dropped, hdropped, hread⟩
  obtain ⟨dropped, hdropped, hall⟩ := exists_mapM hdrop
  refine ⟨tables, htables, hread.append (.flatten ?_), dropped, hdropped, .of_forall₂ hall⟩
  exact (mapM_eq_ok hscripts).imp fun _ _ => createTable_reads

/-- Foreign keys are dropped wherever that is possible. -/
theorem dropForeignKeys_reads (p : Profile) (tables : List Table) :
    ∃ keys, p.dropForeignKeys tables = .ok keys ∧ ReadsAs p.vendor keys (p.keyDrops tables) := by
  unfold dropForeignKeys keyDrops
  by_cases hsupports : p.supports .alterTableDropConstraint
  · rw [if_pos hsupports, if_pos hsupports]
    have hkey (t : Table) (k : Key) : ∃ text, p.dropForeignKey t k = .ok text ∧
        SchemaStatement.read p.vendor text = some (p.keyDrop t k) := by
      have htext : ∃ text, p.dropForeignKey t k = .ok text := by
        rw [dropForeignKey, require, if_pos hsupports]
        exact ⟨_, rfl⟩
      obtain ⟨text, htext⟩ := htext
      exact ⟨text, htext, read_dropForeignKey htext⟩
    have htable (t : Table) : ∃ script, t.foreignKeys.mapM (p.dropForeignKey t) = .ok script ∧
        ReadsAs p.vendor script (t.foreignKeys.map (p.keyDrop t)) := by
      obtain ⟨script, hscript, hall⟩ := exists_mapM fun k (_ : k ∈ t.foreignKeys) => hkey t k
      exact ⟨script, hscript, .of_forall₂ hall⟩
    obtain ⟨scripts, hscripts, hall⟩ := exists_mapM fun t (_ : t ∈ tables) => htable t
    refine ⟨scripts.flatten, ?_, .flatten hall⟩
    rw [hscripts]
    rfl
  · rw [if_neg hsupports, if_neg hsupports]
    exact ⟨[], rfl, rfl⟩

/-! ## What is dropped -/

theorem filterMap_sequences (p : Profile) (sequences : List SequenceOptions) :
    (sequences.map p.sequenceCreation).filterMap droppedKey = [] ∧
      (sequences.map p.sequenceCreation).filterMap droppedTable = [] ∧
      (sequences.map p.sequenceCreation).filterMap droppedSequence =
        sequences.map p.sequenceDrop := by
  refine ⟨?_, ?_, ?_⟩ <;> rw [List.filterMap_map]
  · exact List.filterMap_none sequences
  · exact List.filterMap_none sequences
  · exact congrFun List.filterMap_eq_map sequences

theorem filterMap_tableCreation (p : Profile) (t : Table) :
    (p.tableCreation t).filterMap droppedKey =
        (if p.supports .alterTableAddConstraint then t.foreignKeys.map (p.keyDrop t) else []) ∧
      (p.tableCreation t).filterMap droppedTable = [.dropTable (p.writtenTable t)] ∧
      (p.tableCreation t).filterMap droppedSequence = [] := by
  have hindices (f : SchemaStatement → Option SchemaStatement)
      (hf : ∀ k, f (p.indexCreation t k) = none) :
      (t.indices.map (p.indexCreation t)).filterMap f = [] := by
    simp [List.filterMap_map, hf]
  have hkeys (f : SchemaStatement → Option SchemaStatement)
      (hf : ∀ k, f (p.keyAddition t k) = none) :
      (t.foreignKeys.map (p.keyAddition t)).filterMap f = [] := by
    simp [List.filterMap_map, hf]
  have hdrops : (t.foreignKeys.map (p.keyAddition t)).filterMap droppedKey =
      t.foreignKeys.map (p.keyDrop t) := by
    rw [List.filterMap_map]
    exact congrFun List.filterMap_eq_map t.foreignKeys
  unfold tableCreation
  refine ⟨?_, ?_, ?_⟩ <;> rw [List.filterMap_append, hindices _ fun _ => rfl, List.append_nil] <;>
    split_ifs
  · exact hdrops
  · rfl
  · exact congrArg (_ :: ·) (hkeys _ fun _ => rfl)
  · rfl
  · exact hkeys _ fun _ => rfl
  · rfl

theorem filterMap_tables (p : Profile) (tables : List Table) :
    (tables.flatMap p.tableCreation).filterMap droppedKey =
        (if p.supports .alterTableAddConstraint then
          tables.flatMap fun t => t.foreignKeys.map (p.keyDrop t) else []) ∧
      (tables.flatMap p.tableCreation).filterMap droppedTable =
        tables.map (fun t => .dropTable (p.writtenTable t)) ∧
      (tables.flatMap p.tableCreation).filterMap droppedSequence = [] := by
  have h := p.filterMap_tableCreation
  simp only [List.filterMap_flatMap, fun t => (h t).1, fun t => (h t).2.1, fun t => (h t).2.2]
  refine ⟨?_, List.map_eq_flatMap.symm, ?_⟩
  · split_ifs <;> simp
  · simp

/-- If foreign keys are dropped from tables where they are added to them, the script that drops a schema drops what
the script that creates it has made: these foreign keys, then the tables from the last to the first, then
the sequences. -/
theorem dropSchema_drops_created
    (halike : p.supports .alterTableAddConstraint = p.supports .alterTableDropConstraint)
    (h : p.createSchema c = .ok created) :
    ∃ made keys dropped, ReadsAs p.vendor created made ∧ p.dropSchema c = .ok dropped ∧
      ReadsAs p.vendor dropped
        (keys ++ (made.filterMap droppedTable).reverse ++ made.filterMap droppedSequence) ∧
      keys.Perm (made.filterMap droppedKey) := by
  obtain ⟨tables, htables, hcreated, sequences, hsequences, hdropped⟩ := createSchema_reads h
  obtain ⟨keys, hkeys, hread⟩ := p.dropForeignKeys_reads tables.reverse
  obtain ⟨hkey, htable, hsequence⟩ := p.filterMap_tables tables
  obtain ⟨hkey', htable', hsequence'⟩ := p.filterMap_sequences c.sequences
  have hdrops : ReadsAs p.vendor (tables.reverse.map p.dropTable)
      (tables.reverse.map fun t => .dropTable (p.writtenTable t)) :=
    .map tables.reverse p.read_dropTable
  refine ⟨_, p.keyDrops tables.reverse, keys ++ tables.reverse.map p.dropTable ++ sequences,
    hcreated, ?_, ?_, ?_⟩
  · rw [dropSchema, htables]
    simp only [bind, Except.bind, hkeys, hsequences]
    rfl
  · rw [List.filterMap_append, List.filterMap_append, htable', htable, hsequence', hsequence,
      List.nil_append, List.append_nil, ← List.map_reverse]
    exact (hread.append hdrops).append hdropped
  · rw [List.filterMap_append, hkey', hkey, List.nil_append, halike, keyDrops]
    split_ifs
    · exact (List.reverse_perm tables).flatMap_right _
    · exact .refl _

/-- An order with its lines, which are listed before the orders that they refer to. -/
def orderSchema : SchemaConfig where
  tables := [
    { name := "line_item"
      schema := none
      columns := [⟨"id", "i64", none, none, none, false, false, none⟩,
        ⟨"order_id", "i64", none, none, none, true, false, none⟩]
      primaryKey := none
      unique := []
      indices := []
      foreignKeys := [⟨none, ["order_id"], "orders", ["id"], none, none⟩] },
    { name := "orders"
      schema := none
      columns := [⟨"id", "i64", none, none, none, false, false, none⟩]
      primaryKey := some ⟨none, ["id"]⟩
      unique := []
      indices := []
      foreignKeys := [] }]
  sequences := [⟨some "order ids", none, none, none, none, none⟩]

theorem dropSchema_drops_orders : ∃ (p : Profile) (created : List String),
    p.supports .alterTableAddConstraint = p.supports .alterTableDropConstraint ∧
      p.createSchema orderSchema = .ok created ∧
      ∃ made keys dropped, ReadsAs p.vendor created made ∧ p.dropSchema orderSchema = .ok dropped ∧
        ReadsAs p.vendor dropped
          (keys ++ (made.filterMap droppedTable).reverse ++ made.filterMap droppedSequence) ∧
        keys.Perm (made.filterMap droppedKey) := by
  have hcreated : ((ofVendor .postgresql ⟨16, 0, 0⟩).createSchema orderSchema).toOption.any
      fun _ => true := by decide +kernel
  obtain ⟨created, hcreated, -⟩ := Except.exists_of_any hcreated
  exact ⟨ofVendor .postgresql ⟨16, 0, 0⟩, created, by decide, hcreated,
    dropSchema_drops_created (by decide) hcreated⟩

end Profile

end ObjectSql
