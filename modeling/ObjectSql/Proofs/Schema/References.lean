import ObjectSql.Proofs.Schema.Order

/-!
# Names of referenced tables

A foreign key names the table that it refers to without a schema, wherever its text stands. A table is
created under a name that is qualified by its schema if the product allows it. So a key names a table as
it is created exactly if the table is created without its schema.
-/
namespace ObjectSql

def readReference (v : Vendor) (clause : String) : Option QualifiedName :=
  match (words v clause).dropWhile (· ≠ ")") with
  | _ :: "REFERENCES" :: ws => (SchemaStatement.readTable ws).map Prod.fst
  | _ => none

namespace Profile

variable {p : Profile} {c : SchemaConfig} {created : List String}

/-- The text of a foreign key in a statement about its table: it is added to the table, or it is a line
of the definition. -/
inductive Declares (p : Profile) (t : Table) (clause : String) : String → Prop
  | added : Declares p t clause ("ALTER TABLE " ++ p.tableName t ++ " ADD " ++ clause)
  | line {lines : List String} (h : clause ∈ lines) : Declares p t clause (p.definition t lines)

/-- A script has a text for the foreign key of a table, and in it the key refers to the name. -/
def WritesReference (p : Profile) (created : List String) (t : TableConfig) (r : ForeignKeyConfig)
    (q : QualifiedName) : Prop :=
  ∃ table k clause, t.build p = .ok table ∧ (r, k) ∈ t.foreignKeys.zip table.foreignKeys ∧
    p.foreignKeyClause table k = .ok clause ∧ (∃ text ∈ created, p.Declares table clause text) ∧
    readReference p.vendor clause = some q

/-- A script has a definition of the table, and it creates the table under the name. -/
def WritesTable (p : Profile) (created : List String) (u : TableConfig) (q : QualifiedName) : Prop :=
  ∃ table lines, u.build p = .ok table ∧ p.definition table lines ∈ created ∧
    SchemaStatement.read p.vendor (p.definition table lines) = some (.createTable q)

/-- Every foreign key to a table of the description names that table as the script creates it. -/
def ReferencesAsCreated (p : Profile) (c : SchemaConfig) (created : List String) : Prop :=
  ∀ t ∈ c.tables, ∀ r ∈ t.foreignKeys, ∀ u ∈ c.tables, r.references = u.name →
    ∃ q, p.WritesReference created t r q ∧ p.WritesTable created u q

/-! ## Names in the texts -/

theorem readReference_clause {t : Table} {k : Key} {clause : String}
    (h : p.foreignKeyClause t k = .ok clause) :
    readReference p.vendor clause = some ⟨none, p.identifier .table k.target⟩ := by
  obtain ⟨columns, rest, hcolumns, hwords⟩ := words_foreignKeyClause h
  have hkey : p.keyName t k ≠ ")" := (p.identifier_isName _ _).ne_closingParen
  have hskip : (words p.vendor clause).dropWhile (· ≠ ")") =
      ")" :: "REFERENCES" :: p.identifier .table k.target :: "(" :: rest := by
    have hne : ∀ w ∈ "CONSTRAINT" :: p.keyName t k :: "FOREIGN" :: "KEY" :: "(" :: columns,
        decide (w ≠ ")") := by
      simpa [hkey] using hcolumns
    rw [hwords]
    exact List.dropWhile_append_of_pos hne
  have hhead : ("(" :: rest).head? ≠ some "." := by simp
  rw [readReference, hskip]
  exact congrArg (Option.map Prod.fst)
    (SchemaStatement.readTable_words ⟨none, p.identifier .table k.target⟩ hhead)

theorem WritesReference.name_eq {t : TableConfig} {r : ForeignKeyConfig} {q : QualifiedName}
    (h : p.WritesReference created t r q) : q = ⟨none, p.identifier .table r.references⟩ := by
  obtain ⟨table, k, clause, hbuild, hkey, hclause, -, hread⟩ := h
  have htargets := (List.forall₂_iff_zip.mp
    (map_eq_map_iff_forall₂.mp (TableConfig.build_eq_ok hbuild).2.2.symm)).2 hkey
  rw [htargets]
  exact (Option.some.inj ((readReference_clause hclause).symm.trans hread)).symm

theorem WritesTable.name_eq {u : TableConfig} {q : QualifiedName} (h : p.WritesTable created u q) :
    q.schema = (if p.supports .schemasInTableDefinitions then u.schema.map (p.identifier .table)
      else none) ∧ q.name = p.identifier .table u.name := by
  obtain ⟨table, lines, hbuild, -, hread⟩ := h
  obtain ⟨hname, hschema, -⟩ := TableConfig.build_eq_ok hbuild
  have hq := (read_definition p table _).symm.trans hread
  cases hq
  rw [← hname, ← hschema]
  exact ⟨rfl, rfl⟩

/-! ## Where the texts stand -/

theorem tableLines_foreign {t : Table} {lines : List String} (h : p.tableLines t = .ok lines)
    (hadd : p.supports .alterTableAddConstraint = false) {k : Key} (hk : k ∈ t.foreignKeys) :
    ∃ clause ∈ lines, p.foreignKeyClause t k = .ok clause := by
  obtain ⟨columns, -, h⟩ := Except.bind_eq_ok.mp h
  have hforeign : ∃ before foreign, t.foreignKeys.mapM (p.foreignKeyClause t) = .ok foreign ∧
      lines = before ++ foreign := by
    simp only [hadd, Bool.false_eq_true, if_false] at h
    -- the primary key adds a line or none, and what follows is the same
    (repeat' split at h) <;>
      · obtain ⟨primary, -, h⟩ := Except.bind_eq_ok.mp h
        obtain ⟨unique, -, h⟩ := Except.bind_eq_ok.mp h
        obtain ⟨foreign, hforeign, h⟩ := Except.bind_eq_ok.mp h
        cases h
        exact ⟨_, foreign, hforeign, rfl⟩
  obtain ⟨before, foreign, hforeign, rfl⟩ := hforeign
  obtain ⟨clause, hclause, htext⟩ := (exists_of_mapM hforeign).2 k hk
  exact ⟨clause, List.mem_append_right _ hclause, htext⟩

/-- The statements that create a table have a text for each of its foreign keys. -/
theorem createTable_declares {t : Table} {script : List String} (h : p.createTable t = .ok script)
    {k : Key} (hk : k ∈ t.foreignKeys) :
    ∃ clause, p.foreignKeyClause t k = .ok clause ∧ ∃ text ∈ script, p.Declares t clause text := by
  obtain ⟨lines, keys, indices, hlines, hkeys, -, rfl⟩ := createTable_eq_ok h
  cases hadd : p.supports .alterTableAddConstraint with
  | true =>
    rw [hadd] at hkeys
    obtain ⟨text, htext, hadded⟩ := (exists_of_mapM hkeys).2 k hk
    obtain ⟨clause, hclause, rfl⟩ := addForeignKey_eq_ok hadded
    exact ⟨clause, hclause, _, by simp [htext], .added⟩
  | false =>
    obtain ⟨clause, hline, hclause⟩ := tableLines_foreign hlines hadd hk
    exact ⟨clause, hclause, _, by simp, .line hline⟩

theorem createSchema_table (h : p.createSchema c = .ok created) {t : TableConfig}
    (ht : t ∈ c.tables) :
    ∃ table script, t.build p = .ok table ∧ p.createTable table = .ok script ∧ script ⊆ created := by
  obtain ⟨tables, htables, h⟩ := Except.bind_eq_ok.mp h
  obtain ⟨sequences, -, h⟩ := Except.bind_eq_ok.mp h
  obtain ⟨scripts, hscripts, h⟩ := Except.bind_eq_ok.mp h
  cases h
  obtain ⟨table, htable, hbuild⟩ := (exists_of_mapM htables).2 t ht
  obtain ⟨script, hscript, hcreate⟩ := (exists_of_mapM hscripts).2 table htable
  refine ⟨table, script, hbuild, hcreate, fun text htext => ?_⟩
  exact List.mem_append_right _ (List.mem_flatten_of_mem hscript htext)

theorem createSchema_writesReference (h : p.createSchema c = .ok created) {t : TableConfig}
    (ht : t ∈ c.tables) {r : ForeignKeyConfig} (hr : r ∈ t.foreignKeys) :
    p.WritesReference created t r ⟨none, p.identifier .table r.references⟩ := by
  obtain ⟨table, script, hbuild, hcreate, hsubset⟩ := createSchema_table h ht
  obtain ⟨hlength, htargets⟩ := List.forall₂_iff_zip.mp
    (map_eq_map_iff_forall₂.mp (TableConfig.build_eq_ok hbuild).2.2.symm)
  obtain ⟨i, hi, rfl⟩ := List.getElem_of_mem hr
  have hkey : (t.foreignKeys[i], table.foreignKeys[i]) ∈ t.foreignKeys.zip table.foreignKeys := by
    rw [← List.getElem_zip (h := by simpa [← hlength] using hi)]
    exact List.getElem_mem _
  obtain ⟨clause, hclause, text, htext, hdeclares⟩ :=
    createTable_declares hcreate (List.getElem_mem (hlength ▸ hi))
  refine ⟨table, _, clause, hbuild, hkey, hclause, ⟨text, hsubset htext, hdeclares⟩, ?_⟩
  rw [readReference_clause hclause, htargets hkey]

theorem createSchema_writesTable (h : p.createSchema c = .ok created) {u : TableConfig}
    (hu : u ∈ c.tables) : ∃ q, p.WritesTable created u q := by
  obtain ⟨table, script, hbuild, hcreate, hsubset⟩ := createSchema_table h hu
  obtain ⟨lines, keys, indices, -, -, -, rfl⟩ := createTable_eq_ok hcreate
  exact ⟨p.writtenTable table, table, lines, hbuild, hsubset (by simp), read_definition p table _⟩

/-- Foreign keys name the tables of a schema as they are created exactly if no table that one refers to has a
schema of its own, unless the product leaves schemas out of definitions. -/
theorem createSchema_references_iff (h : p.createSchema c = .ok created) :
    p.ReferencesAsCreated c created ↔
      ∀ t ∈ c.tables, ∀ r ∈ t.foreignKeys, ∀ u ∈ c.tables, r.references = u.name →
        p.supports .schemasInTableDefinitions → u.schema = none := by
  constructor
  · intro hnames t ht r hr u hu hname hsupports
    obtain ⟨q, hreference, htable⟩ := hnames t ht r hr u hu hname
    obtain ⟨hschema, -⟩ := htable.name_eq
    rw [hreference.name_eq, if_pos hsupports] at hschema
    exact Option.map_eq_none_iff.mp hschema.symm
  · intro hplain t ht r hr u hu hname
    obtain ⟨q, hq⟩ := createSchema_writesTable h hu
    have hschema : q.schema = none := by
      rw [hq.name_eq.1]
      split_ifs with hsupports
      · rw [hplain t ht r hr u hu hname hsupports]
        rfl
      · rfl
    have hwritten : q = ⟨none, p.identifier .table r.references⟩ := by
      rw [hname, ← hq.name_eq.2, ← hschema]
    exact ⟨q, hwritten ▸ createSchema_writesReference h ht hr, hq⟩

def salesSchema : SchemaConfig where
  tables := orderSchema.tables.reverse.map fun t => { t with schema := some "sales" }
  sequences := []

theorem createSchema_references_iff_sales :
    let p := ofVendor .postgresql ⟨16, 0, 0⟩
    ∃ created, p.createSchema salesSchema = .ok created ∧
      (p.ReferencesAsCreated salesSchema created ↔
        ∀ t ∈ salesSchema.tables, ∀ r ∈ t.foreignKeys, ∀ u ∈ salesSchema.tables,
          r.references = u.name → p.supports .schemasInTableDefinitions → u.schema = none) := by
  intro p
  have hcreated : (p.createSchema salesSchema).toOption.any fun _ => true := by decide +kernel
  obtain ⟨created, hcreated, -⟩ := Except.exists_of_any hcreated
  exact ⟨created, hcreated, createSchema_references_iff hcreated⟩

/-- The orders are created in their schema, and their lines refer to orders outside of it. -/
theorem createSchema_references_fail :
    let p := ofVendor .postgresql ⟨16, 0, 0⟩
    ∃ created, p.createSchema salesSchema = .ok created ∧
      ¬p.ReferencesAsCreated salesSchema created := by
  intro p
  have hcreated : (p.createSchema salesSchema).toOption.any fun _ => true := by decide +kernel
  have hrefers : ∃ t ∈ salesSchema.tables, ∃ r ∈ t.foreignKeys, ∃ u ∈ salesSchema.tables,
      r.references = u.name ∧ u.schema ≠ none := by decide
  obtain ⟨created, hcreated, -⟩ := Except.exists_of_any hcreated
  obtain ⟨t, ht, r, hr, u, hu, hname, hschema⟩ := hrefers
  refine ⟨created, hcreated, fun hnames => hschema ?_⟩
  obtain ⟨q, hreference, htable⟩ := hnames t ht r hr u hu hname
  have hwritten := htable.name_eq.1
  rw [hreference.name_eq, if_pos (by decide)] at hwritten
  exact Option.map_eq_none_iff.mp hwritten.symm

end Profile

end ObjectSql
