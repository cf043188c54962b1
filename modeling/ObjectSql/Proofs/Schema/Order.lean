import ObjectSql.Proofs.Schema.Script

/-!
# The order of a script

The foreign keys of a table are added right behind its definition. So they refer to tables that have
been created before exactly if the description lists the tables in such an order, which there is none of
for tables that refer to each other.
-/
namespace ObjectSql

/-! ## The order of the statements -/

/-- Whether a statement adds a foreign key to the table that another one creates. -/
def SchemaStatement.refersTo : SchemaStatement → SchemaStatement → Bool
  | addForeignKey _ _ target, createTable table => table.name == target
  | _, _ => false

/-- No foreign key is added before a table that it refers to is created. -/
def ReferencesFollow (v : Vendor) (script : List String) : Prop :=
  script.Pairwise fun earlier later => ∀ statement ∈ SchemaStatement.read v earlier,
    ∀ other ∈ SchemaStatement.read v later, ¬statement.refersTo other

/-- Whether a table has a foreign key to another one, told by names as they are written. -/
def TableConfig.RefersTo (p : Profile) (t other : TableConfig) : Prop :=
  ∃ r ∈ t.foreignKeys, p.identifier .table r.references = p.identifier .table other.name

/-- No table refers to one that is listed behind it. -/
def SchemaConfig.ListsReferencedFirst (c : SchemaConfig) (p : Profile) : Prop :=
  c.tables.Pairwise fun earlier later => ¬earlier.RefersTo p later

theorem ReadsAs.referencesFollow_iff {v : Vendor} {script : List String}
    {statements : List SchemaStatement} (h : ReadsAs v script statements) :
    ReferencesFollow v script ↔
      statements.Pairwise fun earlier later => ¬earlier.refersTo later := by
  have hread : ReferencesFollow v script ↔ (script.map (SchemaStatement.read v)).Pairwise
      fun earlier later => ∀ statement ∈ earlier, ∀ other ∈ later, ¬statement.refersTo other := by
    rw [List.pairwise_map, ReferencesFollow]
  rw [hread, h, List.pairwise_map]
  simp

theorem Table.fillKey_kind {t : Table} {names : List String} {k k' : Key}
    (h : t.fillKey k names = .ok k') : k'.kind = k.kind := by
  induction names generalizing k with
  | nil => cases h; rfl
  | cons name names ih =>
    obtain ⟨c, -, h⟩ := Except.bind_eq_ok.mp h
    obtain ⟨next, hnext, h⟩ := Except.bind_eq_ok.mp h
    obtain ⟨-, -, rfl⟩ := Except.map_eq_ok.mp hnext
    exact (ih h).trans rfl

namespace TableConfig

variable {p : Profile}

/-- Columns that are added leave the name of a table and its schema. -/
theorem addColumns_frame {t t' : Table} {columns : List ColumnConfig}
    (h : addColumns p t columns = .ok t') : t'.name = t.name ∧ t'.schema = t.schema := by
  induction columns generalizing t with
  | nil => cases h; exact ⟨rfl, rfl⟩
  | cons c columns ih =>
    obtain ⟨column, -, h⟩ := Except.bind_eq_ok.mp h
    obtain ⟨next, hnext, h⟩ := Except.bind_eq_ok.mp h
    unfold Table.addColumn at hnext
    split_ifs at hnext
    cases hnext
    obtain ⟨hname, hschema⟩ := ih h
    exact ⟨hname, hschema⟩

/-- A table keeps its name, its schema and what its foreign keys refer to. -/
theorem build_eq_ok {c : TableConfig} {t : Table} (h : c.build p = .ok t) :
    t.name = c.name ∧ t.schema = c.schema ∧
      t.foreignKeys.map Key.target = c.foreignKeys.map (·.references) := by
  obtain ⟨named, hnamed, h⟩ := Except.bind_eq_ok.mp h
  obtain ⟨primaryKey, -, h⟩ := Except.bind_eq_ok.mp h
  obtain ⟨candidateKeys, -, h⟩ := Except.bind_eq_ok.mp h
  obtain ⟨indices, -, h⟩ := Except.bind_eq_ok.mp h
  obtain ⟨foreignKeys, hforeign, h⟩ := Except.bind_eq_ok.mp h
  cases h
  obtain ⟨hname, hschema⟩ := addColumns_frame hnamed
  refine ⟨hname, hschema, ?_⟩
  refine map_eq_map_iff_forall₂.mpr ((mapM_eq_ok hforeign).flip.imp fun k r hk => ?_)
  rw [Key.target, Table.fillKey_kind hk]
  rfl

end TableConfig

namespace Profile

variable {p : Profile} {c : SchemaConfig} {created : List String}

theorem mem_tableCreation (hadd : p.supports .alterTableAddConstraint) {t : Table}
    {s : SchemaStatement} :
    s ∈ p.tableCreation t ↔ s = .createTable (p.writtenTable t) ∨
      (∃ k ∈ t.foreignKeys, p.keyAddition t k = s) ∨ ∃ k ∈ t.indices, p.indexCreation t k = s := by
  simp [tableCreation, hadd]

/-- Within the statements of a table the definition stands in front. -/
theorem tableCreation_pairwise (hadd : p.supports .alterTableAddConstraint) (t : Table) :
    (p.tableCreation t).Pairwise fun earlier later => ¬earlier.refersTo later := by
  rw [tableCreation, if_pos hadd, List.cons_append, List.pairwise_cons]
  constructor
  · intro later _
    simp [SchemaStatement.refersTo]
  · refine List.pairwise_of_forall_mem_list fun earlier _ later hlater => ?_
    rcases List.mem_append.mp hlater with hkey | hindex
    · obtain ⟨k, -, rfl⟩ := List.mem_map.mp hkey
      cases earlier <;> simp [SchemaStatement.refersTo, keyAddition]
    · obtain ⟨k, -, rfl⟩ := List.mem_map.mp hindex
      cases earlier <;> simp [SchemaStatement.refersTo, indexCreation]

theorem refersTo_tableCreation_iff (hadd : p.supports .alterTableAddConstraint) (t t' : Table) :
    (∀ earlier ∈ p.tableCreation t, ∀ later ∈ p.tableCreation t', ¬earlier.refersTo later) ↔
      ∀ k ∈ t.foreignKeys, p.identifier .table k.target ≠ p.identifier .table t'.name := by
  constructor
  · intro h k hk heq
    have hkey := (mem_tableCreation hadd).mpr (.inr (.inl ⟨k, hk, rfl⟩))
    have htable := (mem_tableCreation (t := t') hadd).mpr (.inl rfl)
    apply h _ hkey _ htable
    simp [SchemaStatement.refersTo, keyAddition, writtenTable, heq]
  · intro h earlier hearlier later hlater
    rcases (mem_tableCreation hadd).mp hearlier with rfl | ⟨k, hk, rfl⟩ | ⟨k, -, rfl⟩
    · simp [SchemaStatement.refersTo]
    · rcases (mem_tableCreation hadd).mp hlater with rfl | ⟨k', -, rfl⟩ | ⟨k', -, rfl⟩
      · simpa [SchemaStatement.refersTo, keyAddition, writtenTable] using (h k hk).symm
      · simp [SchemaStatement.refersTo, keyAddition]
      · simp [SchemaStatement.refersTo, keyAddition, indexCreation]
    · simp [SchemaStatement.refersTo, indexCreation]

theorem listsReferencedFirst_iff {tables : List Table} (h : c.build p = .ok tables) :
    c.ListsReferencedFirst p ↔ tables.Pairwise fun earlier later => ∀ k ∈ earlier.foreignKeys,
      p.identifier .table k.target ≠ p.identifier .table later.name := by
  have hparts : c.tables.map (fun t => (t.name, t.foreignKeys.map (·.references))) =
      tables.map fun t => (t.name, t.foreignKeys.map Key.target) :=
    map_eq_map_iff_forall₂.mpr ((mapM_eq_ok h).imp fun a t ht => by
      obtain ⟨hname, -, htargets⟩ := TableConfig.build_eq_ok ht
      rw [hname, htargets])
  have hconfig : c.ListsReferencedFirst p ↔
      (c.tables.map fun t => (t.name, t.foreignKeys.map (·.references))).Pairwise
        fun earlier later => ∀ r ∈ earlier.2,
          p.identifier .table r ≠ p.identifier .table later.1 := by
    simp [SchemaConfig.ListsReferencedFirst, TableConfig.RefersTo, List.pairwise_map]
  rw [hconfig, hparts, List.pairwise_map]
  simp

/-- Where foreign keys are added to tables, the script of a schema adds none before the table that it refers to is
created, exactly if no table is listed before one that it refers to. -/
theorem createSchema_order_iff (hadd : p.supports .alterTableAddConstraint)
    (h : p.createSchema c = .ok created) :
    ReferencesFollow p.vendor created ↔ c.ListsReferencedFirst p := by
  obtain ⟨tables, htables, hcreated, -⟩ := createSchema_reads h
  have hsequence (o : SequenceOptions) (later : SchemaStatement) :
      ¬(p.sequenceCreation o).refersTo later := by
    simp [SchemaStatement.refersTo, sequenceCreation]
  rw [hcreated.referencesFollow_iff, listsReferencedFirst_iff htables, List.pairwise_append,
    List.pairwise_flatMap]
  simp only [refersTo_tableCreation_iff hadd]
  constructor
  · rintro ⟨-, ⟨-, htables⟩, -⟩
    exact htables
  · intro hordered
    refine ⟨?_, ⟨fun t _ => tableCreation_pairwise hadd t, hordered⟩, ?_⟩
    · exact List.pairwise_map.mpr (List.pairwise_of_forall fun o _ => hsequence o _)
    · intro earlier hearlier later _
      obtain ⟨o, -, rfl⟩ := List.mem_map.mp hearlier
      exact hsequence o later

theorem createSchema_order_iff_orders :
    ∃ (p : Profile) (created : List String), p.supports .alterTableAddConstraint ∧
      p.createSchema orderSchema = .ok created ∧
      (ReferencesFollow p.vendor created ↔ orderSchema.ListsReferencedFirst p) := by
  let p := ofVendor .postgresql ⟨16, 0, 0⟩
  have hadd : p.supports .alterTableAddConstraint := by decide
  have hcreated : (p.createSchema orderSchema).toOption.any fun _ => true := by decide +kernel
  obtain ⟨created, hcreated, -⟩ := Except.exists_of_any hcreated
  exact ⟨p, created, hadd, hcreated, createSchema_order_iff hadd hcreated⟩

/-- The lines of an order get their foreign key before the orders are created. -/
theorem createSchema_order_fails :
    ∃ (p : Profile) (created : List String), p.supports .alterTableAddConstraint ∧
      p.createSchema orderSchema = .ok created ∧ ¬ReferencesFollow p.vendor created := by
  let p := ofVendor .postgresql ⟨16, 0, 0⟩
  have hcreated : (p.createSchema orderSchema).toOption.any fun _ => true := by decide +kernel
  have hstatements : (orderSchema.build p).toOption.any fun tables =>
      !decide ((orderSchema.sequences.map p.sequenceCreation ++
        tables.flatMap p.tableCreation).Pairwise fun earlier later => ¬earlier.refersTo later) := by
    decide +kernel
  obtain ⟨created, hcreated, -⟩ := Except.exists_of_any hcreated
  obtain ⟨tables, htables, hread, -⟩ := createSchema_reads hcreated
  obtain ⟨built, hbuilt, hahead⟩ := Except.exists_of_any hstatements
  cases htables.symm.trans hbuilt
  refine ⟨p, created, by decide, hcreated, fun hfollow => ?_⟩
  exact absurd (hread.referencesFollow_iff.mp hfollow) (by simpa using hahead)

end Profile

/-- Tables that refer to each other are not listed in such an order, wherever they stand. -/
theorem SchemaConfig.not_listsReferencedFirst {c : SchemaConfig} {p : Profile} {t u : TableConfig}
    (ht : t ∈ c.tables) (hu : u ∈ c.tables) (hne : t ≠ u) (htu : t.RefersTo p u)
    (hut : u.RefersTo p t) : ¬c.ListsReferencedFirst p := by
  intro hordered
  have hpairs := List.pairwise_iff_getElem.mp hordered
  obtain ⟨i, hi, rfl⟩ := List.getElem_of_mem ht
  obtain ⟨j, hj, rfl⟩ := List.getElem_of_mem hu
  -- whichever of the two is listed first refers to the other one
  rcases Nat.lt_trichotomy i j with hlt | rfl | hlt
  · exact hpairs i j hi hj hlt htu
  · exact hne rfl
  · exact hpairs j i hj hi hlt hut

end ObjectSql
