import ObjectSql.Proofs.Schema.Creation
import ObjectSql.Proofs.Schema.References

/-!
# Column lists of foreign keys

The text of a foreign key has two lists of columns, which are read back from it: those of the key, and those
of the table that it refers to. A key without columns of its own is refused, but nothing is asked of the
columns that it refers to. So the lists of a script are equally long exactly if those of the description
are.
-/
namespace ObjectSql

open Text

/-! ## Reading the lists -/

/-- Names with commas between them up to the closing parenthesis, and the words behind it. -/
def readNames : List String → Option (List String × List String)
  | ")" :: ws => some ([], ws)
  | name :: ")" :: ws => some ([name], ws)
  | name :: "," :: ws => (readNames ws).map (Prod.map (name :: ·) id)
  | _ => none

/-- The list of the columns that are referred to, behind the columns of the key. -/
def readReferenced (columns : List String) : List String → Option (List String × List String)
  | "REFERENCES" :: _ :: "(" :: ws => (readNames ws).map fun (referenced, _) => (columns, referenced)
  | _ => none

def readLists : List String → Option (List String × List String)
  | "CONSTRAINT" :: _ :: "FOREIGN" :: "KEY" :: "(" :: ws =>
    (readNames ws).bind fun (columns, ws) => readReferenced columns ws
  | _ => none

def readColumnLists (v : Vendor) (clause : String) : Option (List String × List String) :=
  readLists (words v clause)

theorem readNames_joined {v : Vendor} {names : List String} (h : ∀ name ∈ names, IsName v name)
    (rest : String) :
    readNames (words v (joined ", " names ++ (")" ++ rest))) = some (names, words v rest) := by
  have hclose : words v (")" ++ rest) = ")" :: words v rest :=
    words_fixed ")" [")"] (by cases v <;> rfl) rest
  induction names with
  | nil =>
    rw [joined, String.intercalate_nil, String.empty_append, hclose]
    rfl
  | cons name names ih =>
    obtain ⟨hname, hnames⟩ := List.forall_mem_cons.mp h
    have hne := hname.ne_closingParen -- tells the name from the end of the list
    cases names with
    | nil =>
      rw [joined, String.intercalate_singleton, hname.words_append (.append rfl _), hclose]
      simp [readNames]
    | cons next names =>
      rw [joined, String.intercalate_cons_cons, ← joined, String.append_assoc, String.append_assoc,
        hname.words_append (.append rfl _), words_fixed ", " [","] (by cases v <;> rfl)]
      simp [readNames, ih hnames]

namespace Profile

variable {p : Profile} {c : SchemaConfig} {created : List String}

/-- The lists are read back as the columns of the key and of its reference, as they are written. -/
theorem readColumnLists_clause {t : Table} {k : Key} {r : Reference} {clause : String}
    (hkind : k.kind = .foreign r) (h : p.foreignKeyClause t k = .ok clause) :
    readColumnLists p.vendor clause =
      some (k.setColumns.map fun c => p.columnName c.name, r.columns.map p.columnName) := by
  obtain ⟨-, rfl⟩ := (foreignKeyClause_yields clause).mp h
  have hcolumns : ∀ name ∈ k.setColumns.map fun c => p.columnName c.name, IsName p.vendor name :=
    List.forall_mem_map.mpr fun c _ => p.identifier_isName .column c.name
  have hreferenced : ∀ name ∈ r.columns.map p.columnName, IsName p.vendor name :=
    List.forall_mem_map.mpr fun name _ => p.identifier_isName .column name
  have hkey : IsName p.vendor (p.keyName t k) := p.identifier_isName _ _
  have htarget := p.identifier_isName .table r.table
  -- behind each list stands a parenthesis, and then a text that is left open
  obtain ⟨actions, hactions⟩ : ∃ actions, p.foreignKeyText t k = "CONSTRAINT " ++ (p.keyName t k ++
      (" FOREIGN KEY " ++ ("(" ++ (joined ", " (k.setColumns.map fun c => p.columnName c.name) ++
        (")" ++ (" REFERENCES " ++ (p.identifier .table r.table ++ (" (" ++
          (joined ", " (r.columns.map p.columnName) ++ (")" ++ actions)))))))))) := by
    refine ⟨actionClause "DELETE" r.onDelete ++ actionClause "UPDATE" r.onUpdate, ?_⟩
    simp only [foreignKeyText, hkind, columnNames, String.append_assoc]
  have hfront := readNames_joined hcolumns (" REFERENCES " ++ (p.identifier .table r.table ++ (" (" ++
    (joined ", " (r.columns.map p.columnName) ++ (")" ++ actions)))))
  have hback := readNames_joined hreferenced actions
  rw [readColumnLists, hactions,
    words_fixed "CONSTRAINT " ["CONSTRAINT"] (by cases p.vendor <;> rfl),
    hkey.words_append (.append rfl _),
    words_fixed " FOREIGN KEY " ["FOREIGN", "KEY"] (by cases p.vendor <;> rfl),
    words_fixed "(" ["("] (by cases p.vendor <;> rfl)]
  simp only [List.cons_append, List.nil_append, readLists]
  rw [hfront, Option.bind_some,
    words_fixed " REFERENCES " ["REFERENCES"] (by cases p.vendor <;> rfl),
    htarget.words_append (.append rfl _),
    words_fixed " (" ["("] (by cases p.vendor <;> rfl)]
  simp only [List.cons_append, List.nil_append, readReferenced]
  rw [hback]
  rfl

end Profile

/-! ## Keys of a description -/

theorem Table.fillKey_size {t : Table} {names : List String} {k k' : Key}
    (h : t.fillKey k names = .ok k') : k'.size = k.size + names.length := by
  induction names generalizing k with
  | nil => cases h; rfl
  | cons name names ih =>
    obtain ⟨c, -, h⟩ := Except.bind_eq_ok.mp h
    obtain ⟨next, hnext, h⟩ := Except.bind_eq_ok.mp h
    obtain ⟨-, -, rfl⟩ := Except.map_eq_ok.mp hnext
    rw [ih h]
    simp only [Key.size, List.length_append, List.length_cons, List.length_nil]
    omega

/-- A key of a table is as its description has it: what it refers to, and how many columns it has. -/
def Key.BuiltFrom (r : ForeignKeyConfig) (k : Key) : Prop :=
  k.kind = .foreign ⟨r.references, r.referencedColumns, r.onDelete, r.onUpdate⟩ ∧
    k.size = r.columns.length

theorem TableConfig.build_foreignKeys {p : Profile} {c : TableConfig} {t : Table}
    (h : c.build p = .ok t) : List.Forall₂ Key.BuiltFrom c.foreignKeys t.foreignKeys := by
  obtain ⟨named, -, h⟩ := Except.bind_eq_ok.mp h
  obtain ⟨primaryKey, -, h⟩ := Except.bind_eq_ok.mp h
  obtain ⟨candidateKeys, -, h⟩ := Except.bind_eq_ok.mp h
  obtain ⟨indices, -, h⟩ := Except.bind_eq_ok.mp h
  obtain ⟨foreignKeys, hforeign, h⟩ := Except.bind_eq_ok.mp h
  cases h
  refine (mapM_eq_ok hforeign).imp fun r k hk => ⟨Table.fillKey_kind hk, ?_⟩
  rw [Table.fillKey_size hk]
  exact Nat.zero_add _

/-- Every position of a complete key is set. -/
theorem Key.length_setColumns {k : Key} (h : k.isComplete) :
    k.setColumns.length = k.size ∧ k.size ≠ 0 := by
  obtain ⟨hne, hset⟩ := Bool.and_eq_true_iff.mp h
  have hset : ∀ c ∈ k.columns, (id c).isSome := List.all_eq_true.mp hset
  rw [Key.setColumns, List.length_filterMap_eq_countP, List.countP_eq_length.mpr hset]
  exact ⟨rfl, by simpa [Key.size] using hne⟩

namespace Profile

variable {p : Profile} {c : SchemaConfig} {created : List String}

/-- A script has the text of a foreign key that was built from the description. -/
def WritesKey (p : Profile) (c : SchemaConfig) (created : List String) (r : ForeignKeyConfig)
    (clause : String) : Prop :=
  ∃ t ∈ c.tables, ∃ table, t.build p = .ok table ∧
    ∃ k, (r, k) ∈ t.foreignKeys.zip table.foreignKeys ∧ p.foreignKeyClause table k = .ok clause ∧
      ∃ text ∈ created, p.Declares table clause text

/-- Every foreign key in a script has as many columns as it refers to, and one at least. -/
def ListsInPairs (p : Profile) (c : SchemaConfig) (created : List String) : Prop :=
  ∀ r clause, p.WritesKey c created r clause →
    ∃ columns referenced, readColumnLists p.vendor clause = some (columns, referenced) ∧
      columns.length = referenced.length ∧ columns ≠ []

/-- The lists in the text of a key are as long as those of its description. -/
theorem WritesKey.lengths {r : ForeignKeyConfig} {clause : String}
    (h : p.WritesKey c created r clause) :
    ∃ columns referenced, readColumnLists p.vendor clause = some (columns, referenced) ∧
      columns.length = r.columns.length ∧ referenced.length = r.referencedColumns.length ∧
      columns ≠ [] := by
  obtain ⟨t, -, table, hbuild, k, hkey, hclause, -⟩ := h
  obtain ⟨hkind, hsize⟩ := (List.forall₂_iff_zip.mp (TableConfig.build_foreignKeys hbuild)).2 hkey
  obtain ⟨⟨-, hcomplete⟩, -⟩ := (foreignKeyClause_yields clause).mp hclause
  -- the text has the columns that are set, and all positions of the key are
  obtain ⟨hset, hpositive⟩ := Key.length_setColumns hcomplete
  refine ⟨_, _, readColumnLists_clause hkind hclause, ?_, ?_, ?_⟩
  · rw [List.length_map, hset, hsize]
  · rw [List.length_map]
  · rw [Ne, List.map_eq_nil_iff, ← List.length_eq_zero_iff, hset]
    exact hpositive

theorem exists_writesKey (h : p.createSchema c = .ok created) {t : TableConfig} (ht : t ∈ c.tables)
    {r : ForeignKeyConfig} (hr : r ∈ t.foreignKeys) : ∃ clause, p.WritesKey c created r clause := by
  obtain ⟨table, script, hbuild, hcreate, hsubset⟩ := createSchema_table h ht
  obtain ⟨hlength, -⟩ := List.forall₂_iff_zip.mp (TableConfig.build_foreignKeys hbuild)
  obtain ⟨i, hi, rfl⟩ := List.getElem_of_mem hr
  have hkey : (t.foreignKeys[i], table.foreignKeys[i]) ∈ t.foreignKeys.zip table.foreignKeys := by
    rw [← List.getElem_zip (h := by simpa [← hlength] using hi)]
    exact List.getElem_mem _
  obtain ⟨clause, hclause, text, htext, hdeclares⟩ :=
    createTable_declares hcreate (List.getElem_mem (hlength ▸ hi))
  exact ⟨clause, t, ht, table, hbuild, _, hkey, hclause, text, hsubset htext, hdeclares⟩

theorem listsInPairs_iff (h : p.createSchema c = .ok created) :
    p.ListsInPairs c created ↔
      ∀ t ∈ c.tables, ∀ r ∈ t.foreignKeys, r.columns.length = r.referencedColumns.length := by
  constructor
  · intro hpairs t ht r hr
    obtain ⟨clause, hclause⟩ := exists_writesKey h ht hr
    obtain ⟨columns, referenced, hread, hcolumns, hreferenced, -⟩ := hclause.lengths
    obtain ⟨columns', referenced', hread', hequal, -⟩ := hpairs r clause hclause
    cases hread.symm.trans hread'
    rw [← hcolumns, hequal, hreferenced]
  · intro hlengths r clause hclause
    obtain ⟨columns, referenced, hread, hcolumns, hreferenced, hne⟩ := hclause.lengths
    refine ⟨columns, referenced, hread, ?_, hne⟩
    obtain ⟨t, ht, table, -, k, hkey, -⟩ := hclause
    rw [hcolumns, hreferenced]
    exact hlengths t ht r (List.of_mem_zip hkey).1

/-- A foreign key without columns of its own is refused. -/
theorem createSchema_error_of_columns {t : TableConfig} (ht : t ∈ c.tables) {r : ForeignKeyConfig}
    (hr : r ∈ t.foreignKeys) (hempty : r.columns = []) : ∃ e, p.createSchema c = .error e := by
  cases h : p.createSchema c with
  | error e => exact ⟨e, rfl⟩
  | ok created =>
    obtain ⟨clause, hclause⟩ := exists_writesKey h ht hr
    obtain ⟨columns, referenced, -, hcolumns, -, hne⟩ := hclause.lengths
    rw [hempty, List.length_nil, List.length_eq_zero_iff] at hcolumns
    exact absurd hcolumns hne

/-- The columns of a key and those that it refers to stand in pairs in a script exactly if they do in the
description. -/
theorem createSchema_columns_iff (p : Profile) (c : SchemaConfig) :
    (∀ created, p.createSchema c = .ok created → (p.ListsInPairs c created ↔
      ∀ t ∈ c.tables, ∀ r ∈ t.foreignKeys, r.columns.length = r.referencedColumns.length)) ∧
    ∀ t ∈ c.tables, ∀ r ∈ t.foreignKeys, r.columns = [] → ∃ e, p.createSchema c = .error e :=
  ⟨fun _ => listsInPairs_iff, fun _ ht _ hr => createSchema_error_of_columns ht hr⟩

def orderLines (referenced : List String) : SchemaConfig where
  tables := [
    { name := "orders"
      schema := none
      columns := [⟨"id", "i64", none, none, none, false, false, none⟩]
      primaryKey := some ⟨none, ["id"]⟩
      unique := []
      indices := []
      foreignKeys := [] },
    { name := "line_item"
      schema := none
      columns := [⟨"id", "i64", none, none, none, false, false, none⟩,
        ⟨"order_id", "i64", none, none, none, true, false, none⟩]
      primaryKey := none
      unique := []
      indices := []
      foreignKeys := [⟨none, ["order_id"], "orders", referenced, none, none⟩] }]
  sequences := []

theorem createSchema_columns_iff_orderLines : ∃ (p : Profile) (created : List String),
    p.createSchema (orderLines ["id"]) = .ok created ∧ p.ListsInPairs (orderLines ["id"]) created := by
  have hcreated : ((ofVendor .postgresql ⟨16, 0, 0⟩).createSchema (orderLines ["id"])).toOption.any
      fun _ => true := by decide +kernel
  obtain ⟨created, hcreated, -⟩ := Except.exists_of_any hcreated
  exact ⟨_, created, hcreated,
    ((createSchema_columns_iff _ _).1 created hcreated).mpr (by decide)⟩

/-- A reference to no columns is rendered with an empty list. -/
theorem createSchema_columns_unpaired : ∃ (p : Profile) (created : List String),
    p.createSchema (orderLines []) = .ok created ∧ ¬p.ListsInPairs (orderLines []) created := by
  have hcreated : ((ofVendor .postgresql ⟨16, 0, 0⟩).createSchema (orderLines [])).toOption.any
      fun _ => true := by decide +kernel
  obtain ⟨created, hcreated, -⟩ := Except.exists_of_any hcreated
  exact ⟨_, created, hcreated, mt (listsInPairs_iff hcreated).mp (by decide)⟩

end Profile

end ObjectSql
