import ObjectSql.Proofs.Schema.Creation
import ObjectSql.Proofs.Schema.Key

/-!
# The declaration of a primary key

A primary key is declared with an identity column or by a line of its own. A table that can be created has
exactly one of these declarations, and no other line has the word for it unless the type or the default of
a column brings it.
-/
namespace ObjectSql

open Text IdentifierPolicy WordState

def TableLine.declaresKey : TableLine → Bool
  | .keyColumn _ | .primaryKey _ => true
  | _ => false

theorem Key.columns_eq_map {k : Key} (h : k.isComplete) : k.columns = k.setColumns.map some :=
  Key.completeColumns_eq_ok (if_pos h)

theorem sameIgnoringCase_iff {s t : String} : sameIgnoringCase s t ↔ asciiLower s = asciiLower t :=
  beq_iff_eq

namespace Profile

variable {p : Profile} {t : Table} {k : Key}

/-! ## The lines that declare a primary key -/

theorem filter_definitionLines (p : Profile) (t : Table) :
    (p.definitionLines t).filter TableLine.declaresKey =
      (t.columns.filter fun c => c.identity && p.inlinesIdentity).map .keyColumn ++
        p.primaryLines t := by
  have hcolumns : (t.columns.map p.columnLine).filter TableLine.declaresKey =
      (t.columns.filter fun c => c.identity && p.inlinesIdentity).map .keyColumn := by
    induction t.columns with
    | nil => rfl
    | cons c columns ih =>
      rw [List.map_cons, List.filter_cons, List.filter_cons, ih, columnLine]
      cases c.identity && p.inlinesIdentity <;> rfl
  have hprimary : (p.primaryLines t).filter TableLine.declaresKey = p.primaryLines t := by
    unfold primaryLines
    split
    · rfl
    · cases t.primaryKey <;> rfl
  have hkeys (line : Key → TableLine) (hline : ∀ k, (line k).declaresKey = false) (keys : List Key) :
      (keys.map line).filter TableLine.declaresKey = [] := by
    simp [List.filter_eq_nil_iff, hline]
  have hforeign : (if p.supports .alterTableAddConstraint then []
      else t.foreignKeys.map .foreignKey).filter TableLine.declaresKey = [] := by
    split
    · rfl
    · exact hkeys .foreignKey (fun _ => rfl) t.foreignKeys
  rw [definitionLines, List.filter_append, List.filter_append, List.filter_append, hcolumns, hprimary,
    hkeys .unique (fun _ => rfl), hforeign, List.append_nil, List.append_nil]

/-- Of columns whose names differ only one can be the only column of the primary key. -/
theorem Creatable.keyColumns_eq (h : p.Creatable t) (hinline : p.inlinesIdentity)
    (hnames : t.columns.Pairwise fun c d => ¬sameIgnoringCase c.name d.name) {c : Column}
    (hc : c ∈ t.columns) (hidentity : c.identity) :
    t.columns.filter (fun c => c.identity && p.inlinesIdentity) = [c] := by
  have hsame : ∀ d ∈ t.columns.filter fun c => c.identity && p.inlinesIdentity,
      asciiLower d.name = asciiLower c.name := by
    intro d hd
    obtain ⟨hd, hkey⟩ := List.mem_filter.mp hd
    obtain ⟨k, hk, e, he, hsame⟩ := (h.identity d hd (Bool.and_eq_true_iff.mp hkey).1).key hinline
    obtain ⟨k', hk', e', he', hsame'⟩ := (h.identity c hc hidentity).key hinline
    cases hk.symm.trans hk'
    cases he.symm.trans he'
    rw [← sameIgnoringCase_iff.mp hsame, sameIgnoringCase_iff.mp hsame']
  have hmem : c ∈ t.columns.filter fun c => c.identity && p.inlinesIdentity := by
    simp [hc, hidentity, hinline]
  have hnames := hnames.filter fun c => c.identity && p.inlinesIdentity
  generalize t.columns.filter (fun c => c.identity && p.inlinesIdentity) = columns
    at hsame hmem hnames ⊢
  match columns with
  | [] => cases hmem
  | [d] => rw [List.mem_singleton.mp hmem]
  | d :: e :: _ =>
    -- two of them would have one name
    have hne := List.rel_of_pairwise_cons hnames List.mem_cons_self
    have heq := (hsame d (by simp)).trans (hsame e (by simp)).symm
    exact absurd (sameIgnoringCase_iff.mpr heq) hne

/-- The primary key is declared by one line, with its only column or for all its columns. -/
theorem Creatable.filter_definitionLines (h : p.Creatable t) (hk : t.primaryKey = some k)
    (hnames : t.columns.Pairwise fun c d => ¬sameIgnoringCase c.name d.name) :
    (∃ c ∈ t.columns, ∃ d, k.columns = [some d] ∧ sameIgnoringCase d.name c.name ∧
      (p.definitionLines t).filter TableLine.declaresKey = [.keyColumn c]) ∨
    k.columns = k.setColumns.map some ∧
      (p.definitionLines t).filter TableLine.declaresKey = [.primaryKey k] := by
  rw [p.filter_definitionLines t, primaryLines]
  split
  · next hinline =>
    left
    obtain ⟨hinline, hidentity⟩ := Bool.and_eq_true_iff.mp hinline
    obtain ⟨c, hc, hidentity⟩ := List.any_eq_true.mp hidentity
    obtain ⟨k', hk', d, hd, hsame⟩ := (h.identity c hc hidentity).key hinline
    cases hk.symm.trans hk'
    refine ⟨c, hc, d, hd, hsame, ?_⟩
    rw [h.keyColumns_eq hinline hnames hc hidentity]
    rfl
  · next hinline =>
    right
    have hnone : t.columns.filter (fun c => c.identity && p.inlinesIdentity) = [] := by
      rw [List.filter_eq_nil_iff]
      intro c hc hkey
      obtain ⟨hidentity, hinlines⟩ := Bool.and_eq_true_iff.mp hkey
      exact hinline (Bool.and_eq_true_iff.mpr ⟨hinlines, List.any_eq_true.mpr ⟨c, hc, hidentity⟩⟩)
    rw [hnone, hk]
    exact ⟨Key.columns_eq_map (h.primaryKey k hk), rfl⟩

/-! ## The word in the texts -/

/-- Whether a text has the word that every declaration of a primary key takes, outside of quotes. -/
def HasPrimary (v : Vendor) (text : String) : Prop := "PRIMARY" ∈ words v text

/-- A written name is no keyword. -/
theorem identifier_ne_primary (p : Profile) (kind : IdentifierKind) (name : String) :
    p.identifier kind name ≠ "PRIMARY" := by
  have hreserved : p.isReserved "PRIMARY" := by
    change Keywords.isReserved p.vendor "PRIMARY"
    cases p.vendor <;> decide +kernel
  rw [p.identifier_eq]
  split
  · intro heq
    have hopen : p.identifiers.openQuote = 'P' := by
      have hhead := congrArg (fun s : String => s.toList.head?) heq
      simpa [IdentifierPolicy.quote] using hhead
    revert hopen
    change (quotesOf p.vendor).1 ≠ 'P'
    cases p.vendor <;> decide
  · next hplain =>
    intro heq
    rw [heq, hreserved] at hplain
    exact hplain rfl

theorem hasPrimary_fixed {v : Vendor} (text : String) (ws : List String)
    (h : scan v .between text.toList = (ws, .between)) (hws : "PRIMARY" ∉ ws) (rest : String) :
    HasPrimary v (text ++ rest) ↔ HasPrimary v rest := by
  rw [HasPrimary, words_fixed text ws h, List.mem_append, or_iff_right hws, HasPrimary]

theorem hasPrimary_identifier (p : Profile) (kind : IdentifierKind) (name : String) {rest : String}
    (h : StandsApart rest) :
    HasPrimary p.vendor (p.identifier kind name ++ rest) ↔ HasPrimary p.vendor rest := by
  rw [HasPrimary, (p.identifier_isName kind name).words_append h, List.mem_cons,
    or_iff_right (p.identifier_ne_primary kind name).symm, HasPrimary]

theorem hasPrimary_tableName (p : Profile) (t : Table) {rest : String} (h : StandsApart rest) :
    HasPrimary p.vendor (p.tableName t ++ rest) ↔ HasPrimary p.vendor rest := by
  have hname : "PRIMARY" ∉ (p.writtenTable t).words := by
    have hword := fun name => (p.identifier_ne_primary .table name).symm
    unfold writtenTable
    split_ifs
    · cases t.schema <;> simp [QualifiedName.words, hword]
    · simp [QualifiedName.words, hword]
  rw [HasPrimary, words_tableName p t h, List.mem_append, or_iff_right hname, HasPrimary]

theorem hasPrimary_nameList (p : Profile) (names : List String) (rest : String) :
    HasPrimary p.vendor (joined ", " (names.map p.columnName) ++ (")" ++ rest)) ↔
      HasPrimary p.vendor rest := by
  have hnames : ∀ name ∈ names.map p.columnName, IsName p.vendor name :=
    List.forall_mem_map.mpr fun name _ => p.identifier_isName .column name
  obtain ⟨ws, hws, hwords⟩ := words_joined hnames rest
  have hfree : "PRIMARY" ∉ ws := by
    intro hmem
    rcases hws _ hmem with hcomma | hname
    · exact absurd hcomma (by decide)
    · obtain ⟨name, -, hname⟩ := List.mem_map.mp hname
      exact p.identifier_ne_primary .column name hname
  rw [HasPrimary, hwords]
  simp [hfree, HasPrimary]

theorem hasPrimary_columnNames (p : Profile) (columns : List Column) (rest : String) :
    HasPrimary p.vendor (p.columnNames columns ++ rest) ↔ HasPrimary p.vendor rest := by
  have hnames : (columns.map fun c => p.columnName c.name) =
      (columns.map Column.name).map p.columnName := by
    rw [List.map_map]
    rfl
  rw [columnNames, hnames, String.append_assoc, String.append_assoc,
    hasPrimary_fixed "(" ["("] (by cases p.vendor <;> rfl) (by decide)]
  exact p.hasPrimary_nameList (columns.map Column.name) rest

theorem not_hasPrimary_columnNames (p : Profile) (columns : List Column) :
    ¬HasPrimary p.vendor (p.columnNames columns) := by
  have h := p.hasPrimary_columnNames columns ""
  rw [String.append_empty] at h
  exact fun hmem => List.not_mem_nil (h.mp hmem)

theorem hasPrimary_constraint (p : Profile) (t : Table) (k : Key) {rest : String}
    (h : StandsApart rest) :
    HasPrimary p.vendor ("CONSTRAINT " ++ (p.keyName t k ++ rest)) ↔ HasPrimary p.vendor rest := by
  rw [hasPrimary_fixed "CONSTRAINT " ["CONSTRAINT"] (by cases p.vendor <;> rfl) (by decide)]
  exact p.hasPrimary_identifier _ _ h

/-- No action is written with the last letter of the word. -/
theorem not_hasPrimary_actions (v : Vendor) (onDelete onUpdate : Option ForeignKeyAction) :
    ¬HasPrimary v (actionClause "DELETE" onDelete ++ actionClause "UPDATE" onUpdate) := by
  have haction (event : String) (hevent : 'Y' ∉ event.toList) (action : Option ForeignKeyAction) :
      'Y' ∉ (actionClause event action).toList := by
    rcases action with _ | _ | _ | _ | _ | _ <;>
      simp [actionClause, ForeignKeyAction.sql, hevent]
  intro hmem
  have hletter := subset_of_mem_words hmem (by decide : 'Y' ∈ "PRIMARY".toList)
  rw [String.toList_append, List.mem_append] at hletter
  rcases hletter with hletter | hletter
  · exact haction "DELETE" (by decide) onDelete hletter
  · exact haction "UPDATE" (by decide) onUpdate hletter

theorem not_hasPrimary_foreignKeyText (p : Profile) (t : Table) (k : Key) :
    ¬HasPrimary p.vendor (p.foreignKeyText t k) := by
  unfold foreignKeyText
  cases k.kind with
  | foreign r =>
    simp only [String.append_assoc]
    rw [p.hasPrimary_constraint t k (.append rfl _),
      hasPrimary_fixed " FOREIGN KEY " ["FOREIGN", "KEY"] (by cases p.vendor <;> rfl) (by decide),
      p.hasPrimary_columnNames,
      hasPrimary_fixed " REFERENCES " ["REFERENCES"] (by cases p.vendor <;> rfl) (by decide),
      p.hasPrimary_identifier _ _ (.append rfl _),
      hasPrimary_fixed " (" ["("] (by cases p.vendor <;> rfl) (by decide),
      p.hasPrimary_nameList]
    exact not_hasPrimary_actions p.vendor r.onDelete r.onUpdate
  | _ => exact List.not_mem_nil

/-- A line has the word if it declares the primary key, or if a column brings the word. -/
theorem hasPrimary_lineText (p : Profile) (t : Table) (line : TableLine) :
    HasPrimary p.vendor (p.lineText t line) ↔ line.declaresKey ∨
      ∃ c, line = .column c ∧ HasPrimary p.vendor (p.storage c ++ columnSuffix c) := by
  cases line with
  | column c =>
    simp only [lineText, String.append_assoc, columnName]
    rw [p.hasPrimary_identifier .column c.name (.append rfl _),
      hasPrimary_fixed " " [] (by cases p.vendor <;> rfl) (by decide)]
    simp [TableLine.declaresKey]
  | keyColumn c =>
    have htext : " INTEGER PRIMARY KEY AUTOINCREMENT" = " INTEGER PRIMARY KEY " ++ "AUTOINCREMENT" := rfl
    rw [lineText, columnName, htext, p.hasPrimary_identifier .column c.name (.append rfl _), HasPrimary,
      words_fixed " INTEGER PRIMARY KEY " ["INTEGER", "PRIMARY", "KEY"] (by cases p.vendor <;> rfl)]
    simp [TableLine.declaresKey]
  | primaryKey k =>
    simp only [lineText, String.append_assoc]
    rw [p.hasPrimary_constraint t k (.append rfl _), HasPrimary,
      words_fixed " PRIMARY KEY " ["PRIMARY", "KEY"] (by cases p.vendor <;> rfl)]
    simp [TableLine.declaresKey]
  | unique k =>
    simp only [lineText, String.append_assoc]
    rw [p.hasPrimary_constraint t k (.append rfl _),
      hasPrimary_fixed " UNIQUE " ["UNIQUE"] (by cases p.vendor <;> rfl) (by decide)]
    exact iff_of_false (p.not_hasPrimary_columnNames k.setColumns) (by simp [TableLine.declaresKey])
  | foreignKey k =>
    exact iff_of_false (p.not_hasPrimary_foreignKeyText t k) (by simp [TableLine.declaresKey])

theorem not_hasPrimary_additionText (p : Profile) (t : Table) (k : Key) :
    ¬HasPrimary p.vendor (p.additionText t k) := by
  unfold additionText
  rw [String.append_assoc, String.append_assoc,
    hasPrimary_fixed "ALTER TABLE " ["ALTER", "TABLE"] (by cases p.vendor <;> rfl) (by decide),
    p.hasPrimary_tableName t (.append rfl _),
    hasPrimary_fixed " ADD " ["ADD"] (by cases p.vendor <;> rfl) (by decide)]
  exact p.not_hasPrimary_foreignKeyText t k

theorem not_hasPrimary_indexText (p : Profile) (t : Table) (k : Key) :
    ¬HasPrimary p.vendor (p.indexText t k) := by
  have hoptional (b : Bool) (text : String) (ws : List String)
      (h : scan p.vendor .between text.toList = (ws, .between)) (hws : "PRIMARY" ∉ ws) (rest : String) :
      HasPrimary p.vendor ((if b then text else "") ++ rest) ↔ HasPrimary p.vendor rest := by
    cases b with
    | true => exact hasPrimary_fixed text ws h hws rest
    | false => exact iff_of_eq (congrArg (HasPrimary p.vendor) (String.empty_append))
  unfold indexText
  simp only [String.append_assoc]
  rw [hasPrimary_fixed "CREATE " ["CREATE"] (by cases p.vendor <;> rfl) (by decide),
    hoptional _ "UNIQUE " ["UNIQUE"] (by cases p.vendor <;> rfl) (by decide),
    hasPrimary_fixed "INDEX " ["INDEX"] (by cases p.vendor <;> rfl) (by decide),
    hoptional _ "IF NOT EXISTS " ["IF", "NOT", "EXISTS"] (by cases p.vendor <;> rfl) (by decide),
    keyName, p.hasPrimary_identifier _ _ (.append rfl _),
    hasPrimary_fixed " ON " ["ON"] (by cases p.vendor <;> rfl) (by decide),
    p.hasPrimary_tableName t (.append rfl _),
    hasPrimary_fixed " " [] (by cases p.vendor <;> rfl) (by decide)]
  exact p.not_hasPrimary_columnNames k.setColumns

/-! ## The script -/

/-- A script declares the primary key of its table once. -/
structure DeclaresKeyOnce (p : Profile) (t : Table) (k : Key) (script : List String) : Prop where
  /-- No statement behind the definition of the table has the word. -/
  definition_first : ∃ rest, script = p.definition t ((p.definitionLines t).map (p.lineText t)) :: rest ∧
    ∀ text ∈ rest, ¬HasPrimary p.vendor text
  /-- One line declares the key, with its only column or with all its columns in order. -/
  one_line :
    (∃ c ∈ t.columns, ∃ d, k.columns = [some d] ∧ sameIgnoringCase d.name c.name ∧
      (p.definitionLines t).filter TableLine.declaresKey = [.keyColumn c]) ∨
    k.columns = k.setColumns.map some ∧
      (p.definitionLines t).filter TableLine.declaresKey = [.primaryKey k]
  /-- No other line has the word, unless a column brings it with its type or its default. -/
  other_lines : ∀ line ∈ p.definitionLines t, HasPrimary p.vendor (p.lineText t line) ↔
    line.declaresKey ∨
      ∃ c, line = .column c ∧ HasPrimary p.vendor (p.storage c ++ columnSuffix c)

/-- The script of a table with a primary key and distinct column names declares the key in one line of the
definition, with an identity column or for itself. -/
theorem createTable_declares_key_once {script : List String} (hk : t.primaryKey = some k)
    (hnames : t.columns.Pairwise fun c d => ¬sameIgnoringCase c.name d.name)
    (h : p.createTable t = .ok script) : p.DeclaresKeyOnce t k script := by
  obtain ⟨hcreatable, rfl⟩ := (createTable_yields script).mp h
  refine ⟨⟨_, rfl, ?_⟩, hcreatable.filter_definitionLines hk hnames,
    fun line _ => p.hasPrimary_lineText t line⟩
  intro text htext
  rcases List.mem_append.mp htext with hkey | hindex
  · split_ifs at hkey
    · obtain ⟨l, -, rfl⟩ := List.mem_map.mp hkey
      exact p.not_hasPrimary_additionText t l
    · cases hkey
  · obtain ⟨l, -, rfl⟩ := List.mem_map.mp hindex
    exact p.not_hasPrimary_indexText t l

def noteTable : Table :=
  let id := { Column.plain "NOTE" "ID" "i64" (.fixed "INTEGER" .bigInt) with
    nullable := false, identity := true }
  { Table.empty "NOTE" none with
    columns := [id, .plain "NOTE" "TEXT" "string" (.fixed "TEXT" .varChar)]
    primaryKey := some { Key.empty "NOTE" .primary none with columns := [some id] } }

theorem createTable_declares_key_once_note :
    let p := ofVendor .sqlite ⟨3, 45, 0⟩
    ∃ k script, noteTable.primaryKey = some k ∧
      (noteTable.columns.Pairwise fun c d => ¬sameIgnoringCase c.name d.name) ∧
      p.createTable noteTable = .ok script ∧ p.DeclaresKeyOnce noteTable k script := by
  intro p
  have hcreated : (p.createTable noteTable).toOption.any fun _ => true := by decide +kernel
  obtain ⟨script, hscript, -⟩ := Except.exists_of_any hcreated
  have hnames : noteTable.columns.Pairwise fun c d => ¬sameIgnoringCase c.name d.name := by
    decide +kernel
  exact ⟨_, script, rfl, hnames, hscript, createTable_declares_key_once rfl hnames hscript⟩

end Profile

end ObjectSql
