import ObjectSql.Proofs.Except
import ObjectSql.Proofs.Schema.Words
import ObjectSql.Schema.Script

/-!
# Reading schema statements

A reader tells from the text of a schema statement what it creates, adds or drops, with every name as
it stands in the text. What the writer of scripts makes is read as what it is made from.
-/
namespace ObjectSql

open Text

/-- A table as a statement names it. -/
structure QualifiedName where
  schema : Option String
  name : String
deriving DecidableEq

def QualifiedName.words : QualifiedName → List String
  | ⟨some schema, name⟩ => [schema, ".", name]
  | ⟨none, name⟩ => [name]

/-- What a statement does, with the names in its text. -/
inductive SchemaStatement where
  | createSequence (name : String)
  | createTable (table : QualifiedName)
  | addForeignKey (table : QualifiedName) (key target : String)
  | createIndex (index : String) (table : QualifiedName)
  | dropForeignKey (table : QualifiedName) (key : String)
  | dropTable (table : QualifiedName)
  | dropSequence (name : String)
deriving DecidableEq

namespace SchemaStatement

def skip (expected ws : List String) : List String :=
  if expected <+: ws then ws.drop expected.length else ws

def readTable : List String → Option (QualifiedName × List String)
  | schema :: "." :: name :: ws => some (⟨some schema, name⟩, ws)
  | name :: ws => some (⟨none, name⟩, ws)
  | [] => none

/-- The table that a foreign key refers to, behind the list of its columns. -/
def readTarget (ws : List String) : Option String :=
  match ws.dropWhile (· ≠ ")") with
  | _ :: "REFERENCES" :: target :: "(" :: _ => some target
  | _ => none

def readAlteration (table : QualifiedName) : List String → Option SchemaStatement
  | "ADD" :: "CONSTRAINT" :: key :: "FOREIGN" :: "KEY" :: "(" :: ws =>
    (readTarget ws).map (.addForeignKey table key)
  | ["DROP", "CONSTRAINT", key] => some (.dropForeignKey table key)
  | ["DROP", "FOREIGN", "KEY", key] => some (.dropForeignKey table key)
  | _ => none

def readIndex (ws : List String) : Option SchemaStatement :=
  match skip ["IF", "NOT", "EXISTS"] ws with
  | index :: "ON" :: ws => (readTable ws).map fun (table, _) => .createIndex index table
  | _ => none

/-- What may stand behind the name of what is dropped. -/
def dropBehaviors : List (List String) :=
  [[], ["CASCADE"], ["CASCADE", "CONSTRAINTS"], ["RESTRICT"]]

def ofWords : List String → Option SchemaStatement
  | "CREATE" :: "SEQUENCE" :: name :: _ => some (.createSequence name)
  | "CREATE" :: "TABLE" :: ws => (readTable ws).map fun (table, _) => .createTable table
  | "CREATE" :: "INDEX" :: ws => readIndex ws
  | "CREATE" :: "UNIQUE" :: "INDEX" :: ws => readIndex ws
  | "ALTER" :: "TABLE" :: ws => (readTable ws).bind fun (table, ws) => readAlteration table ws
  | "DROP" :: "TABLE" :: ws =>
    (readTable (skip ["IF", "EXISTS"] ws)).bind fun (table, ws) =>
      if ws ∈ dropBehaviors then some (.dropTable table) else none
  | "DROP" :: "SEQUENCE" :: name :: ws =>
    if ws ∈ dropBehaviors then some (.dropSequence name) else none
  | _ => none

def read (v : Vendor) (text : String) : Option SchemaStatement := ofWords (words v text)

theorem readTable_words (q : QualifiedName) {ws : List String} (h : ws.head? ≠ some ".") :
    readTable (q.words ++ ws) = some (q, ws) := by
  obtain ⟨_ | schema, name⟩ := q
  · cases ws with
    | nil => rfl
    | cons w ws =>
      have hw : w ≠ "." := by simpa using h
      simp [QualifiedName.words, readTable, hw]
  · rfl

theorem skip_append (expected ws : List String) : skip expected (expected ++ ws) = ws := by
  simp [skip]

theorem skip_eq_self {expected ws : List String} (h : ¬expected <+: ws) : skip expected ws = ws :=
  if_neg h

theorem readTarget_eq {ws : List String} (h : ∀ w ∈ ws, w ≠ ")") (target : String)
    (rest : List String) :
    readTarget (ws ++ ")" :: "REFERENCES" :: target :: "(" :: rest) = some target := by
  have hskip : ∀ w ∈ ws, decide (w ≠ ")") := fun w hw => decide_eq_true (h w hw)
  rw [readTarget, List.dropWhile_append_of_pos hskip]
  rfl

/-- An index is read with the words about one that exists and without them. -/
theorem readIndex_words (index : String) (q : QualifiedName) (columns : List String) :
    readIndex (index :: "ON" :: (q.words ++ "(" :: columns)) = some (.createIndex index q) ∧
      readIndex (["IF", "NOT", "EXISTS"] ++ index :: "ON" :: (q.words ++ "(" :: columns)) =
        some (.createIndex index q) := by
  have htable : readTable (q.words ++ "(" :: columns) = some (q, "(" :: columns) :=
    readTable_words q (by simp)
  constructor
  · rw [readIndex, skip_eq_self (by simp)]
    simp [htable]
  · rw [readIndex, skip_append]
    simp [htable]

/-- What stands behind the name of a table is no part of the words in front of it. -/
theorem skip_ifExists (q : QualifiedName) {ws : List String} (h : ws ∈ dropBehaviors) :
    skip ["IF", "EXISTS"] (q.words ++ ws) = q.words ++ ws := by
  have hhead : ws.head? ≠ some "EXISTS" :=
    (by decide : ∀ ws ∈ dropBehaviors, ws.head? ≠ some "EXISTS") ws h
  apply skip_eq_self
  obtain ⟨_ | schema, name⟩ := q
  · cases ws with
    | nil => simp [QualifiedName.words]
    | cons w ws => simpa [QualifiedName.words, eq_comm] using fun _ => hhead
  · simp [QualifiedName.words]

theorem ofWords_dropTable (q : QualifiedName) {ws : List String} (h : ws ∈ dropBehaviors) :
    ofWords ("DROP" :: "TABLE" :: (q.words ++ ws)) = some (.dropTable q) ∧
      ofWords ("DROP" :: "TABLE" :: (["IF", "EXISTS"] ++ (q.words ++ ws))) =
        some (.dropTable q) := by
  have hdot : ws.head? ≠ some "." := (by decide : ∀ ws ∈ dropBehaviors, ws.head? ≠ some ".") ws h
  constructor
  · rw [ofWords, skip_ifExists q h, readTable_words q hdot]
    exact if_pos h
  · rw [ofWords, skip_append, readTable_words q hdot]
    exact if_pos h

end SchemaStatement

open SchemaStatement

/-! ## Names in statements -/

def Key.target (k : Key) : String :=
  match k.kind with
  | .foreign r => r.table
  | _ => ""

namespace Profile

variable {p : Profile} {t : Table} {k : Key}

def writtenTable (p : Profile) (t : Table) : QualifiedName where
  schema :=
    if p.supports .schemasInTableDefinitions then t.schema.map (p.identifier .table) else none
  name := p.identifier .table t.name

theorem words_tableName (p : Profile) (t : Table) {rest : String} (h : StandsApart rest) :
    words p.vendor (p.tableName t ++ rest) = (p.writtenTable t).words ++ words p.vendor rest := by
  have hname := (p.identifier_isName .table t.name).words_append h
  unfold tableName
  cases hschema : t.schema with
  | none => simpa [writtenTable, QualifiedName.words, hschema] using hname
  | some schema =>
    by_cases hsupports : p.supports .schemasInTableDefinitions
    · simp only [hsupports, if_true, String.append_assoc]
      rw [(p.identifier_isName .table schema).words_append (.append rfl _),
        words_fixed "." ["."] (by cases p.vendor <;> rfl), hname]
      simp [writtenTable, QualifiedName.words, hschema, hsupports]
    · simpa [writtenTable, QualifiedName.words, hschema, hsupports] using hname

/-- A list of names is read up to the parenthesis behind it, as names with commas between them. -/
theorem words_joined {v : Vendor} {names : List String} (h : ∀ name ∈ names, IsName v name)
    (rest : String) :
    ∃ ws, (∀ w ∈ ws, w = "," ∨ w ∈ names) ∧
      words v (joined ", " names ++ (")" ++ rest)) = ws ++ ")" :: words v rest := by
  have hclose : words v (")" ++ rest) = ")" :: words v rest :=
    words_fixed ")" [")"] (by cases v <;> rfl) rest
  induction names with
  | nil => exact ⟨[], by simp, hclose⟩
  | cons name names ih =>
    obtain ⟨hname, hnames⟩ := List.forall_mem_cons.mp h
    cases names with
    | nil =>
      refine ⟨[name], by simp, ?_⟩
      rw [joined, String.intercalate_singleton, hname.words_append (.append rfl _), hclose]
      rfl
    | cons next names =>
      obtain ⟨ws, hws, hwords⟩ := ih hnames
      refine ⟨name :: "," :: ws, ?_, ?_⟩
      · simp only [List.forall_mem_cons]
        exact ⟨.inr (by simp), .inl trivial, fun w hw => (hws w hw).imp_right (List.mem_cons_of_mem name)⟩
      · rw [joined, String.intercalate_cons_cons, ← joined, String.append_assoc, String.append_assoc,
          hname.words_append (.append rfl _), words_fixed ", " [","] (by cases v <;> rfl), hwords]
        rfl

/-- The words of a list of names end at the parenthesis behind it. -/
theorem ne_closingParen_of_mem {v : Vendor} {names ws : List String}
    (h : ∀ name ∈ names, IsName v name) (hws : ∀ w ∈ ws, w = "," ∨ w ∈ names) :
    ∀ w ∈ ws, w ≠ ")" := by
  intro w hw
  rcases hws w hw with rfl | hname
  · decide
  · exact (h w hname).ne_closingParen

/-! ## Statements that create -/

/-- The definition of a table, whatever its lines are. -/
theorem read_definition (p : Profile) (t : Table) (body : String) :
    SchemaStatement.read p.vendor ("CREATE TABLE " ++ p.tableName t ++ " (\n" ++ body ++ "\n)") =
      some (.createTable (p.writtenTable t)) := by
  have hwords : words p.vendor ("CREATE TABLE " ++ p.tableName t ++ " (\n" ++ body ++ "\n)") =
      "CREATE" :: "TABLE" :: ((p.writtenTable t).words ++ "(" :: words p.vendor (body ++ "\n)")) := by
    simp only [String.append_assoc]
    rw [words_fixed "CREATE TABLE " ["CREATE", "TABLE"] (by cases p.vendor <;> rfl),
      words_tableName p t (.append rfl _), words_fixed " (\n" ["("] (by cases p.vendor <;> rfl)]
    rfl
  rw [SchemaStatement.read, hwords, ofWords, readTable_words _ (by simp)]
  rfl

theorem keyColumns_eq_ok {columns : String} (h : p.keyColumns k = .ok columns) :
    ∃ names, columns = "(" ++ joined ", " names ++ ")" ∧ ∀ name ∈ names, IsName p.vendor name := by
  obtain ⟨cs, -, rfl⟩ := Except.map_eq_ok.mp h
  refine ⟨_, rfl, fun name hname => ?_⟩
  obtain ⟨c, -, rfl⟩ := List.mem_map.mp hname
  exact p.identifier_isName .column c.name

theorem foreignKeyClause_eq_ok {clause : String} (h : p.foreignKeyClause t k = .ok clause) :
    ∃ names rest, (∀ name ∈ names, IsName p.vendor name) ∧
      clause = "CONSTRAINT " ++ (p.keyName t k ++ (" FOREIGN KEY " ++ ("(" ++ (joined ", " names ++
        (")" ++ (" REFERENCES " ++ (p.identifier .table k.target ++ (" (" ++ rest)))))))) := by
  unfold foreignKeyClause at h
  split at h
  · next r hr =>
    obtain ⟨columns, hcolumns, hclause⟩ := Except.map_eq_ok.mp h
    obtain ⟨names, rfl, hnames⟩ := keyColumns_eq_ok hcolumns
    refine ⟨names, joined ", " (r.columns.map p.columnName) ++ (")" ++
      (actionClause "DELETE" r.onDelete ++ actionClause "UPDATE" r.onUpdate)), hnames, ?_⟩
    simp only [← hclause, Key.target, hr, String.append_assoc]
  · cases h

/-- A key is added to a table by its clause. -/
theorem addForeignKey_eq_ok {text : String} (h : p.addForeignKey t k = .ok text) :
    ∃ clause, p.foreignKeyClause t k = .ok clause ∧
      text = "ALTER TABLE " ++ p.tableName t ++ " ADD " ++ clause := by
  obtain ⟨-, -, h⟩ := Except.bind_eq_ok.mp h
  obtain ⟨clause, hclause, htext⟩ := Except.bind_eq_ok.mp h
  cases htext
  exact ⟨clause, hclause, rfl⟩

/-- The words of the clause of a key, up to the columns that it refers to. -/
theorem words_foreignKeyClause {clause : String} (h : p.foreignKeyClause t k = .ok clause) :
    ∃ columns rest, (∀ w ∈ columns, w ≠ ")") ∧
      words p.vendor clause = "CONSTRAINT" :: p.keyName t k :: "FOREIGN" :: "KEY" :: "(" ::
        (columns ++ ")" :: "REFERENCES" :: p.identifier .table k.target :: "(" :: rest) := by
  obtain ⟨names, rest, hnames, rfl⟩ := foreignKeyClause_eq_ok h
  have hkey : IsName p.vendor (p.keyName t k) := p.identifier_isName _ _
  have htarget := p.identifier_isName .table k.target
  obtain ⟨columns, hmem, hcolumns⟩ := words_joined hnames
    (" REFERENCES " ++ (p.identifier .table k.target ++ (" (" ++ rest)))
  refine ⟨columns, words p.vendor rest, ne_closingParen_of_mem hnames hmem, ?_⟩
  rw [words_fixed "CONSTRAINT " ["CONSTRAINT"] (by cases p.vendor <;> rfl),
    hkey.words_append (.append rfl _),
    words_fixed " FOREIGN KEY " ["FOREIGN", "KEY"] (by cases p.vendor <;> rfl),
    words_fixed "(" ["("] (by cases p.vendor <;> rfl), hcolumns,
    words_fixed " REFERENCES " ["REFERENCES"] (by cases p.vendor <;> rfl),
    htarget.words_append (.append rfl _),
    words_fixed " (" ["("] (by cases p.vendor <;> rfl)]
  rfl

theorem read_addForeignKey {text : String} (h : p.addForeignKey t k = .ok text) :
    SchemaStatement.read p.vendor text =
      some (.addForeignKey (p.writtenTable t) (p.keyName t k) (p.identifier .table k.target)) := by
  obtain ⟨clause, hclause, rfl⟩ := addForeignKey_eq_ok h
  obtain ⟨columns, rest, hne, hwords⟩ := words_foreignKeyClause hclause
  rw [SchemaStatement.read, String.append_assoc, String.append_assoc,
    words_fixed "ALTER TABLE " ["ALTER", "TABLE"] (by cases p.vendor <;> rfl),
    words_tableName p t (.append rfl _),
    words_fixed " ADD " ["ADD"] (by cases p.vendor <;> rfl), hwords]
  simp only [List.cons_append, List.nil_append, ofWords]
  rw [readTable_words _ (by simp), Option.bind_some, readAlteration, readTarget_eq hne]
  rfl

theorem read_createIndex {text : String} (h : p.createIndex t k = .ok text) :
    SchemaStatement.read p.vendor text = some (.createIndex (p.keyName t k) (p.writtenTable t)) := by
  obtain ⟨columns, hcolumns, rfl⟩ := Except.map_eq_ok.mp h
  obtain ⟨names, rfl, -⟩ := keyColumns_eq_ok hcolumns
  have hkey : IsName p.vendor (p.keyName t k) := p.identifier_isName _ _
  obtain ⟨hplain, hexists⟩ :=
    readIndex_words (p.keyName t k) (p.writtenTable t) (words p.vendor (joined ", " names ++ ")"))
  have hname : words p.vendor (p.keyName t k ++ (" ON " ++ (p.tableName t ++ (" " ++ ("(" ++
      (joined ", " names ++ ")")))))) = p.keyName t k :: "ON" :: ((p.writtenTable t).words ++ "(" ::
        words p.vendor (joined ", " names ++ ")")) := by
    rw [hkey.words_append (.append rfl _),
      words_fixed " ON " ["ON"] (by cases p.vendor <;> rfl),
      words_tableName p t (.append rfl _),
      words_fixed " " [] (by cases p.vendor <;> rfl),
      words_fixed "(" ["("] (by cases p.vendor <;> rfl)]
    rfl
  simp only [String.append_assoc]
  generalize p.keyName t k ++ (" ON " ++ _) = rest at hname ⊢
  have hindex : SchemaStatement.readIndex (words p.vendor
      ((if p.supports .createIndexIfNotExists then "IF NOT EXISTS " else "") ++ rest)) =
        some (.createIndex (p.keyName t k) (p.writtenTable t)) := by
    split_ifs
    · rw [words_fixed "IF NOT EXISTS " ["IF", "NOT", "EXISTS"] (by cases p.vendor <;> rfl), hname]
      exact hexists
    · rw [String.empty_append, hname]
      exact hplain
  rw [SchemaStatement.read, words_fixed "CREATE " ["CREATE"] (by cases p.vendor <;> rfl)]
  by_cases hunique : isUniqueIndex k.kind
  · rw [if_pos hunique, words_fixed "UNIQUE " ["UNIQUE"] (by cases p.vendor <;> rfl),
      words_fixed "INDEX " ["INDEX"] (by cases p.vendor <;> rfl)]
    exact hindex
  · rw [if_neg hunique, String.empty_append,
      words_fixed "INDEX " ["INDEX"] (by cases p.vendor <;> rfl)]
    exact hindex

/-! ## Statements that drop -/

theorem read_dropForeignKey {text : String} (h : p.dropForeignKey t k = .ok text) :
    SchemaStatement.read p.vendor text =
      some (.dropForeignKey (p.writtenTable t) (p.keyName t k)) := by
  obtain ⟨-, -, h⟩ := Except.bind_eq_ok.mp h
  cases h
  have hkey : words p.vendor (p.keyName t k) = [p.keyName t k] :=
    (p.identifier_isName _ _).words_eq
  have htable (rest : String) : words p.vendor ("ALTER TABLE " ++ (p.tableName t ++ (" " ++ rest))) =
      "ALTER" :: "TABLE" :: ((p.writtenTable t).words ++ words p.vendor rest) := by
    rw [words_fixed "ALTER TABLE " ["ALTER", "TABLE"] (by cases p.vendor <;> rfl),
      words_tableName p t (.append rfl _),
      words_fixed " " [] (by cases p.vendor <;> rfl)]
    rfl
  simp only [String.append_assoc, SchemaStatement.read, htable, ofWords]
  split_ifs <;> rw [← String.append_assoc]
  · rw [words_fixed ("DROP FOREIGN KEY" ++ " ") ["DROP", "FOREIGN", "KEY"]
      (by cases p.vendor <;> rfl), hkey, readTable_words _ (by simp)]
    rfl
  · rw [words_fixed ("DROP CONSTRAINT" ++ " ") ["DROP", "CONSTRAINT"]
      (by cases p.vendor <;> rfl), hkey, readTable_words _ (by simp)]
    rfl

theorem read_dropTable (p : Profile) (t : Table) :
    SchemaStatement.read p.vendor (p.dropTable t) = some (.dropTable (p.writtenTable t)) := by
  obtain ⟨behavior, htext, hapart, hbehavior⟩ : ∃ behavior, p.dropTable t = "DROP TABLE " ++
      ((if p.supports .dropTableIfExists then "IF EXISTS " else "") ++ (p.tableName t ++ behavior)) ∧
      StandsApart behavior ∧ words p.vendor behavior ∈ dropBehaviors := by
    refine ⟨if p.supports .dropTableCascade then
      (if p.vendor = .oracle then " CASCADE CONSTRAINTS" else " CASCADE") else "", ?_, ?_, ?_⟩
    · simp only [dropTable, String.append_assoc]
    · split_ifs <;> rfl
    · split_ifs <;> cases p.vendor <;> decide
  obtain ⟨hplain, hexists⟩ := ofWords_dropTable (p.writtenTable t) hbehavior
  rw [htext, SchemaStatement.read,
    words_fixed "DROP TABLE " ["DROP", "TABLE"] (by cases p.vendor <;> rfl)]
  split_ifs
  · rw [words_fixed "IF EXISTS " ["IF", "EXISTS"] (by cases p.vendor <;> rfl),
      words_tableName p t hapart]
    exact hexists
  · rw [String.empty_append, words_tableName p t hapart]
    exact hplain

example : SchemaStatement.read .postgresql "DROP TABLE IF EXISTS sales.\"order line\" CASCADE" =
    some (.dropTable ⟨some "sales", "\"order line\""⟩) := by
  decide +kernel

/-! ## Sequences -/

theorem namedSequence_eq_ok {name : Option String} {s : SequenceSyntax} {written : String}
    (h : p.namedSequence name = .ok (s, written)) :
    ∃ n, name = some n ∧ written = p.identifier .sequence n ∧
      SequenceSyntax.ofVendor p.vendor = some s := by
  unfold namedSequence at h
  split at h
  · cases h
  · next n =>
    split at h
    · cases h
    · split at h
      · cases h
      · next s' hs =>
        cases h
        unfold sequences? at hs
        split at hs
        · exact ⟨n, rfl, rfl, hs⟩
        · cases hs

/-- The text of a sequence statement is its verb with the name, then words behind a blank. -/
theorem joined_cons (text : String) (clauses : List String) :
    ∃ rest, joined " " (text :: clauses) = text ++ rest ∧ StandsApart rest := by
  cases clauses with
  | nil => exact ⟨"", by simp [joined], rfl⟩
  | cons clause clauses =>
    refine ⟨" " ++ joined " " (clause :: clauses), ?_, .append rfl _⟩
    rw [joined, String.intercalate_cons_cons, String.append_assoc, joined]

theorem read_createNamed {name : String} (h : IsName p.vendor name) (clauses : List String) :
    SchemaStatement.read p.vendor (joined " " (("CREATE SEQUENCE " ++ name) :: clauses)) =
      some (.createSequence name) := by
  obtain ⟨rest, htext, hapart⟩ := joined_cons ("CREATE SEQUENCE " ++ name) clauses
  rw [htext, SchemaStatement.read, String.append_assoc,
    words_fixed "CREATE SEQUENCE " ["CREATE", "SEQUENCE"] (by cases p.vendor <;> rfl),
    h.words_append hapart]
  rfl

theorem read_dropNamed {s : SequenceSyntax} (hs : SequenceSyntax.ofVendor p.vendor = some s)
    {name : String} (h : IsName p.vendor name) :
    SchemaStatement.read p.vendor (s.drop name) = some (.dropSequence name) := by
  have hsuffix : s.dropSuffix = none ∨ s.dropSuffix = some "RESTRICT" := by
    unfold SequenceSyntax.ofVendor at hs
    split at hs <;> cases hs <;> simp
  obtain ⟨rest, htext, hapart, hbehavior⟩ : ∃ rest, s.drop name = "DROP SEQUENCE " ++ (name ++ rest) ∧
      StandsApart rest ∧ words p.vendor rest ∈ dropBehaviors := by
    rcases hsuffix with hnone | hrestrict
    · refine ⟨"", ?_, rfl, by cases p.vendor <;> decide⟩
      simp [SequenceSyntax.drop, hnone, joined]
    · refine ⟨" RESTRICT", ?_, rfl, by cases p.vendor <;> decide⟩
      simp [SequenceSyntax.drop, hrestrict, joined, String.append_assoc]
  rw [htext, SchemaStatement.read,
    words_fixed "DROP SEQUENCE " ["DROP", "SEQUENCE"] (by cases p.vendor <;> rfl),
    h.words_append hapart]
  exact if_pos hbehavior

/-- A sequence that is created can be dropped, under the name that it was created with. -/
theorem read_sequence {o : SequenceOptions} {text : String} (h : p.createSequence o = .ok text) :
    ∃ dropped, p.dropNamedSequence o = .ok dropped ∧
      SchemaStatement.read p.vendor text =
        some (.createSequence (p.identifier .sequence (o.name.getD ""))) ∧
      SchemaStatement.read p.vendor dropped =
        some (.dropSequence (p.identifier .sequence (o.name.getD ""))) := by
  obtain ⟨⟨s, written⟩, hnamed, hcreate⟩ := Except.bind_eq_ok.mp h
  obtain ⟨n, hn, rfl, hs⟩ := namedSequence_eq_ok hnamed
  have hname := p.identifier_isName .sequence n
  rw [hn] at hnamed
  refine ⟨s.drop (p.identifier .sequence n), ?_, ?_, ?_⟩
  · simp only [dropNamedSequence, hn, dropSequence, hnamed]
    rfl
  · have hcreate : s.create p.vendor (p.identifier .sequence n) o = .ok text := hcreate
    unfold SequenceSyntax.create at hcreate
    split at hcreate
    · cases hcreate
    · cases hcreate
      rw [hn]
      exact read_createNamed hname _
  · rw [hn]
    exact read_dropNamed hs hname

end Profile

end ObjectSql
