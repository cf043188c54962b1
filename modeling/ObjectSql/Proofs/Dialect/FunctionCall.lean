import ObjectSql.Proofs.Schema.Reading
import ObjectSql.Proofs.Text.Casing
import ObjectSql.Proofs.Text.Quoted

/-!
# Names as arguments of functions

Two statements of PostgreSQL hand names to functions, each name as a text in quotes. The next value of a
sequence is asked for with the quotes of the name doubled, so that any name is read back. The last value
of an identity column is asked for with the names as they are, so these are read back exactly if what is
kept of them has no quote.
-/
namespace ObjectSql

open Text IdentifierPolicy

/-! ## Calls -/

/-- A statement of fixed text except for its arguments, each of which is a text in quotes. -/
structure CallText where
  before : String
  /-- What stands behind the arguments, one text each. -/
  behind : List String

namespace CallText

/-- Arguments in quotes, each with the fixed text behind it. -/
def writeArguments (write : String → String) : List String → List String → List Char
  | piece :: behind, arg :: args =>
    '\x27' :: ((write arg).toList ++ '\x27' :: (piece.toList ++ writeArguments write behind args))
  | _, _ => []

/-- Arguments up to their closing quotes, where nothing else than the fixed texts stands behind them. -/
def readArguments : List String → List Char → Option (List String)
  | [], [] => some []
  | piece :: behind, '\x27' :: cs => do
    let (arg, rest) ← readQuoted '\x27' none cs
    let rest ← rest.dropPrefix? piece.toList
    let args ← readArguments behind rest
    pure (String.ofList arg :: args)
  | _, _ => none

/-- The arguments of a statement that is the call, by the standard rule for quotes. -/
def read? (call : CallText) (sql : String) : Option (List String) :=
  (sql.toList.dropPrefix? call.before.toList).bind (readArguments call.behind)

def Separates (behind : List String) : Prop :=
  ∀ piece ∈ behind, ∃ c cs, piece.toList = c :: cs ∧ c ≠ '\x27'

variable {piece : String} {behind : List String}

theorem readArguments_cons {cs : List Char} {arg : String} {args : List String} :
    readArguments (piece :: behind) ('\x27' :: cs) = some (arg :: args) ↔
      ∃ rest, readQuoted '\x27' none cs = some (arg.toList, piece.toList ++ rest) ∧
        readArguments behind rest = some args := by
  simp only [readArguments, Option.bind_eq_bind, Option.bind_eq_some_iff, Option.pure_def,
    Option.some.injEq, List.cons.injEq, List.dropPrefix?_eq_some_iff, beq_iff_eq]
  constructor
  · rintro ⟨⟨_, _⟩, hread, rest, ⟨_, rfl, rfl⟩, _, hargs, rfl, rfl⟩
    exact ⟨rest, by rw [hread, String.toList_ofList], hargs⟩
  · rintro ⟨rest, hread, hargs⟩
    exact ⟨_, hread, rest, ⟨_, rfl, rfl⟩, args, hargs, String.ofList_toList, rfl⟩

theorem Separates.head?_ne (h : Separates (piece :: behind)) (rest : List Char) :
    (piece.toList ++ rest).head? ≠ some '\x27' := by
  obtain ⟨c, cs, hpiece, hc⟩ := h piece List.mem_cons_self
  simpa [hpiece] using hc

theorem Separates.tail (h : Separates (piece :: behind)) : Separates behind :=
  fun _ hmem => h _ (List.mem_cons_of_mem _ hmem)

/-- Arguments with their quotes doubled are read back. -/
theorem readArguments_doubled {args : List String} (hseparates : Separates behind)
    (hlength : args.length = behind.length) :
    readArguments behind (writeArguments (doubled '\x27') behind args) = some args := by
  induction behind generalizing args with
  | nil =>
    rw [List.length_eq_zero_iff.mp hlength]
    rfl
  | cons piece behind ih =>
    cases args with
    | nil => cases hlength
    | cons arg args =>
      refine readArguments_cons.mpr ⟨_, ?_, ih hseparates.tail (Nat.succ.inj hlength)⟩
      rw [toList_doubled]
      exact readQuoted_doubled (fun _ => rfl) (hseparates.head?_ne _)

/-- Arguments that stand as they are are read back exactly if they have no quotes. -/
theorem readArguments_id_iff {args : List String} (hseparates : Separates behind)
    (hlength : args.length = behind.length) :
    readArguments behind (writeArguments id behind args) = some args ↔
      ∀ arg ∈ args, '\x27' ∉ arg.toList := by
  induction behind generalizing args with
  | nil =>
    rw [List.length_eq_zero_iff.mp hlength]
    simp [writeArguments, readArguments]
  | cons piece behind ih =>
    cases args with
    | nil => cases hlength
    | cons arg args =>
      have hfollows := hseparates.head?_ne (writeArguments id behind args)
      have hread (hquote : '\x27' ∉ arg.toList) :
          readQuoted '\x27' none
              (arg.toList ++ '\x27' :: (piece.toList ++ writeArguments id behind args)) =
            some (arg.toList, piece.toList ++ writeArguments id behind args) := by
        have hdoubled : readQuoted '\x27' none (doubledChars '\x27' arg.toList ++
            '\x27' :: (piece.toList ++ writeArguments id behind args)) =
              some (arg.toList, piece.toList ++ writeArguments id behind args) :=
          readQuoted_doubled (fun _ => rfl) hfollows
        rwa [doubledChars_of_not_mem hquote] at hdoubled
      rw [writeArguments, id, readArguments_cons, List.forall_mem_cons,
        ← ih hseparates.tail (Nat.succ.inj hlength)]
      constructor
      · rintro ⟨rest, harg, hargs⟩
        have hquote := not_mem_of_readQuoted hfollows harg
        rw [hread hquote, Option.some.injEq, Prod.mk.injEq, List.append_cancel_left_eq] at harg
        exact ⟨hquote, harg.2 ▸ hargs⟩
      · rintro ⟨hquote, hargs⟩
        exact ⟨_, hread hquote, hargs⟩

theorem read?_append (call : CallText) {sql : String} {rest : List Char}
    (h : sql.toList = call.before.toList ++ rest) :
    call.read? sql = readArguments call.behind rest := by
  have hbefore : sql.toList.dropPrefix? call.before.toList = some rest :=
    List.dropPrefix?_eq_some_iff.mpr ⟨_, h, BEq.rfl⟩
  rw [read?, hbefore, Option.bind_some]

def lastValue : CallText := ⟨"SELECT currval(pg_get_serial_sequence(", [",", "))"]⟩

def nextValue : CallText := ⟨"SELECT nextval(", [")"]⟩

theorem lastValue_separates : Separates lastValue.behind := by
  simp [Separates, lastValue]

theorem nextValue_separates : Separates nextValue.behind := by
  simp [Separates, nextValue]

end CallText

/-! ## Statements -/

namespace Profile

variable {p : Profile}

theorem writtenName_eq_lower (hp : p.vendor = .postgresql) (kind : IdentifierKind) (name : String) :
    p.writtenName name = lower (p.identifiers.truncate name kind) := by
  have hcase : p.identifiers.case = .lower := by
    rw [identifiers, hp]
    rfl
  rw [writtenName, IdentifierPolicy.fold, hcase]
  rfl

/-- A written name has a quote exactly if what is kept of the name has one. -/
theorem quote_mem_identifier (hp : p.vendor = .postgresql) (kind : IdentifierKind) (name : String) :
    '\x27' ∈ (p.identifier kind name).toList ↔
      '\x27' ∈ (p.identifiers.truncate name kind).toList := by
  have hopen : p.identifiers.openQuote = '"' := by
    rw [identifiers, hp]
    rfl
  have hclose : p.identifiers.closeQuote = '"' := by
    rw [identifiers, hp]
    rfl
  have hquote (written : String) :
      '\x27' ∈ (p.identifiers.quote written).toList ↔ '\x27' ∈ written.toList := by
    simp [IdentifierPolicy.quote, hopen, hclose, mem_doubledChars]
  rw [p.identifier_eq, ← quote_mem_lower (p.identifiers.truncate name kind),
    ← writtenName_eq_lower hp kind name]
  split
  · exact hquote _
  · rfl

theorem identityLastValue_toList (hp : p.vendor = .postgresql) {table column sql : String}
    (h : p.identityLastValue table column = .ok sql) :
    sql.toList = CallText.lastValue.before.toList ++ CallText.writeArguments id
      CallText.lastValue.behind [p.identifier .table table, p.identifier .column column] := by
  unfold identityLastValue identity? at h
  rw [hp] at h
  split_ifs at h
  · cases h
    simp [CallText.lastValue, CallText.writeArguments]
  · cases h

theorem sequenceNextValue_toList (hp : p.vendor = .postgresql) {name sql : String}
    (h : p.sequenceNextValue name = .ok sql) :
    sql.toList = CallText.nextValue.before.toList ++ CallText.writeArguments (doubled '\x27')
      CallText.nextValue.behind [p.identifier .sequence name] := by
  obtain ⟨⟨s, written⟩, hnamed, rfl⟩ := Except.map_eq_ok.mp h
  obtain ⟨_, hname, rfl, hsyntax⟩ := namedSequence_eq_ok hnamed
  rw [hp] at hsyntax
  cases hname
  cases hsyntax
  simp [CallText.nextValue, CallText.writeArguments, SequenceSyntax.nextValueStatement,
    SequenceSyntax.nextValueExpression]

/-- By the standard rule for quotes the name of a sequence is always read as it was written, and the names of
an identity column exactly if no quote is kept of them. -/
theorem name_arguments_read_iff (hp : p.vendor = .postgresql) (table column sequence : String) :
    (∀ sql, p.identityLastValue table column = .ok sql →
      (CallText.lastValue.read? sql =
          some [p.identifier .table table, p.identifier .column column] ↔
        '\x27' ∉ (p.identifiers.truncate table .table).toList ∧
          '\x27' ∉ (p.identifiers.truncate column .column).toList)) ∧
    ∀ sql, p.sequenceNextValue sequence = .ok sql →
      CallText.nextValue.read? sql = some [p.identifier .sequence sequence] := by
  constructor
  · intro sql h
    have hlength : [p.identifier .table table, p.identifier .column column].length =
        CallText.lastValue.behind.length := rfl
    rw [CallText.read?_append _ (identityLastValue_toList hp h),
      CallText.readArguments_id_iff CallText.lastValue_separates hlength, List.forall_mem_cons,
      List.forall_mem_singleton, quote_mem_identifier hp, quote_mem_identifier hp]
  · intro sql h
    have hlength : [p.identifier .sequence sequence].length = CallText.nextValue.behind.length := rfl
    rw [CallText.read?_append _ (sequenceNextValue_toList hp h),
      CallText.readArguments_doubled CallText.nextValue_separates hlength]

theorem name_arguments_read_iff_orders :
    let p := Profile.ofVendor .postgresql ⟨16, 0, 0⟩
    let last := "SELECT currval(pg_get_serial_sequence(\x27\"order item\"\x27,\x27id\x27))"
    let next := "SELECT nextval(\x27\"o\x27\x27brien\"\x27)"
    p.vendor = .postgresql ∧ p.identityLastValue "Order Item" "ID" = .ok last ∧
      p.sequenceNextValue "O\x27Brien" = .ok next ∧
      (CallText.lastValue.read? last =
          some [p.identifier .table "Order Item", p.identifier .column "ID"] ↔
        '\x27' ∉ (p.identifiers.truncate "Order Item" .table).toList ∧
          '\x27' ∉ (p.identifiers.truncate "ID" .column).toList) ∧
      CallText.nextValue.read? next = some [p.identifier .sequence "O\x27Brien"] := by
  intro p last next
  have hlast : p.identityLastValue "Order Item" "ID" = .ok last := by decide +kernel
  have hnext : p.sequenceNextValue "O\x27Brien" = .ok next := by decide +kernel
  obtain ⟨hlastRead, hnextRead⟩ :=
    name_arguments_read_iff (p := p) rfl "Order Item" "ID" "O\x27Brien"
  exact ⟨rfl, hlast, hnext, hlastRead last hlast, hnextRead next hnext⟩

/-- The quote of the table's name ends the first argument, and what follows is no call any more. -/
theorem lastValue_misread :
    let p := Profile.ofVendor .postgresql ⟨16, 0, 0⟩
    let sql := "SELECT currval(pg_get_serial_sequence(\x27\"o\x27brien\"\x27,\x27id\x27))"
    p.identityLastValue "O\x27Brien" "id" = .ok sql ∧ CallText.lastValue.read? sql = none ∧
      ¬∀ table column sql, p.identityLastValue table column = .ok sql →
        CallText.lastValue.read? sql =
          some [p.identifier .table table, p.identifier .column column] := by
  have hwritten : (Profile.ofVendor .postgresql ⟨16, 0, 0⟩).identityLastValue "O\x27Brien" "id" =
      .ok "SELECT currval(pg_get_serial_sequence(\x27\"o\x27brien\"\x27,\x27id\x27))" := by
    decide +kernel
  have hread : CallText.lastValue.read?
      "SELECT currval(pg_get_serial_sequence(\x27\"o\x27brien\"\x27,\x27id\x27))" = none := by
    decide +kernel
  refine ⟨hwritten, hread, fun h => ?_⟩
  have hboth := h _ _ _ hwritten
  rw [hread] at hboth
  cases hboth

end Profile

end ObjectSql
