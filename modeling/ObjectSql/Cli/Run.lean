import ObjectSql.Cli.Command
import ObjectSql.Json.Parser
import ObjectSql.Json.Printer
import ObjectSql.Schema.Json
import ObjectSql.Schema.Script
import ObjectSql.SqlType.Report

/-!
# Running commands

A command prints what it renders, or one line that says why it cannot. Nothing is printed before
everything is rendered.
-/
namespace ObjectSql

open Text

/-- The statement that creates a sequence, and if asked for the one that reads its next value. -/
def Profile.sequenceScript (p : Profile) (o : SequenceOptions) (next : Bool) :
    Except SqlError (List String) := do
  let create ← p.createSequence o
  match next, o.name with
  | true, some name => do
    let read ← p.sequenceNextValue name
    pure [create, read]
  | _, _ => pure [create]

/-- Whether a word is reserved, and how it is written as a column. -/
def Profile.keywordLine (p : Profile) (word : String) : String :=
  word ++ ": " ++ (if p.isReserved word then "reserved" else "not reserved") ++ ", written " ++
    p.identifier .column word

def SchemaConfig.parse? (text : String) : Option SchemaConfig :=
  (Json.parse? text).bind ofJson?

namespace Cli

inductive RunError where
  | sql (e : SqlError)
  | unreadable (path : String)
  | notSchema (path : String)
deriving Repr, DecidableEq

def RunError.message : RunError → String
  | sql e => e.message
  | unreadable path => "reading schema file " ++ path
  | notSchema path => "parsing schema file " ++ path

/-- What a run leaves behind. -/
structure RunResult where
  exit : Nat
  stdout : String
  stderr : String
deriving Repr, DecidableEq, Inhabited

def lines (ls : List String) : String := String.join (ls.map (· ++ "\n"))

/-- The schema in the file of a path, whose text is there if it can be read. -/
def readSchema (path : String) (file : Option String) : Except RunError SchemaConfig :=
  match file with
  | none => .error (.unreadable path)
  | some text =>
    match SchemaConfig.parse? text with
    | none => .error (.notSchema path)
    | some schema => .ok schema

def ofSql {α : Type} : Except SqlError α → Except RunError α := Except.mapError .sql

/-- The output of a command. -/
def Command.output (p : Profile) (file : Option String) : Command → Except RunError String
  | .paginate offset count ordered => .ok (lines [p.rangeClause offset count ordered])
  | .sequence options next =>
    (ofSql (p.sequenceScript options next)).map fun sql => lines (sql.map (· ++ ";"))
  | .ddl path drop => do
    let schema ← readSchema path file
    let sql ← ofSql (if drop then p.dropSchema schema else p.createSchema schema)
    pure (lines (sql.map (· ++ ";\n")))
  | .types logicalType json =>
    (ofSql (TypeReport.all p.types logicalType)).map fun reports =>
      if json then lines [(Json.array (reports.map TypeReport.toJson)).pretty]
      else lines (reports.map TypeReport.line)
  | .keywords words => .ok (lines (words.map p.keywordLine))

def Invocation.run (i : Invocation) (file : Option String) : RunResult :=
  match (ofSql (Profile.ofConfig i.profile)).bind fun p => i.command.output p file with
  | .ok stdout => ⟨0, stdout, ""⟩
  | .error e => ⟨1, "", lines ["Error: " ++ e.message]⟩

/-- What is left behind when the arguments cannot be read. -/
def misuse : RunResult :=
  ⟨2, "", lines ["error: wrong arguments",
    "usage: [--vendor NAME] [--db-version VERSION] [--enable KEYS] [--disable KEYS] [-v] COMMAND",
    "commands: paginate, sequence, ddl, types, keywords"]⟩

end Cli

end ObjectSql
