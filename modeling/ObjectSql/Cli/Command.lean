import ObjectSql.Cli.Options
import ObjectSql.Dialect.Json
import ObjectSql.Text.Digits

/-!
# Commands

The command line names a profile by options and then a command with options of its own.
-/
namespace ObjectSql.Cli

open Text

inductive Command where
  | paginate (offset count : Int) (ordered : Bool)
  /-- Creates a sequence, and reads its next value as well. -/
  | sequence (options : SequenceOptions) (next : Bool)
  /-- Creates or drops the schema that a file describes. -/
  | ddl (path : String) (drop : Bool)
  | types (logicalType : Option String) (json : Bool)
  | keywords (words : List String)
deriving Repr, DecidableEq, Inhabited

structure Invocation where
  profile : ProfileConfig
  command : Command
deriving Repr, DecidableEq, Inhabited

/-- The value of an option as an integer, if it is given. -/
def GivenOptions.int? (given : GivenOptions) (name : String) : Option (Option Int) :=
  match given.get? name with
  | none => some none
  | some s => (readInt64 s.toList).map some

namespace Command

/-- A command without arguments of its own has nothing behind its options but a separator. -/
def optionsOnly (specs : List OptionSpec) (args : List String) : Option GivenOptions :=
  match takeOptions specs args with
  | some (given, []) | some (given, ["--"]) => some given
  | _ => none

def readPaginate (args : List String) : Option Command := do
  let given ← optionsOnly [.value "offset", .value "count", .flag "ordered"] args
  let offset ← given.int? "offset"
  let count ← given.int? "count"
  pure (.paginate (offset.getD 0) (count.getD 0) (given.has "ordered"))

def readSequence (args : List String) : Option Command := do
  let given ← optionsOnly
    [.value "name", .value "start", .value "increment", .value "min", .value "max", .value "cache",
      .flag "next"] args
  let name ← given.get? "name"
  let start ← given.int? "start"
  let increment ← given.int? "increment"
  let min ← given.int? "min"
  let max ← given.int? "max"
  let cache ← given.int? "cache"
  pure (.sequence { name, min, max, start, increment, cache } (given.has "next"))

def readDdl (args : List String) : Option Command := do
  let given ← optionsOnly [(OptionSpec.value "schema").withShort 's', .flag "drop"] args
  let path ← given.get? "schema"
  if path.isEmpty then none else pure (.ddl path (given.has "drop"))

def readTypes (args : List String) : Option Command := do
  let given ← optionsOnly [.value "logical", .flag "json"] args
  pure (.types (given.get? "logical") (given.has "json"))

/-- Plain arguments up to a separator and all arguments behind it. -/
def readWords : List String → Option (List String)
  | [] => some []
  | arg :: args =>
    match ArgForm.ofArg arg with
    | .separator => some args
    | .plain => (readWords args).map (arg :: ·)
    | _ => none

def readKeywords (args : List String) : Option Command :=
  match readWords args with
  | none | some [] => none
  | some words => some (.keywords words)

def read (name : String) (args : List String) : Option Command :=
  match name with
  | "paginate" => readPaginate args
  | "sequence" => readSequence args
  | "ddl" => readDdl args
  | "types" => readTypes args
  | "keywords" => readKeywords args
  | _ => none

end Command

namespace Invocation

def specs : List OptionSpec :=
  [.value "vendor", .value "db-version", .list "enable", .list "disable",
    (OptionSpec.flag "verbose").withShort 'v']

/-- Reads the arguments; `vendor` stands in for a vendor that they do not name. -/
def read (vendor : Option String) (args : List String) : Option Invocation :=
  match takeOptions specs args with
  | some (given, name :: rest) => do
    let command ← Command.read name rest
    pure
      { profile :=
          { vendor := ((given.get? "vendor") <|> vendor).getD "generic"
            version := given.get? "db-version"
            enable := (given.all "enable").flatMap (splitOn ',')
            disable := (given.all "disable").flatMap (splitOn ',') }
        command := command }
  | _ => none

/-- The file that the command reads. -/
def path? (i : Invocation) : Option String :=
  match i.command with
  | .ddl path _ => some path
  | _ => none

end Invocation

end ObjectSql.Cli
