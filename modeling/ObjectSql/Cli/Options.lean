/-!
# Reading command line options

Options stand in front of everything else. One that takes a value has it attached behind an equals
sign, or as the next argument unless that begins with a dash. Short options may share a dash. What
breaks a rule is misuse, which has no further detail.
-/
namespace ObjectSql.Cli

structure OptionSpec where
  name : String
  short : Option Char
  takesValue : Bool
  repeatable : Bool
deriving Repr, DecidableEq, Inhabited

namespace OptionSpec

def value (name : String) : OptionSpec := ⟨name, none, true, false⟩

def flag (name : String) : OptionSpec := ⟨name, none, false, false⟩

def list (name : String) : OptionSpec := ⟨name, none, true, true⟩

def withShort (o : OptionSpec) (c : Char) : OptionSpec := { o with short := some c }

end OptionSpec

/-- What the form of an argument says about it. -/
inductive ArgForm where
  /-- Two dashes, behind which there are no options. -/
  | separator
  | long (name : String) (attached : Option String)
  | short (letters : List Char)
  /-- A value or a command; a single dash is one. -/
  | plain
deriving Repr, DecidableEq, Inhabited

def ArgForm.ofArg (arg : String) : ArgForm :=
  match arg.toList with
  | ['-', '-'] => separator
  | '-' :: '-' :: cs =>
    long (String.ofList (cs.takeWhile (· != '=')))
      (match cs.dropWhile (· != '=') with
        | _ :: rest => some (String.ofList rest)
        | [] => none)
  | '-' :: c :: cs => short (c :: cs)
  | _ => plain

/-- Options as given, with their values; flags have none. -/
abbrev GivenOptions := List (String × String)

/-- A cluster of short options: flags, and at its end an option with the value attached to it or
still to come. -/
def readShort (specs : List OptionSpec) : List Char → Option (GivenOptions × Option String)
  | [] => some ([], none)
  | c :: cs =>
    match specs.find? (·.short == some c) with
    | none => none
    | some o =>
      if o.takesValue then
        match cs with
        | [] => some ([], some o.name)
        | '=' :: rest => some ([(o.name, String.ofList rest)], none)
        | _ => some ([(o.name, String.ofList cs)], none)
      else (readShort specs cs).map fun (given, open?) => ((o.name, "") :: given, open?)

/-- One argument of a given form: the options in it, and an option that waits for its value. -/
def readForm (specs : List OptionSpec) : ArgForm → Option (GivenOptions × Option String)
  | .long name attached =>
    match specs.find? (·.name == name), attached with
    | some o, some v => if o.takesValue then some ([(name, v)], none) else none
    | some o, none => if o.takesValue then some ([], some name) else some ([(name, "")], none)
    | none, _ => none
  | .short letters => readShort specs letters
  | .separator | .plain => none

/-- Reads options up to the first other argument and returns what is left; `waiting` is an option
whose value comes next. -/
def readOptions (specs : List OptionSpec) :
    (waiting : Option String) → List String → Option (GivenOptions × List String)
  | none, [] => some ([], [])
  | some _, [] => none
  | some name, arg :: args =>
    match ArgForm.ofArg arg with
    | .plain => (readOptions specs none args).map fun (given, rest) => ((name, arg) :: given, rest)
    | _ => none
  | none, arg :: args =>
    match ArgForm.ofArg arg with
    | .separator | .plain => some ([], arg :: args)
    | form =>
      match readForm specs form with
      | none => none
      | some (given, waiting) =>
        (readOptions specs waiting args).map fun (more, rest) => (given ++ more, rest)

/-- Whether only repeatable options are given more than once. -/
def occurrencesAllowed (specs : List OptionSpec) (given : GivenOptions) : Bool :=
  specs.all fun o => o.repeatable || given.countP (fun g => g.1 == o.name) ≤ 1

/-- The options at the front of the arguments, and the other arguments. -/
def takeOptions (specs : List OptionSpec) (args : List String) :
    Option (GivenOptions × List String) :=
  match readOptions specs none args with
  | some (given, rest) => if occurrencesAllowed specs given then some (given, rest) else none
  | none => none

/-- The values of an option in their order. -/
def GivenOptions.all (given : GivenOptions) (name : String) : List String :=
  (given.filter fun g => g.1 == name).map Prod.snd

def GivenOptions.get? (given : GivenOptions) (name : String) : Option String :=
  (given.all name).head?

def GivenOptions.has (given : GivenOptions) (name : String) : Bool := (given.get? name).isSome

end ObjectSql.Cli
