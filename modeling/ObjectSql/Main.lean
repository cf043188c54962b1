import ObjectSql.Cli.Run

/-!
# The command line
-/

open ObjectSql.Cli in
/-- Runs one command; the file that it names is read before it. -/
def main (args : List String) : IO UInt32 := do
  let vendor ← IO.getEnv "OBJECT_SQL_VENDOR"
  let result ← match Invocation.read vendor args with
    | none => pure misuse
    | some i => do
      let file ← match i.path? with
        | none => pure none
        | some path =>
          try
            let text ← IO.FS.readFile path
            pure (some text)
          catch _ => pure none
      pure (i.run file)
  (← IO.getStdout).putStr result.stdout
  (← IO.getStderr).putStr result.stderr
  pure result.exit.toUInt32
