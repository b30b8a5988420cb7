import JavaMachine.Demo

/-!
# The command line

Runs the factorial demonstration with the configuration file that the first argument names, or
with the default configuration.
-/

open JavaMachine in
/-- Prints what the demonstration prints; its failure goes to the error output. -/
def main (args : List String) : IO UInt32 := do
  let outcome ← match args.head? with
    | none => pure (Demo.runText none)
    | some path =>
        try
          let text ← IO.FS.readFile path
          pure (Demo.runText (some text))
        catch _ => pure (Demo.unreadable path)
  for line in outcome.lines do
    IO.println line
  match outcome.failure with
  | none => return 0
  | some failure =>
      IO.eprintln s!"Error: {failure}"
      return 1
