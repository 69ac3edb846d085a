import Cql.Command.Run

open Cql

def readText (path : String) : IO (Option String) :=
  try
    return some (← IO.FS.readFile path)
  catch _ => return none

def main (args : List String) : IO UInt32 := do
  match Command.ofArguments args with
  | .error fault =>
    IO.eprintln s!"error: {fault.message}"
    return 2
  | .ok command =>
    let content ← match command.schemaPath? with
      | some path => readText path
      | none => pure none
    match command.run content with
    | .ok text =>
      IO.print text
      return 0
    | .error fault =>
      IO.eprintln s!"Error: {fault.message}"
      return 1
