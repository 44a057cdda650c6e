import FleetAtlas.Confirmation
import FleetAtlas.Settings.CommandLine
import FleetAtlas.Settings.File
import FleetAtlas.Storage.Export

/-!
# The program

`export` writes all records to the output, `drop` removes them after a confirmation, and any other command line is that
of the observation: its settings are loaded and its storage is opened.
-/

namespace FleetAtlas.Program

/-- The variables of the environment that settings are read from. -/
def readVariables : IO (String → Option String) := do
  let values ← Setting.all.mapM fun s => do return (s.environmentName, ← IO.getEnv s.environmentName)
  return fun name => (values.find? fun v => v.1 = name).bind Prod.snd

/-- What a file sets. -/
def readFile (path : String) : IO (Except SettingsError Options) := do
  try return Options.ofFile (some (← IO.FS.readFile path))
  catch _ => return Options.ofFile none

/-- Tells why a command line sets nothing. -/
def explain : UsageError → String
  | .unknownArgument => "unexpected argument"
  | .invalidValue => "a value is missing or cannot be chosen"
  | .unreadableValue => "a value cannot be read"
  | .conflict => "a flag is given twice"
  | .tooManyValues => "a flag takes no value"
  | .help => "flags: " ++ " ".intercalate (Setting.all.map fun s => "--" ++ s.flag ++ " VALUE")
  | .version => "fleet-atlas"

/-- Writes a complaint and fails. -/
def fail (text : String) : IO UInt32 := do
  IO.eprintln text
  return 1

/-- Opens the storage that is set and goes on with it. -/
def withStore (storage : StorageSettings) (next : Store → IO UInt32) : IO UInt32 :=
  match storage.connect with
  | .ok store => next store
  | .error e => fail (e.message?.getD "")

/-- Writes all records of a store. -/
def exportStore (store : Store) : IO UInt32 := do
  match store.exported with
  | .ok records =>
    IO.print (Export.text records)
    return 0
  | .error e => fail (e.message?.getD "")

/-- Asks for a confirmation to drop everything. -/
def dropStore (_store : Store) : IO UInt32 := do
  IO.println "Type 'yes' to drop the data..."
  let line ← (← IO.getStdin).getLine
  IO.println (if Confirmation.confirms (Confirmation.answer? line.toList) then "Dropped" else "Dropping aborted")
  return 0

/-- Loads the settings of the observation and opens its storage. -/
def observe (flags : Options) : IO UInt32 := do
  match flags.load (← flags.files.mapM readFile) with
  | .ok settings => withStore settings.storage fun _ => return 0
  | .error .missingFile => fail "Configuration file error: a file cannot be read"
  | .error .malformedFile => fail "Configuration file error: a file does not decode"

end FleetAtlas.Program

open FleetAtlas FleetAtlas.Program in
/-- Runs the command of a command line. -/
def main (arguments : List String) : IO UInt32 := do
  let (command, flags) :=
    match arguments with
    | "export" :: rest => (some exportStore, rest)
    | "drop" :: rest => (some dropStore, rest)
    | rest => (none, rest)
  match Options.ofCommandLine flags (← readVariables) with
  | .error e => fail (explain e)
  | .ok options =>
    match command with
    | some run => withStore options.storage run
    | none => observe options
