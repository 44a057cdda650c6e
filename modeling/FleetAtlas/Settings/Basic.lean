import FleetAtlas.Settings.Storage

/-!
# Settings

* `Options`: what one layer sets: the command line, or a file;
* `Options.or`: a layer over another;
* `Options.settings`: the settings of a layer, with the defaults for what it does not set;
* `Options.load`: files over one another, and the command line over them.
-/

namespace FleetAtlas

/-- How the log is written. -/
inductive LogFormat where
  | console
  | json
deriving DecidableEq, Inhabited, Repr

namespace LogFormat

/-- The name of a format. -/
def name : LogFormat → String
  | console => "console"
  | json => "json"

/-- The format of a name. -/
def ofName? (text : String) : Option LogFormat := [console, json].find? fun f => f.name = text

end LogFormat

/-- What a layer sets: the configuration files, the seconds between two passes of the cleanup, the address to listen on,
the format of the log, and the storage. -/
structure Options where
  files : List String
  cleanupPeriod : Option UInt64
  listen : Option String
  logFormat : Option LogFormat
  storage : StorageSettings
deriving DecidableEq

/-- What holds in the end. -/
structure Settings where
  cleanupPeriod : UInt64
  listen : String
  logFormat : LogFormat
  storage : StorageSettings
deriving DecidableEq

/-- Why settings cannot be loaded. -/
inductive SettingsError where
  | missingFile
  | malformedFile
deriving DecidableEq, Repr

namespace Options

/-- A layer that sets nothing. -/
def unset : Options := ⟨[], none, none, none, .unset⟩

instance : Inhabited Options := ⟨unset⟩

/-- What a layer sets, and from the fallback what it does not; the files are those of the layer. -/
def or (o fallback : Options) : Options where
  files := o.files
  cleanupPeriod := o.cleanupPeriod <|> fallback.cleanupPeriod
  listen := o.listen <|> fallback.listen
  logFormat := o.logFormat <|> fallback.logFormat
  storage := o.storage.or fallback.storage

/-- The settings of a layer. -/
def settings (o : Options) : Settings where
  cleanupPeriod := o.cleanupPeriod.getD 60
  listen := o.listen.getD "0.0.0.0:9000"
  logFormat := o.logFormat.getD .console
  storage := o.storage

/-- Files over one another, each over those before it. -/
def layer (below : Options) : List (Except SettingsError Options) → Except SettingsError Options
  | [] => .ok below
  | file :: rest => do layer ((← file).or below) rest

/-- The settings of a command line over files. -/
def load (flags : Options) (files : List (Except SettingsError Options)) : Except SettingsError Settings := do
  return (flags.or (← layer unset files)).settings

end Options

end FleetAtlas
