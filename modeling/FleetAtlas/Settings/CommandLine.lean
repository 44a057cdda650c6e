import FleetAtlas.Settings.Basic

/-!
# Command lines

* `Setting`: what a command line can set, each with a flag and a variable of the environment;
* `Options.ofCommandLine`: what arguments set, and variables where the arguments set nothing.

The value of a flag is looked at only when the next flag begins or the line ends, so an argument that nobody knows is
reported before it.
-/

namespace FleetAtlas

/-- What a command line can set. -/
inductive Setting where
  | files
  | cleanupPeriod
  | listen
  | logFormat
  | mongodbConnection
  | mongodbDatabase
  | neo4jConnection
  | neo4jUsername
  | neo4jPassword
deriving DecidableEq, Repr

/-- Why a command line sets nothing: it cannot be understood, or asks for the help or the version. -/
inductive UsageError where
  | unknownArgument
  /-- A value is missing, or is not among those that can be chosen. -/
  | invalidValue
  /-- A value cannot be read. -/
  | unreadableValue
  /-- A flag is given twice. -/
  | conflict
  /-- A flag without a value has one. -/
  | tooManyValues
  | help
  | version
deriving DecidableEq, Repr

namespace Setting

/-- Every setting, in the order in which variables are looked at. -/
def all : List Setting :=
  [files, cleanupPeriod, listen, logFormat, mongodbConnection, mongodbDatabase, neo4jConnection, neo4jUsername,
    neo4jPassword]

/-- The name of the flag, without its dashes. -/
def flag : Setting → String
  | files => "config"
  | cleanupPeriod => "cleanup-period"
  | listen => "listen"
  | logFormat => "log-format"
  | mongodbConnection => "mongodb-connection-string"
  | mongodbDatabase => "mongodb-database"
  | neo4jConnection => "neo4j-connection-string"
  | neo4jUsername => "neo4j-username"
  | neo4jPassword => "neo4j-password"

/-- The variable of the environment. -/
def environmentName : Setting → String
  | files => "CONFIG"
  | cleanupPeriod => "CLEANUP_PERIOD"
  | listen => "LISTEN_ADDRESS"
  | logFormat => "LOG_FORMAT"
  | mongodbConnection => "MONGODB_CONNECTION_STRING"
  | mongodbDatabase => "MONGODB_DATABASE"
  | neo4jConnection => "NEO4J_CONNECTION_STRING"
  | neo4jUsername => "NEO4J_USERNAME"
  | neo4jPassword => "NEO4J_PASSWORD"

/-- The setting of a flag. -/
def ofFlag? (name : String) : Option Setting := all.find? fun s => s.flag = name

end Setting

/-! ### Values -/

/-- A number of 64 bits in decimal digits, a plus in front allowed. -/
def readCount? (text : String) : Option UInt64 :=
  let digits :=
    match text.toList with
    | '+' :: ds => ds
    | ds => ds
  if digits.isEmpty || !digits.all Char.isDigit then none
  else
    let n := digits.foldl (fun n c => n * 10 + (c.toNat - '0'.toNat)) 0
    if n < 0x10000000000000000 then some (.ofNat n) else none

/-- The paths between commas. -/
def splitPaths (text : String) : List String := text.splitOn ","

namespace Options

/-- Sets what the value of a flag says. -/
def assign (o : Options) (setting : Setting) (value : String) : Except UsageError Options :=
  let s := o.storage
  match setting with
  | .files =>
    let paths := splitPaths value
    if paths.contains "" then .error .invalidValue else .ok { o with files := o.files ++ paths }
  | .cleanupPeriod =>
    match readCount? value with
    | some n => .ok { o with cleanupPeriod := some n }
    | none => .error .unreadableValue
  | .listen => .ok { o with listen := some value }
  | .logFormat =>
    match LogFormat.ofName? value with
    | some f => .ok { o with logFormat := some f }
    | none => .error .invalidValue
  | .mongodbConnection => .ok { o with storage := { s with mongodbConnection := some value } }
  | .mongodbDatabase => .ok { o with storage := { s with mongodbDatabase := some value } }
  | .neo4jConnection => .ok { o with storage := { s with neo4jConnection := some value } }
  | .neo4jUsername => .ok { o with storage := { s with neo4jUsername := some value } }
  | .neo4jPassword => .ok { o with storage := { s with neo4jPassword := some value } }

end Options

/-! ### Arguments -/

/-- What the arguments so far have set, by which flags, and the flag that was begun last, with its value if it has
one. -/
structure ArgumentState where
  options : Options
  given : List Setting
  pending : Option (Setting × Option String)

namespace ArgumentState

/-- No argument was read. -/
def start : ArgumentState := ⟨.unset, [], none⟩

/-- Sets what a flag says; only that of the files may be given again. -/
def apply (a : ArgumentState) (setting : Setting) (value : Option String) : Except UsageError ArgumentState :=
  match value with
  | none => .error .invalidValue
  | some value =>
    if setting ≠ .files ∧ a.given.contains setting then .error .conflict
    else do
      let options ← a.options.assign setting value
      return { a with options, given := setting :: a.given }

/-- Looks at the flag that was begun last. -/
def resolve (a : ArgumentState) : Except UsageError ArgumentState :=
  match a.pending with
  | none => .ok a
  | some (setting, value) => { a with pending := none }.apply setting value

/-- Looks at the flag that was begun last, and then ends with the help or the version. -/
def interrupt (a : ArgumentState) (e : UsageError) : Except UsageError ArgumentState := do
  let _ ← a.resolve
  .error e

/-- Begins a flag of two dashes. -/
def beginFlag (a : ArgumentState) (name : String) (value : Option String) : Except UsageError ArgumentState :=
  if name = "help" ∨ name = "version" then
    if value.isSome then .error .tooManyValues else a.interrupt (if name = "help" then .help else .version)
  else
    match Setting.ofFlag? name with
    | none => .error .unknownArgument
    | some setting => do
      let a ← a.resolve
      match value with
      | some value => a.apply setting (some value)
      | none => return { a with pending := some (setting, none) }

/-- Reads an argument that begins no flag of two dashes. -/
def readOther (a : ArgumentState) (text : String) : Except UsageError ArgumentState :=
  match text.toList with
  | '-' :: 'h' :: _ => a.interrupt .help
  | '-' :: 'V' :: _ => a.interrupt .version
  | '-' :: _ :: _ => .error .unknownArgument
  | _ =>
    match a.pending with
    | some (setting, none) => .ok { a with pending := some (setting, some text) }
    | some (_, some _) | none => .error .unknownArgument

/-- Reads arguments, the first ones first; nothing may follow two dashes that stand alone. -/
def read (a : ArgumentState) : List String → Except UsageError ArgumentState
  | [] => a.resolve
  | text :: rest =>
    match text.toList with
    | ['-', '-'] => if rest.isEmpty then a.resolve else .error .unknownArgument
    | '-' :: '-' :: flag => do
      let name := flag.takeWhile (· ≠ '=')
      let value := if name.length < flag.length then some (String.ofList (flag.drop (name.length + 1))) else none
      let a ← a.beginFlag (String.ofList name) value
      a.read rest
    | _ => do
      let a ← a.readOther text
      a.read rest

/-- Sets what the variables say, in order, where no argument has. -/
def readVariables (a : ArgumentState) (find : String → Option String) :
    List Setting → Except UsageError ArgumentState
  | [] => .ok a
  | setting :: rest =>
    match find setting.environmentName with
    | some value =>
      if a.given.contains setting then a.readVariables find rest
      else do
        let a ← a.apply setting (some value)
        a.readVariables find rest
    | none => a.readVariables find rest

end ArgumentState

namespace Options

/-- What arguments set, and variables where the arguments set nothing. -/
def ofCommandLine (arguments : List String) (find : String → Option String) : Except UsageError Options := do
  let a ← ArgumentState.start.read arguments
  let a ← a.readVariables find Setting.all
  return a.options

end Options

end FleetAtlas
