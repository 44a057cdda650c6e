import FleetAtlas.Settings.Basic
import FleetAtlas.Yaml.Document

/-!
# Settings files

* `Options.ofDocument?`: what a document sets; keys that mean nothing are left alone, those that do occur once;
* `Options.ofText?`: what the text of a file sets.
-/

namespace FleetAtlas

namespace Options

/-- Whether nothing is set: by a plain scalar that stands for nothing. A tag of nothing asks for one of the words. -/
def isUnset? : Yaml.Value → Option Bool
  | .scalar tag .plain text =>
    match tag with
    | none => some (Yaml.isNull text)
    | some tag => if tag ≠ .null then some false else if Yaml.isNullWord text then some true else none
  | _ => some false

/-- A value that may be nothing: what it stands for otherwise. -/
def unlessUnset {α : Type} (value : Yaml.Value) (read : Yaml.Value → Option α) : Option (Option α) := do
  if ← isUnset? value then return none else return some (← read value)

/-- An integer of 64 bits without sign. -/
def readPeriod? : Yaml.Value → Option UInt64
  | .scalar tag style text =>
    if style = .plain || (style = .literal && tag = some .int) then
      (Yaml.readNat? text.toList).bind fun n => if Yaml.fitsInto 64 n then some (.ofNat n) else none
    else none
  | _ => none

/-- A scalar of any kind, as it is written. -/
def readText? : Yaml.Value → Option String
  | .scalar _ _ text => some text
  | _ => none

/-- A format, by its name as the text, or as the tag of nothing. -/
def readLogFormat? : Yaml.Value → Option LogFormat
  | .scalar tag style text =>
    match tag.bind Yaml.Tag.localName? with
    | none => LogFormat.ofName? text
    | some name => if style = .plain && Yaml.isNull text then LogFormat.ofName? name else none
  | _ => none

/-- A scalar that stands for a text, or for nothing. -/
def readString? : Yaml.Value → Option (Option String)
  | .scalar tag style text =>
    match Yaml.Value.meaning? tag style text with
    | some .null => some none
    | some .text => some (some text)
    | _ => none
  | _ => none

/-- The keys that mean something. -/
def knownKeys : List String :=
  ["cleanupPeriod", "listen", "logFormat", "mongodbConnectionString", "mongodbDatabase", "neo4jConnectionString",
    "neo4jUsername", "neo4jPassword"]

/-- Sets what an entry says. -/
def setEntry? (o : Options) (key : String) (value : Yaml.Value) : Option Options := do
  let s := o.storage
  match key with
  | "cleanupPeriod" => return { o with cleanupPeriod := ← unlessUnset value readPeriod? }
  | "listen" => return { o with listen := ← unlessUnset value readText? }
  | "logFormat" => return { o with logFormat := ← unlessUnset value readLogFormat? }
  | "mongodbConnectionString" => return { o with storage := { s with mongodbConnection := ← readString? value } }
  | "mongodbDatabase" => return { o with storage := { s with mongodbDatabase := ← readString? value } }
  | "neo4jConnectionString" => return { o with storage := { s with neo4jConnection := ← readString? value } }
  | "neo4jUsername" => return { o with storage := { s with neo4jUsername := ← readString? value } }
  | "neo4jPassword" => return { o with storage := { s with neo4jPassword := ← readString? value } }
  | _ => if value.isReadable then return o else none

/-- Whether a key that means something occurs twice. -/
def repeatsKey (entries : List (String × Yaml.Value)) : Bool :=
  knownKeys.any fun key => decide (1 < (entries.filter fun e => e.1 = key).length)

/-- What a document sets: it is a mapping of texts, or nothing is written in it. -/
def ofDocument? : Option Yaml.Value → Option Options
  | none => some unset
  | some (.mapping _ entries) => do
    let entries ← entries.mapM fun (key, value) => do return (← readText? key, value)
    if repeatsKey entries then none else entries.foldlM (fun o (key, value) => o.setEntry? key value) unset
  | some (.scalar _ style text) => if style = .plain && text.isEmpty then some unset else none
  | some (.sequence ..) => none

/-- What the text of a file sets. -/
def ofText? (text : String) : Option Options := (Yaml.read? text).bind ofDocument?

/-- What a file sets, if there is one. -/
def ofFile : Option String → Except SettingsError Options
  | none => .error .missingFile
  | some text =>
    match ofText? text with
    | some o => .ok o
    | none => .error .malformedFile

end Options

end FleetAtlas
