import FleetAtlas.Entity.Basic
import FleetAtlas.Record
import FleetAtlas.Time.Text

/-!
# Entities as JSON and as records

* `Properties.fields`, `Links.fields`: the names under which a family writes what its entities say and refer to;
* `Properties.ofJson?`, `Links.ofJson?`: what is read back, unknown names aside;
* `Entity.toJson`, `Entity.ofJson?`, `Entity.toRecord`, `Entity.ofRecord?`: the same for whole entities.
-/

namespace FleetAtlas

/-! ### Values -/

namespace Json

/-- The time that a string names. -/
def time? : Json → Option Timestamp
  | .str s => Timestamp.ofText? s
  | _ => none

/-- An integer from 0 up to `2 ^ 32 - 1`. -/
def uint32? : Json → Option UInt32
  | .int n => if 0 ≤ n ∧ n < 4294967296 then some (UInt32.ofNat n.toNat) else none
  | _ => none

/-- An integer from `- 2 ^ 31` up to `2 ^ 31 - 1`. -/
def int32? : Json → Option Int32
  | .int n => if -2147483648 ≤ n ∧ n < 2147483648 then some (Int32.ofInt n) else none
  | _ => none

/-- The text of a time. -/
def ofTime (t : Timestamp) : Json := .str t.toText

/-- The text of a time, or `null`. -/
def ofTime? (t : Option Timestamp) : Json := ofOption (t.map ofTime)

/-- The uid that a string names. -/
def uid? {f : Family} (j : Json) : Option (Uid f) := j.str?.map Uid.mk

end Json

/-! ### Properties -/

/-- The properties of an entity by name. -/
def Properties.fields : (f : Family) → Properties f → List (String × Json)
  | .node, (p : NodeProperties) => [("hostname", .str p.hostname), ("image", .str p.image), ("type", .str p.nodeType)]
  | .customer, (p : CustomerProperties) => [("id", .str p.id), ("name", .str p.name)]
  | .application, (p : ApplicationProperties) => [("id", .str p.id), ("name", .str p.name)]
  | .environment, (p : EnvironmentProperties) => [("name", .str p.name)]
  | .artifact, (p : ArtifactProperties) => [("id", .str p.id)]
  | .artifactVersion, (p : ArtifactVersionProperties) => [("name", .str p.name), ("released", .ofTime? p.released)]
  | .runtimeVersion, (p : RuntimeVersionProperties) =>
    [("major", .int p.major.toNat), ("minor", .int p.minor.toNat), ("patch", .int p.patch.toNat)]
      ++ (p.prerelease.map fun text => ("prerelease", Json.str text)).toList
      ++ [("released", .ofTime? p.released)]
  | .deployment, (p : DeploymentProperties) =>
    [("id", .str p.id), ("name", .str p.name), ("created", .ofTime p.created)]
  | .artifactConfiguration, (p : ConfigurationProperties) => [("contentHash", .str p.contentHash)]
  | .runtimeConfiguration, (p : ConfigurationProperties) => [("contentHash", .str p.contentHash)]
  | .deploymentInstance, (p : DeploymentInstanceProperties) =>
    [("id", .str p.id), ("started", .ofTime p.started), ("stopped", .ofTime? p.stopped)]
  | .event, (p : EventProperties) =>
    [("count", .int p.count.toInt), ("firstTime", .ofTime p.firstTime), ("lastTime", .ofTime p.lastTime),
      ("platform", .bool p.platform)]

/-- The names of the properties of a family in order, with whether they may be missing in an array. -/
def Properties.fieldNames : Family → List (String × Bool)
  | .node => [("hostname", false), ("image", false), ("type", false)]
  | .customer | .application => [("id", false), ("name", false)]
  | .environment => [("name", false)]
  | .artifact => [("id", false)]
  | .artifactVersion => [("name", false), ("released", false)]
  | .runtimeVersion =>
    [("major", false), ("minor", false), ("patch", false), ("prerelease", true), ("released", false)]
  | .deployment => [("id", false), ("name", false), ("created", false)]
  | .artifactConfiguration | .runtimeConfiguration => [("contentHash", false)]
  | .deploymentInstance => [("id", false), ("started", false), ("stopped", false)]
  | .event => [("count", false), ("firstTime", false), ("lastTime", false), ("platform", false)]

open Json in
/-- The properties that fields write. -/
def Properties.ofFields? : (f : Family) → List (String × Json) → Option (Properties f)
  | .node, fields => do
    let hostname ← required? fields "hostname" str?
    let image ← required? fields "image" str?
    let nodeType ← required? fields "type" str?
    return (⟨hostname, image, nodeType⟩ : NodeProperties)
  | .customer, fields => do
    let id ← required? fields "id" str?
    let name ← required? fields "name" str?
    return (⟨id, name⟩ : CustomerProperties)
  | .application, fields => do
    let id ← required? fields "id" str?
    let name ← required? fields "name" str?
    return (⟨id, name⟩ : ApplicationProperties)
  | .environment, fields => do
    let name ← required? fields "name" str?
    return (⟨name⟩ : EnvironmentProperties)
  | .artifact, fields => do
    let id ← required? fields "id" str?
    return (⟨id⟩ : ArtifactProperties)
  | .artifactVersion, fields => do
    let name ← required? fields "name" str?
    let released ← optional? fields "released" time?
    return (⟨name, released⟩ : ArtifactVersionProperties)
  | .runtimeVersion, fields => do
    let major ← required? fields "major" uint32?
    let minor ← required? fields "minor" uint32?
    let patch ← required? fields "patch" uint32?
    let prerelease ← optional? fields "prerelease" str?
    let released ← optional? fields "released" time?
    return (⟨major, minor, patch, prerelease, released⟩ : RuntimeVersionProperties)
  | .deployment, fields => do
    let id ← required? fields "id" str?
    let name ← required? fields "name" str?
    let created ← required? fields "created" time?
    return (⟨id, name, created⟩ : DeploymentProperties)
  | .artifactConfiguration, fields => do
    let hash ← required? fields "contentHash" str?
    return (⟨hash⟩ : ConfigurationProperties)
  | .runtimeConfiguration, fields => do
    let hash ← required? fields "contentHash" str?
    return (⟨hash⟩ : ConfigurationProperties)
  | .deploymentInstance, fields => do
    let id ← required? fields "id" str?
    let started ← required? fields "started" time?
    let stopped ← optional? fields "stopped" time?
    return (⟨id, started, stopped⟩ : DeploymentInstanceProperties)
  | .event, fields => do
    let count ← required? fields "count" int32?
    let firstTime ← required? fields "firstTime" time?
    let lastTime ← required? fields "lastTime" time?
    let platform ← required? fields "platform" bool?
    return (⟨count, firstTime, lastTime, platform⟩ : EventProperties)

/-- The properties that a JSON value writes. -/
def Properties.ofJson? (f : Family) (j : Json) : Option (Properties f) :=
  (j.fieldsOf? (Properties.fieldNames f)).bind (Properties.ofFields? f)

/-! ### Links -/

/-- The uids that an entity refers to, by the name of the link. -/
def Links.fields : (f : Family) → Links f → List (String × String)
  | .application, (l : ApplicationLinks) => [("ownedBy", l.ownedBy.text)]
  | .environment, (l : EnvironmentLinks) => [("environmentOf", l.environmentOf.text)]
  | .artifact, (l : ArtifactLinks) => [("developedBy", l.developedBy.text)]
  | .artifactVersion, (l : ArtifactVersionLinks) => [("versionOf", l.versionOf.text)]
  | .deployment, (l : DeploymentLinks) =>
    [("deployedIn", l.deployedIn.text), ("usesArtifact", l.usesArtifact.text), ("usesRuntime", l.usesRuntime.text)]
  | .deploymentInstance, (l : DeploymentInstanceLinks) =>
    [("instanceOf", l.instanceOf.text), ("usesArtifactConfiguration", l.usesArtifactConfiguration.text),
      ("usesRuntimeConfiguration", l.usesRuntimeConfiguration.text)]
      ++ (l.scheduledOn.map fun node => ("scheduledOn", node.text)).toList
  | .event, (l : EventLinks) => [("happenedTo", l.happenedTo.text)]
  | .node, _ | .customer, _ | .runtimeVersion, _ | .artifactConfiguration, _ | .runtimeConfiguration, _ => []

/-- The names of the links of a family in order, with whether they may be missing. -/
def Links.fieldNames (f : Family) : List (String × Bool) :=
  f.links.map fun l => (l.name, l.name = "scheduledOn")

open Json in
/-- The links that fields write. -/
def Links.ofFields? : (f : Family) → List (String × Json) → Option (Links f)
  | .application, fields => do
    let ownedBy ← required? fields "ownedBy" uid?
    return (⟨ownedBy⟩ : ApplicationLinks)
  | .environment, fields => do
    let environmentOf ← required? fields "environmentOf" uid?
    return (⟨environmentOf⟩ : EnvironmentLinks)
  | .artifact, fields => do
    let developedBy ← required? fields "developedBy" uid?
    return (⟨developedBy⟩ : ArtifactLinks)
  | .artifactVersion, fields => do
    let versionOf ← required? fields "versionOf" uid?
    return (⟨versionOf⟩ : ArtifactVersionLinks)
  | .deployment, fields => do
    let deployedIn ← required? fields "deployedIn" uid?
    let usesArtifact ← required? fields "usesArtifact" uid?
    let usesRuntime ← required? fields "usesRuntime" uid?
    return (⟨deployedIn, usesArtifact, usesRuntime⟩ : DeploymentLinks)
  | .deploymentInstance, fields => do
    let instanceOf ← required? fields "instanceOf" uid?
    let artifact ← required? fields "usesArtifactConfiguration" uid?
    let runtime ← required? fields "usesRuntimeConfiguration" uid?
    let scheduledOn ← optional? fields "scheduledOn" uid?
    return (⟨instanceOf, artifact, runtime, scheduledOn⟩ : DeploymentInstanceLinks)
  | .event, fields => do
    let happenedTo ← required? fields "happenedTo" uid?
    return (⟨happenedTo⟩ : EventLinks)
  | .node, _ | .customer, _ | .runtimeVersion, _ | .artifactConfiguration, _ | .runtimeConfiguration, _ => some ()

/-- The links that a JSON value writes. -/
def Links.ofJson? (f : Family) (j : Json) : Option (Links f) :=
  (j.fieldsOf? (Links.fieldNames f)).bind (Links.ofFields? f)

/-- The links of a family that has none. -/
def Links.none? : (f : Family) → Option (Links f)
  | .node | .customer | .runtimeVersion | .artifactConfiguration | .runtimeConfiguration => some ()
  | .application | .environment | .artifact | .artifactVersion | .deployment | .deploymentInstance | .event => none

/-! ### Entities -/

namespace Entity

variable {f : Family}

/-- The fields of an entity in JSON; only a family without links can leave them out. -/
def fieldNames (f : Family) : List (String × Bool) :=
  [("uid", false), ("type", false), ("properties", false), ("links", (Links.none? f).isSome)]

/-- The JSON form of an entity, links always there. -/
def toJson (e : Entity f) : Json :=
  .obj [("uid", .str e.uid.text), ("type", .str e.kind),
    ("properties", .ofDict (.ofList (Properties.fields f e.properties))),
    ("links", Record.linksJson (.ofList (Links.fields f e.links)))]

/-- The entity of a JSON value. -/
def ofJson? (f : Family) (j : Json) : Option (Entity f) := do
  let fields ← j.fieldsOf? (fieldNames f)
  let uid ← Json.required? fields "uid" Json.uid?
  let kind ← Json.required? fields "type" Json.str?
  let properties ← Json.required? fields "properties" (Properties.ofJson? f)
  let links ← match Json.lookup "links" fields with
    | some j => Links.ofJson? f j
    | none => Links.none? f
  return { uid, kind, properties, links }

/-- The entity as a record. -/
def toRecord (e : Entity f) : Record where
  uid := e.uid.text
  kind := e.kind
  properties := .ofList (Properties.fields f e.properties)
  links := .ofList (Links.fields f e.links)

/-- The entity that a record holds. -/
def ofRecord? (f : Family) (r : Record) : Option (Entity f) := ofJson? f r.toJson

end Entity

end FleetAtlas
