import FleetAtlas.Entity.Uid
import FleetAtlas.Time.Timestamp

/-!
# Entities

* `Properties f`, `Links f`: what an entity of the family `f` says about itself, and what it refers to;
* `Entity f`: the uid, the kind, the properties and the links of one entity;
* `Entity.node`, `Entity.customer`, …: the entities as they are observed.
-/

namespace FleetAtlas

/-! ### Properties -/

structure NodeProperties where
  hostname : String
  image : String
  nodeType : String
deriving DecidableEq

structure CustomerProperties where
  id : String
  name : String
deriving DecidableEq

structure ApplicationProperties where
  id : String
  name : String
deriving DecidableEq

structure EnvironmentProperties where
  name : String
deriving DecidableEq

structure ArtifactProperties where
  id : String
deriving DecidableEq

/-- The time of release is unknown when a version is observed in a cluster. -/
structure ArtifactVersionProperties where
  name : String
  released : Option Timestamp
deriving DecidableEq

structure RuntimeVersionProperties where
  major : UInt32
  minor : UInt32
  patch : UInt32
  prerelease : Option String
  released : Option Timestamp
deriving DecidableEq

structure DeploymentProperties where
  id : String
  name : String
  created : Timestamp
deriving DecidableEq

/-- The fingerprint of a configuration. -/
structure ConfigurationProperties where
  contentHash : String
deriving DecidableEq

/-- The id is the uid of the pod that backs the instance; `stopped` is set once, when that pod is gone. -/
structure DeploymentInstanceProperties where
  id : String
  started : Timestamp
  stopped : Option Timestamp
deriving DecidableEq

/-- An event of the platform happened to the platform container rather than to one of the customer's. -/
structure EventProperties where
  count : Int32
  firstTime : Timestamp
  lastTime : Timestamp
  platform : Bool
deriving DecidableEq

/-- What the entities of a family say about themselves. -/
def Properties : Family → Type
  | .node => NodeProperties
  | .customer => CustomerProperties
  | .application => ApplicationProperties
  | .environment => EnvironmentProperties
  | .artifact => ArtifactProperties
  | .artifactVersion => ArtifactVersionProperties
  | .runtimeVersion => RuntimeVersionProperties
  | .deployment => DeploymentProperties
  | .artifactConfiguration | .runtimeConfiguration => ConfigurationProperties
  | .deploymentInstance => DeploymentInstanceProperties
  | .event => EventProperties

instance (f : Family) : DecidableEq (Properties f) := by cases f <;> (unfold Properties; infer_instance)

/-! ### Links -/

structure ApplicationLinks where
  ownedBy : Uid .customer
deriving DecidableEq

structure EnvironmentLinks where
  environmentOf : Uid .application
deriving DecidableEq

structure ArtifactLinks where
  developedBy : Uid .customer
deriving DecidableEq

structure ArtifactVersionLinks where
  versionOf : Uid .artifact
deriving DecidableEq

structure DeploymentLinks where
  deployedIn : Uid .environment
  usesArtifact : Uid .artifactVersion
  usesRuntime : Uid .runtimeVersion
deriving DecidableEq

structure DeploymentInstanceLinks where
  instanceOf : Uid .deployment
  usesArtifactConfiguration : Uid .artifactConfiguration
  usesRuntimeConfiguration : Uid .runtimeConfiguration
  scheduledOn : Option (Uid .node)
deriving DecidableEq

structure EventLinks where
  happenedTo : Uid .deploymentInstance
deriving DecidableEq

/-- What the entities of a family refer to. -/
def Links : Family → Type
  | .application => ApplicationLinks
  | .environment => EnvironmentLinks
  | .artifact => ArtifactLinks
  | .artifactVersion => ArtifactVersionLinks
  | .deployment => DeploymentLinks
  | .deploymentInstance => DeploymentInstanceLinks
  | .event => EventLinks
  | .node | .customer | .runtimeVersion | .artifactConfiguration | .runtimeConfiguration => Unit

instance (f : Family) : DecidableEq (Links f) := by cases f <;> (unfold Links; infer_instance)

/-! ### Entities -/

/-- One entity of a family. -/
structure Entity (family : Family) where
  uid : Uid family
  kind : String
  properties : Properties family
  links : Links family
deriving DecidableEq

/-- What an event reports. -/
inductive EventKind where
  | failedToStart
  | failedToPull
  | restart
deriving DecidableEq, Repr

/-- The kind of an entity that is an event. -/
def EventKind.name : EventKind → String
  | .failedToStart => "FailedToStartEvent"
  | .failedToPull => "FailedToPullEvent"
  | .restart => "RestartEvent"

namespace Entity

/-- A node of the cluster. -/
def node (name hostname image nodeType : String) : Entity .node :=
  ⟨.node name, Family.node.label, (⟨hostname, image, nodeType⟩ : NodeProperties), ()⟩

/-- A customer, called a tenant in the cluster. -/
def customer (id name : String) : Entity .customer :=
  ⟨.customer id, Family.customer.label, (⟨id, name⟩ : CustomerProperties), ()⟩

/-- An application of a customer. -/
def application (customerId id name : String) : Entity .application :=
  ⟨.application customerId id, Family.application.label, (⟨id, name⟩ : ApplicationProperties),
    (⟨.customer customerId⟩ : ApplicationLinks)⟩

/-- An environment of an application. -/
def environment (customerId applicationId name : String) : Entity .environment :=
  ⟨.environment customerId applicationId name, Family.environment.label, (⟨name⟩ : EnvironmentProperties),
    (⟨.application customerId applicationId⟩ : EnvironmentLinks)⟩

/-- An artifact that a customer develops: a microservice. -/
def artifact (customerId id : String) : Entity .artifact :=
  ⟨.artifact customerId id, Family.artifact.label, (⟨id⟩ : ArtifactProperties),
    (⟨.customer customerId⟩ : ArtifactLinks)⟩

/-- A version of an artifact: an image. -/
def artifactVersion (customerId artifactId name : String) (released : Option Timestamp) : Entity .artifactVersion :=
  ⟨.artifactVersion customerId artifactId name, Family.artifactVersion.label,
    (⟨name, released⟩ : ArtifactVersionProperties), (⟨.artifact customerId artifactId⟩ : ArtifactVersionLinks)⟩

/-- A version of the platform's runtime; an empty prerelease is none. -/
def runtimeVersion (major minor patch : UInt32) (prerelease : Option String) (released : Option Timestamp) :
    Entity .runtimeVersion :=
  let prerelease := prerelease.filter fun text => text ≠ ""
  ⟨.runtimeVersion major minor patch prerelease, Family.runtimeVersion.label,
    (⟨major, minor, patch, prerelease, released⟩ : RuntimeVersionProperties), ()⟩

/-- A revision of a microservice, rolled out in an environment. -/
def deployment (customerId applicationId environmentName revision name : String) (created : Timestamp)
    (version : Uid .artifactVersion) (runtime : Uid .runtimeVersion) : Entity .deployment :=
  ⟨.deployment customerId applicationId environmentName revision, Family.deployment.label,
    (⟨revision, name, created⟩ : DeploymentProperties),
    (⟨.environment customerId applicationId environmentName, version, runtime⟩ : DeploymentLinks)⟩

/-- The configuration of a microservice that its customer sees. -/
def artifactConfiguration (customerId applicationId environmentName artifactId hash : String) :
    Entity .artifactConfiguration :=
  ⟨.artifactConfiguration customerId applicationId environmentName artifactId hash,
    Family.artifactConfiguration.label, (⟨hash⟩ : ConfigurationProperties), ()⟩

/-- The configuration of a microservice that the platform sees. -/
def runtimeConfiguration (customerId applicationId environmentName artifactId hash : String) :
    Entity .runtimeConfiguration :=
  ⟨.runtimeConfiguration customerId applicationId environmentName artifactId hash,
    Family.runtimeConfiguration.label, (⟨hash⟩ : ConfigurationProperties), ()⟩

/-- A running instance of a deployment: a pod. -/
def deploymentInstance (of : Uid .deployment) (id : String) (started : Timestamp)
    (configuration : Uid .artifactConfiguration) (runtime : Uid .runtimeConfiguration) (on : Option (Uid .node)) :
    Entity .deploymentInstance :=
  ⟨.deploymentInstance of id, Family.deploymentInstance.label,
    (⟨id, started, none⟩ : DeploymentInstanceProperties),
    (⟨of, configuration, runtime, on⟩ : DeploymentInstanceLinks)⟩

/-- Something that happened to an instance. -/
def event (uid : Uid .event) (kind : EventKind) (count : Int32) (first last : Timestamp) (platform : Bool)
    (subject : Uid .deploymentInstance) : Entity .event :=
  ⟨uid, kind.name, (⟨count, first, last, platform⟩ : EventProperties), (⟨subject⟩ : EventLinks)⟩

end Entity

/-- The entity of a running microservice. -/
abbrev DeploymentInstance := Entity .deploymentInstance

/-- The entity of something that happened to an instance. -/
abbrev Event := Entity .event

namespace DeploymentInstance

/-- What the instance says about itself. -/
def info (i : DeploymentInstance) : DeploymentInstanceProperties := i.properties

/-- Whether the instance has a time of its stop. -/
def isStopped (i : DeploymentInstance) : Bool := i.info.stopped.isSome

/-- The instance with another time of its stop. -/
def withStopped (i : DeploymentInstance) (stopped : Option Timestamp) : DeploymentInstance :=
  { i with properties := ({ i.info with stopped } : DeploymentInstanceProperties) }

/-- The instance, stopped at a time unless it already is. -/
def stop (i : DeploymentInstance) (time : Timestamp) : DeploymentInstance :=
  if i.isStopped then i else i.withStopped (some time)

@[simp] theorem isStopped_stop (i : DeploymentInstance) (t : Timestamp) : (i.stop t).isStopped = true := by
  unfold stop; split
  · assumption
  · rfl

end DeploymentInstance

namespace Event

/-- What the event says about itself. -/
def info (e : Event) : EventProperties := e.properties

/-- Merges a counter with the one that is stored: `none` when the stored one is to stay, because the count did not
grow; else the new event, over the span of both. -/
def merge (new : Event) (stored : Option Event) : Option Event :=
  match stored with
  | none => some new
  | some old =>
    if new.info.count ≤ old.info.count then none
    else
      some { new with
        properties := ({ new.info with
          firstTime := new.info.firstTime.earlier old.info.firstTime
          lastTime := new.info.lastTime.later old.info.lastTime } : EventProperties) }

end Event

end FleetAtlas
