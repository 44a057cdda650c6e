/-!
# Families of entities

* `Family`: a kind of thing that is stored, in the order of an export;
* `Family.collection`, `Family.label`: its name among documents and among the nodes of a graph;
* `Link`: a named reference from one family to another, and `Family.links`, those that a family has.
-/

namespace FleetAtlas

/-- A family of entities: a collection of documents, or a label of nodes. -/
inductive Family where
  | node
  | customer
  | application
  | environment
  | artifact
  | artifactVersion
  | runtimeVersion
  | deployment
  | artifactConfiguration
  | runtimeConfiguration
  | deploymentInstance
  | event
deriving DecidableEq, Inhabited, Repr

/-- A named reference to an entity of another family. -/
structure Link where
  name : String
  relationship : String
  target : Family
deriving DecidableEq, Repr

namespace Family

/-- Every family, in the order of an export. -/
def all : List Family :=
  [node, customer, application, environment, artifact, artifactVersion, runtimeVersion, deployment,
    artifactConfiguration, runtimeConfiguration, deploymentInstance, event]

theorem mem_all (f : Family) : f ∈ all := by cases f <;> decide

/-- The place of a family in an export. -/
def index : Family → Nat
  | node => 0
  | customer => 1
  | application => 2
  | environment => 3
  | artifact => 4
  | artifactVersion => 5
  | runtimeVersion => 6
  | deployment => 7
  | artifactConfiguration => 8
  | runtimeConfiguration => 9
  | deploymentInstance => 10
  | event => 11

/-- The collection of the documents of a family. -/
def collection : Family → String
  | node => "nodes"
  | customer => "customers"
  | application => "applications"
  | environment => "environments"
  | artifact => "artifacts"
  | artifactVersion => "artifact-versions"
  | runtimeVersion => "runtime-versions"
  | deployment => "deployments"
  | artifactConfiguration => "artifact-configurations"
  | runtimeConfiguration => "runtime-configurations"
  | deploymentInstance => "deployment-instances"
  | event => "events"

/-- The label of the nodes of a family, and the kind of its entities, events apart. -/
def label : Family → String
  | node => "Node"
  | customer => "Customer"
  | application => "Application"
  | environment => "Environment"
  | artifact => "Artifact"
  | artifactVersion => "ArtifactVersion"
  | runtimeVersion => "RuntimeVersion"
  | deployment => "Deployment"
  | artifactConfiguration => "ArtifactConfiguration"
  | runtimeConfiguration => "RuntimeConfiguration"
  | deploymentInstance => "DeploymentInstance"
  | event => "Event"

/-- The family with a label. -/
def ofLabel? (text : String) : Option Family := all.find? fun f => f.label = text

/-- The references that entities of a family make. -/
def links : Family → List Link
  | application => [⟨"ownedBy", "OwnedBy", customer⟩]
  | environment => [⟨"environmentOf", "EnvironmentOf", application⟩]
  | artifact => [⟨"developedBy", "DevelopedBy", customer⟩]
  | artifactVersion => [⟨"versionOf", "VersionOf", artifact⟩]
  | deployment =>
    [⟨"deployedIn", "DeployedIn", environment⟩, ⟨"usesArtifact", "UsesArtifact", artifactVersion⟩,
      ⟨"usesRuntime", "UsesRuntime", runtimeVersion⟩]
  | deploymentInstance =>
    [⟨"instanceOf", "InstanceOf", deployment⟩,
      ⟨"usesArtifactConfiguration", "UsesArtifactConfiguration", artifactConfiguration⟩,
      ⟨"usesRuntimeConfiguration", "UsesRuntimeConfiguration", runtimeConfiguration⟩,
      ⟨"scheduledOn", "ScheduledOn", node⟩]
  | event => [⟨"happenedTo", "HappenedTo", deploymentInstance⟩]
  | node | customer | runtimeVersion | artifactConfiguration | runtimeConfiguration => []

/-- The reference of a name. -/
def link? (f : Family) (name : String) : Option Link := f.links.find? fun l => l.name = name

/-- The reference that a relationship stands for. -/
def relationship? (f : Family) (relationship : String) : Option Link :=
  f.links.find? fun l => l.relationship = relationship

end Family

end FleetAtlas
