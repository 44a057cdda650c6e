import FleetAtlas.Cluster.Identity
import FleetAtlas.Cluster.Image
import FleetAtlas.Handler.Workload
import FleetAtlas.Task.Basic

/-!
# What namespaces, nodes and replica sets say about the fleet

* `handleNamespace`: a customer and an application;
* `handleClusterNode`: a node;
* `handleReplicaSet`: an environment, an artifact, its version, the version of the runtime, and a deployment.

An object that is gone, or that lacks the marks of the fleet, says nothing.
-/

namespace FleetAtlas

open FleetAtlas.Task

/-- Stores the customer and the application of a namespace. -/
def handleNamespace (n : Namespace) (deleted : Bool) : Task Unit :=
  if deleted then done ()
  else
    match Tenancy.ofMetadata? n.metadata with
    | none => done ()
    | some t => do
      store (.customer t.tenantId ((n.metadata.label? tenantLabel).getD ""))
      store (.application t.tenantId t.applicationId ((n.metadata.label? applicationLabel).getD ""))

/-- The entity of a node that has all its labels. -/
def nodeEntity? (n : ClusterNode) : Option (Entity .node) := do
  let hostname ← n.metadata.label? "kubernetes.io/hostname"
  let image ← n.metadata.label? "kubernetes.azure.com/node-image-version"
  let nodeType ← n.metadata.label? "node.kubernetes.io/instance-type"
  return .node n.metadata.anyName hostname image nodeType

/-- Stores the entity of a node. -/
def handleClusterNode (n : ClusterNode) (deleted : Bool) : Task Unit :=
  if deleted then done ()
  else
    match nodeEntity? n with
    | none => done ()
    | some e => store e

/-- What a replica set of the fleet says: where it stands, the name and the revision of its microservice, its images. -/
structure Rollout where
  identity : Identity
  name : String
  revision : String
  headImage : String
  runtimeImage : String
deriving DecidableEq

/-- The rollout of a replica set of the fleet. -/
def rollout? (r : ReplicaSet) : Option Rollout := do
  let identity ← Identity.ofMetadata? r.metadata
  let name ← r.metadata.label? microserviceLabel
  let revision ← r.revision?
  let spec ← r.template
  let containers ← spec.microservice?
  let headImage ← containers.head.image
  let runtimeImage ← containers.runtime.image
  return { identity, name, revision, headImage, runtimeImage }

/-- The time at which an object was made, the current one when it does not say. -/
def creationTime (m : Metadata) : Task Timestamp :=
  match m.created with
  | some time => done time
  | none => currentTime

/-- Stores what a rollout says, the deployment last. -/
def storeRollout (m : Metadata) (o : Rollout) (runtime : Entity .runtimeVersion) : Task Unit := do
  let i := o.identity
  let version := Entity.artifactVersion i.tenantId i.microserviceId (Image.artifactName o.headImage) none
  store (.environment i.tenantId i.applicationId i.environment)
  store (.artifact i.tenantId i.microserviceId)
  store version
  store runtime
  let created ← creationTime m
  store (.deployment i.tenantId i.applicationId i.environment o.revision o.name created version.uid runtime.uid)

/-- Stores what a replica set says, if the version of its runtime can be told. -/
def handleReplicaSet (r : ReplicaSet) (deleted : Bool) : Task Unit :=
  if deleted then done ()
  else
    match rollout? r with
    | none => done ()
    | some o =>
      match Image.runtimeVersion o.runtimeImage with
      | .error e => fail e
      | .ok runtime => storeRollout r.metadata o runtime

end FleetAtlas
