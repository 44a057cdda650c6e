import FleetAtlas.Cluster.Identity
import FleetAtlas.Fingerprint.Source
import FleetAtlas.Handler.Restarts
import FleetAtlas.Handler.Topology
import FleetAtlas.Task.Basic

/-!
# What pods say about the fleet

* `Mounts`: the configuration objects that a microservice uses;
* `updatePod`: stores the two configurations of a pod, its instance, and the events of its restarts;
* `stopPod`: stops the instance of a pod that is gone;
* `handlePod`: the one or the other.

The caches are looked into before anything is stored.
-/

namespace FleetAtlas

open FleetAtlas.Task

/-! ### Configuration -/

/-- The names of the configuration objects that a microservice uses. -/
structure Mounts where
  tenants : String
  platform : String
  files : String
  environment : String
  secretEnvironment : String
deriving DecidableEq

namespace Mounts

/-- The config map that fills the volume of a name. -/
def volume? (s : PodSpec) (name : String) : Option String :=
  (s.volumes.filter fun v => v.name = name).findSome? Volume.configMap

/-- The configuration objects of a pod, if it has all of them. -/
def of? (s : PodSpec) (head : Container) : Option Mounts := do
  let tenants ← volume? s "tenants-config"
  let platform ← volume? s "dolittle-config"
  let files ← volume? s "config-files"
  let environment ← (head.environment.filterMap EnvironmentSource.configMap).find? fun name =>
    "-env-variables".toList.isSuffixOf name.toList
  let secretEnvironment ← (head.environment.filterMap EnvironmentSource.secret).find? fun name =>
    "-secret-env-variables".toList.isSuffixOf name.toList
  return { tenants, platform, files, environment, secretEnvironment }

end Mounts

/-- The config map of a name in a namespace. -/
def Caches.configMap (c : Caches) (scope name : String) : Except Failure Source :=
  match c.configMaps.lookup scope name with
  | some m => .ok (.configMap m)
  | none => .error (.missingConfiguration ("ConfigMap " ++ scope ++ "/" ++ name))

/-- The secret of a name in a namespace. -/
def Caches.secret (c : Caches) (scope name : String) : Except Failure Source :=
  match c.secrets.lookup scope name with
  | some s => .ok (.secret s)
  | none => .error (.missingConfiguration ("Secret " ++ scope ++ "/" ++ name))

/-- The fingerprints of what the platform and of what the customer configures. -/
structure Fingerprints where
  runtime : String
  artifact : String
deriving DecidableEq

/-- The fingerprints of what a microservice uses in a namespace. -/
def fingerprints (c : Caches) (scope : String) (m : Mounts) : Except Failure Fingerprints := do
  let tenants ← c.configMap scope m.tenants
  let platform ← c.configMap scope m.platform
  let files ← c.configMap scope m.files
  let environment ← c.configMap scope m.environment
  let secretEnvironment ← c.secret scope m.secretEnvironment
  return { runtime := fingerprint [tenants, platform], artifact := fingerprint [files, environment, secretEnvironment] }

/-! ### Live pods -/

/-- Where a pod of the fleet stands, what it runs, and what it uses. -/
structure Workload where
  identity : Identity
  spec : PodSpec
  mounts : Mounts
deriving DecidableEq

/-- The workload of a pod of the fleet. -/
def workload? (p : Pod) : Option Workload := do
  let identity ← Identity.ofMetadata? p.metadata
  let spec ← p.spec
  let containers ← spec.microservice?
  let mounts ← Mounts.of? spec containers.head
  return { identity, spec, mounts }

/-- Stores an event of restarts, over the one that is stored if its count grew. -/
def storeRestarts (e : Event) : Task Unit := do
  let stored ← fetch .event e.uid
  match Event.merge e stored with
  | some merged => store merged
  | none => done ()

/-- Stores an event of restarts, if there is one. -/
def storeRestarts? : Option Event → Task Unit
  | some e => storeRestarts e
  | none => done ()

/-- Stores what a workload says, run for a revision under given fingerprints. -/
def storeWorkload (p : Pod) (w : Workload) (prints : Fingerprints) (revision : String) : Task Unit := do
  let i := w.identity
  let runtime := Entity.runtimeConfiguration i.tenantId i.applicationId i.environment i.microserviceId prints.runtime
  store runtime
  let artifact :=
    Entity.artifactConfiguration i.tenantId i.applicationId i.environment i.microserviceId prints.artifact
  store artifact
  let started ← creationTime p.metadata
  let observed := Entity.deploymentInstance (i.deployment revision) (p.metadata.uid.getD "") started artifact.uid
    runtime.uid (w.spec.nodeName.map Uid.node)
  let stored ← fetch .deploymentInstance observed.uid
  store (DeploymentInstance.withStopped observed (stored.bind fun s => (DeploymentInstance.info s).stopped))
  storeRestarts? ((restartsOf p.statuses true).event? observed.uid true)
  storeRestarts? ((restartsOf p.statuses false).event? observed.uid false)

/-- Stores what a live pod says. -/
def updatePod (c : Caches) (p : Pod) : Task Unit :=
  match workload? p with
  | none => done ()
  | some w => do
    let prints ← ofExcept (fingerprints c p.metadata.scopeName w.mounts)
    let owner ← ofExcept (podOwner c.replicaSets p)
    match owner.revision? with
    | none => done ()
    | some revision => storeWorkload p w prints revision

/-! ### Pods that are gone -/

/-- The instance that a pod backs, if its owner is cached. -/
def instanceOf? (c : Caches) (p : Pod) : Option (Uid .deploymentInstance) :=
  match Identity.ofMetadata? p.metadata, podOwner c.replicaSets p with
  | some identity, .ok owner =>
    owner.revision?.map fun revision => identity.instanceUid revision (p.metadata.uid.getD "")
  | _, _ => none

/-- Stops the instance of a pod, if it is stored and not stopped; the sweep stops it when the owner is gone as well. -/
def stopPod (c : Caches) (p : Pod) : Task Unit :=
  match instanceOf? c p with
  | none => done ()
  | some uid => do
    match ← fetch .deploymentInstance uid with
    | none => done ()
    | some i =>
      let time ← currentTime
      if DeploymentInstance.isStopped i then done () else store (DeploymentInstance.stop i time)

/-- Stores what a pod says, or stops its instance. -/
def handlePod (c : Caches) (p : Pod) (deleted : Bool) : Task Unit := if deleted then stopPod c p else updatePod c p

end FleetAtlas
