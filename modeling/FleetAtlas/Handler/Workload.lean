import FleetAtlas.Cluster.Cache
import FleetAtlas.Failure

/-!
# Workloads of the fleet

* `Caches`: the caches that handlers look into;
* `PodSpec.containers?`: the two containers that every microservice runs;
* `podOwner`: the one replica set that a pod belongs to, `ReplicaSet.revision?` the revision that it was rolled out for.
-/

namespace FleetAtlas

/-- The caches that handlers look into. -/
structure Caches where
  configMaps : Cache ConfigMap
  secrets : Cache Secret
  replicaSets : Cache ReplicaSet
  pods : Cache Pod

/-- The name of the container of the platform. -/
def runtimeContainer : String := "runtime"

/-- The name of the container of the customer. -/
def headContainer : String := "head"

/-- The two containers that every microservice runs. -/
structure Containers where
  runtime : Container
  head : Container
deriving DecidableEq

/-- The first container of a name. -/
def PodSpec.container? (s : PodSpec) (name : String) : Option Container := s.containers.find? fun c => c.name = name

/-- The two containers that every microservice runs, if both are there. -/
def PodSpec.microservice? (s : PodSpec) : Option Containers := do
  let runtime ← s.container? runtimeContainer
  let head ← s.container? headContainer
  return { runtime, head }

/-- The revision of its deployment that a replica set was rolled out for. -/
def ReplicaSet.revision? (r : ReplicaSet) : Option String :=
  r.metadata.annotations.get? "deployment.kubernetes.io/revision"

/-- The namespace of an object, the empty one when it is in none. -/
def Metadata.scopeName (m : Metadata) : String := m.scope.getD ""

/-- The namespace and the name of an object that is in a namespace, if only in the empty one. -/
def Metadata.fullName (m : Metadata) : String := m.scopeName ++ "/" ++ m.anyName

/-- The one replica set that owns a pod, as it is cached. -/
def podOwner (replicaSets : Cache ReplicaSet) (pod : Pod) : Except Failure ReplicaSet :=
  let m := pod.metadata
  match m.owners.filter fun o => o.kind = "ReplicaSet" with
  | [] => .error (.podOwnerNotFound m.fullName)
  | [owner] =>
    match replicaSets.lookup m.scopeName owner.name with
    | some replicaSet => .ok replicaSet
    | none => .error (.ownerNotCached (m.scopeName ++ "/" ++ owner.name))
  | _ :: _ :: _ => .error (.ambiguousPodOwner m.fullName)

end FleetAtlas
