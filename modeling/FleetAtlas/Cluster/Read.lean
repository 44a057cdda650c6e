import FleetAtlas.Cluster.Object
import FleetAtlas.Entity.Json
import FleetAtlas.Text.Base64

/-!
# Reading objects of a cluster

`Metadata.ofJson?`, `Pod.ofJson?`, …: the objects that JSON writes. What does not matter to the fleet is passed over;
a text that has to be there and is not is the empty one, a missing list has no items.
-/

namespace FleetAtlas

namespace Json

/-- The bytes that a string stands for in Base64; `null` stands for none. -/
def bytes? : Json → Option (List UInt8)
  | .str s => Base64.decode? s
  | .null => some []
  | _ => none

/-- A part that may be missing or `null`. -/
def part? {α : Type} (j : Json) (name : String) (read : Json → Option α) : Option (Option α) :=
  match j with
  | .obj fields => optional? fields name read
  | _ => none

/-- A text, the empty one when it is missing or `null`. -/
def text? (j : Json) (name : String) : Option String := (j.part? name str?).map (·.getD "")

/-- A list, without items when it is missing or `null`. -/
def list? {α : Type} (j : Json) (name : String) (read : Json → Option α) : Option (List α) :=
  (j.part? name (items? read)).map (·.getD [])

/-- A map, without entries when it is missing or `null`. -/
def map? {α : Type} (j : Json) (name : String) (read : Json → Option α) : Option (Dict String α) :=
  (j.part? name (entries? read)).map (·.getD ∅)

end Json

open Json

def OwnerReference.ofJson? (j : Json) : Option OwnerReference := do
  return { kind := ← j.text? "kind", name := ← j.text? "name" }

def Metadata.ofJson? (j : Json) : Option Metadata := do
  return {
    name := ← j.part? "name" str?
    generateName := ← j.part? "generateName" str?
    scope := ← j.part? "namespace" str?
    uid := ← j.part? "uid" str?
    resourceVersion := ← j.part? "resourceVersion" str?
    created := ← j.part? "creationTimestamp" time?
    annotations := ← j.map? "annotations" str?
    labels := ← j.map? "labels" str?
    owners := ← j.list? "ownerReferences" OwnerReference.ofJson? }

/-- The metadata of an object. -/
def Metadata.within? (j : Json) : Option Metadata :=
  (j.part? "metadata" Metadata.ofJson?).map (·.getD .empty)

def Namespace.ofJson? (j : Json) : Option Namespace := do return { metadata := ← Metadata.within? j }

def ClusterNode.ofJson? (j : Json) : Option ClusterNode := do return { metadata := ← Metadata.within? j }

def ConfigMap.ofJson? (j : Json) : Option ConfigMap := do
  return {
    metadata := ← Metadata.within? j
    data := ← j.map? "data" str?
    binaryData := ← j.map? "binaryData" bytes? }

def Secret.ofJson? (j : Json) : Option Secret := do
  return { metadata := ← Metadata.within? j, data := ← j.map? "data" bytes? }

def EnvironmentSource.ofJson? (j : Json) : Option EnvironmentSource := do
  return {
    configMap := ← j.part? "configMapRef" (·.text? "name")
    secret := ← j.part? "secretRef" (·.text? "name") }

def Container.ofJson? (j : Json) : Option Container := do
  return {
    name := ← j.text? "name"
    image := ← j.part? "image" str?
    environment := ← j.list? "envFrom" EnvironmentSource.ofJson? }

def Volume.ofJson? (j : Json) : Option Volume := do
  return { name := ← j.text? "name", configMap := ← j.part? "configMap" (·.text? "name") }

def PodSpec.ofJson? (j : Json) : Option PodSpec := do
  return {
    containers := ← j.list? "containers" Container.ofJson?
    volumes := ← j.list? "volumes" Volume.ofJson?
    nodeName := ← j.part? "nodeName" str? }

def ReplicaSet.ofJson? (j : Json) : Option ReplicaSet := do
  let spec ← j.part? "spec" fun spec => do
    let template ← spec.part? "template" fun template => template.part? "spec" PodSpec.ofJson?
    return template.join
  return { metadata := ← Metadata.within? j, template := spec.join }

/-- How a container ended, if its state says that it did. -/
def Termination.within? (j : Json) (name : String) : Option (Option Termination) := do
  let state ← j.part? name fun state =>
    state.part? "terminated" fun t => do return { finished := ← t.part? "finishedAt" time? }
  return state.join

def ContainerStatus.ofJson? (j : Json) : Option ContainerStatus := do
  return {
    name := ← j.text? "name"
    restarts := (← j.part? "restartCount" int32?).getD 0
    last := ← Termination.within? j "lastState"
    current := ← Termination.within? j "state" }

def Pod.ofJson? (j : Json) : Option Pod := do
  let status ← j.part? "status" fun status => do
    let phase ← status.part? "phase" str?
    let statuses ← status.list? "containerStatuses" ContainerStatus.ofJson?
    return (phase, statuses)
  return {
    metadata := ← Metadata.within? j
    spec := ← j.part? "spec" PodSpec.ofJson?
    phase := status.bind Prod.fst
    statuses := (status.map Prod.snd).getD [] }

def InvolvedObject.ofJson? (j : Json) : Option InvolvedObject := do
  return {
    kind := ← j.part? "kind" str?
    scope := ← j.part? "namespace" str?
    name := ← j.part? "name" str?
    fieldPath := ← j.part? "fieldPath" str? }

def ClusterEvent.ofJson? (j : Json) : Option ClusterEvent := do
  return {
    metadata := ← Metadata.within? j
    involved := (← j.part? "involvedObject" InvolvedObject.ofJson?).getD default
    reason := ← j.part? "reason" str?
    message := ← j.part? "message" str?
    count := ← j.part? "count" int32?
    first := ← j.part? "firstTimestamp" time?
    last := ← j.part? "lastTimestamp" time?
    time := ← j.part? "eventTime" time? }

end FleetAtlas
