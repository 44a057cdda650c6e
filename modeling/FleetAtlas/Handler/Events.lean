import FleetAtlas.Handler.Pods

/-!
# What events of the cluster say about the fleet

* `backOffKind?`: what a message about waiting before the next try reports;
* `eventEntity?`: the event that is stored for an event of the cluster;
* `handleEvent`: stores it.
-/

namespace FleetAtlas

open FleetAtlas.Task

/-- Whether a text has another one in it. -/
def hasPart (part : List Char) : List Char → Bool
  | [] => part.isEmpty
  | c :: rest => part.isPrefixOf (c :: rest) || hasPart part rest

/-- What a message about waiting before the next try reports. -/
def backOffKind? (message : String) : Option EventKind :=
  if hasPart "restarting".toList message.toList then some .failedToStart
  else if hasPart "pulling".toList message.toList then some .failedToPull
  else none

/-- The instance of the pod that an event of the cluster is about, if that pod runs a microservice. -/
def involvedInstance? (c : Caches) (e : ClusterEvent) : Option (Uid .deploymentInstance) :=
  if e.involved.kind = some "Pod" then do
    let pod ← c.pods.lookup (e.involved.scope.getD "") (e.involved.name.getD "")
    let _ ← Identity.ofMetadata? pod.metadata
    let spec ← pod.spec
    let _ ← spec.microservice?
    instanceOf? c pod
  else none

/-- The event that is stored for an event of the cluster. -/
def eventEntity? (c : Caches) (e : ClusterEvent) : Option Event := do
  let uid ← involvedInstance? c e
  if e.reason = some "BackOff" then
    let kind ← backOffKind? (e.message.getD "")
    let first ← e.first <|> e.time
    let last := e.last.getD first
    let platform := hasPart runtimeContainer.toList (e.involved.fieldPath.getD "").toList
    return .event (.clusterEvent (e.metadata.uid.getD "")) kind (e.count.getD 1) first last platform uid
  else none

/-- Stores the event for an event of the cluster; one that is gone is not forgotten. -/
def handleEvent (c : Caches) (e : ClusterEvent) (deleted : Bool) : Task Unit :=
  if deleted then done ()
  else
    match eventEntity? c e with
    | none => done ()
    | some entity => store entity

end FleetAtlas
