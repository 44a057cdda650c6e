import FleetAtlas.Task.Basic

/-!
# The sweep

* `Pod.isLive`: a pod that has not ended;
* `sweep`: stops every running instance whose pod is not among the live ones, and is cancelled when tasks have to end.

The pods are looked up after the instances, so no instance is newer than the pods it is compared with.
-/

namespace FleetAtlas

open FleetAtlas.Task

/-- A pod that has not ended. -/
def Pod.isLive (p : Pod) : Bool := p.phase ≠ some "Failed" && p.phase ≠ some "Succeeded"

/-- The uids of the live pods. -/
def liveUids (pods : List Pod) : List String := (pods.filter Pod.isLive).filterMap fun p => p.metadata.uid

/-- Is cancelled when tasks have to end. -/
def checkStopping : Task Unit := do
  if ← isStopping then fail .cancelled else done ()

/-- Stops those instances that no live pod backs, one after the other. -/
def sweepInstances (live : List String) : List DeploymentInstance → Task Unit
  | [] => done ()
  | i :: rest => do
    checkStopping
    if i.isStopped || live.contains i.info.id then sweepInstances live rest
    else
      let time ← currentTime
      store (i.stop time)
      countStopped
      sweepInstances live rest

/-- Stops every running instance that no live pod backs. -/
def sweep : Task Unit := do
  checkStopping
  let running ← select .deploymentInstance (.unset "stopped")
  let pods ← livePods
  sweepInstances (liveUids pods) running

end FleetAtlas
