import FleetAtlas.Entity.Basic
import FleetAtlas.Handler.Workload

/-!
# Restarts of the containers of a pod

* `ContainerStatus.counted?`: how often a container was restarted, and when it last ended;
* `Restarts`: the restarts of a group of containers, `Restarts.event?` the event that reports them;
* `restartsOf`: the restarts of the platform container, or of all others.
-/

namespace FleetAtlas

/-- The restarts of a container and the end of the one before, if both are known. -/
def ContainerStatus.counted? (s : ContainerStatus) : Option (Int32 × Timestamp) :=
  if s.restarts ≤ 0 then none
  else ((s.last <|> s.current).bind Termination.finished).map fun time => (s.restarts, time)

/-- The sum of two counts, cut off at the smallest and the largest count. -/
def saturatingAdd (a b : Int32) : Int32 := Int32.ofInt (max (-2147483648) (min (a.toInt + b.toInt) 2147483647))

/-- The restarts of a group of containers, and the first and the last time one of them ended. -/
structure Restarts where
  count : Int32
  span : Option (Timestamp × Timestamp)

namespace Restarts

/-- No restart. -/
def none : Restarts := ⟨0, .none⟩

/-- Adds the restarts of a container. -/
def add (r : Restarts) (count : Int32) (time : Timestamp) : Restarts where
  count := saturatingAdd r.count count
  span :=
    match r.span with
    | .none => some (time, time)
    | some (first, last) => some (first.earlier time, last.later time)

/-- The event that reports the restarts of an instance, if there are any. -/
def event? (r : Restarts) (instanceUid : Uid .deploymentInstance) (platform : Bool) : Option Event :=
  r.span.map fun (first, last) =>
    .event (.restarts instanceUid platform) .restart r.count first last platform instanceUid

end Restarts

/-- The restarts of the platform container, or of all others. -/
def restartsOf (statuses : List ContainerStatus) (platform : Bool) : Restarts :=
  (statuses.filter fun s => (s.name = runtimeContainer) = platform).foldl
    (fun r s =>
      match s.counted? with
      | some (count, time) => r.add count time
      | none => r)
    .none

end FleetAtlas
