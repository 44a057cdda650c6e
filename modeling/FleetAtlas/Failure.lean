import FleetAtlas.Storage.Error

/-!
# Why a task fails

* `Failure`: the causes;
* `Failure.message?`, `Failure.label`: the text and the label that counts it;
* `Failure.isIrrecoverable`: those that no retry mends.
-/

namespace FleetAtlas

/-- Why a handler or a sweep did not end well. -/
inductive Failure where
  | storage (e : StorageError)
  | unparsableRuntime (image : String)
  | podOwnerNotFound (pod : String)
  | ambiguousPodOwner (pod : String)
  | ownerNotCached (replicaSet : String)
  | missingConfiguration (what : String)
  | cancelled
deriving DecidableEq, Repr

namespace Failure

/-- The text of a failure, if it has one. -/
def message? : Failure → Option String
  | storage e => e.message?.map fun text => "Storage Error: " ++ text
  | unparsableRuntime image => some ("Could not parse runtime version from image " ++ image)
  | podOwnerNotFound pod => some ("Pod " ++ pod ++ " has no owning ReplicaSet")
  | ambiguousPodOwner pod => some ("Pod " ++ pod ++ " has more than one owning ReplicaSet")
  | ownerNotCached replicaSet => some ("ReplicaSet " ++ replicaSet ++ " is not cached yet")
  | missingConfiguration what => some ("Missing configuration " ++ what)
  | cancelled => some "Cancelled"

/-- The label under which a failure is counted. -/
def label : Failure → String
  | storage _ => "storage_error"
  | unparsableRuntime _ => "could_not_parse_runtime_version"
  | podOwnerNotFound _ => "pod_owner_not_found"
  | ambiguousPodOwner _ => "ambiguous_pod_owner"
  | ownerNotCached _ => "owner_not_cached"
  | missingConfiguration _ => "missing_configuration"
  | cancelled => "cancelled"

/-- Whether only a change of the data or of the program mends the failure. -/
def isIrrecoverable : Failure → Bool
  | unparsableRuntime _ | podOwnerNotFound _ | ambiguousPodOwner _ | missingConfiguration _ => true
  | storage _ | ownerNotCached _ | cancelled => false

/-- Whether the failed call is tried again: neither irrecoverable nor cancelled. -/
def isRetried (e : Failure) : Bool := !e.isIrrecoverable && e ≠ cancelled

end Failure

end FleetAtlas
