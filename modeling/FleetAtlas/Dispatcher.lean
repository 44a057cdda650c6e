import FleetAtlas.Cluster.Cache
import FleetAtlas.Failure
import FleetAtlas.Queue.Basic

/-!
# Dispatchers

* `Dispatcher κ`: turns what a watch says about the objects of a kind into queued keys, and queued keys into calls;
* `Dispatcher.observe`: an event changes the cache first, and then queues the keys of the objects that changed or are gone;
* `Dispatcher.begin?`, `Dispatcher.finish`: a call for the key that has been ready for longest begins, and ends with a
  result, which says whether the key is tried again.

An object that is gone is kept as a tombstone until a call has handled its deletion. A listing that leaves out an object
deletes it.
-/

namespace FleetAtlas

/-- An object that is gone; the serial number tells the deletions apart. -/
structure Tombstone (κ : Type) where
  object : κ
  serial : Nat
deriving DecidableEq

/-- A listing that is not complete: the objects cached at its begin, and the keys it has shown since. -/
structure Relist (κ : Type) where
  before : List κ
  applied : List ObjectKey
deriving DecidableEq

/-- What the call for a key is about: an object, one that is gone, or nothing. -/
inductive Target (κ : Type) where
  | live (object : κ)
  | deleted (stone : Tombstone κ)
  | gone
deriving DecidableEq

/-- The call for a key that was handed out. -/
structure Call (κ : Type) where
  key : ObjectKey
  target : Target κ
deriving DecidableEq

/-- The state between a watch and a handler: the cache, the queued keys, the calls in flight from the oldest on, the
version seen last of every object, the deletions to be handled, and the listing that runs. -/
structure Dispatcher (κ : Type) where
  cache : Cache κ
  queue : Queue ObjectKey
  flight : List (Call κ)
  versions : Dict ObjectKey (Option String)
  tombstones : Dict ObjectKey (Tombstone κ)
  serials : Nat
  relist : Option (Relist κ)

namespace Dispatcher

variable {κ : Type}

/-- A dispatcher that nothing was said to. -/
def empty : Dispatcher κ := ⟨.empty, .empty, [], ∅, ∅, 0, none⟩

instance : Inhabited (Dispatcher κ) := ⟨empty⟩

/-! ### Events -/

/-- Queues a key. -/
def enqueue (d : Dispatcher κ) (key : ObjectKey) : Dispatcher κ := { d with queue := d.queue.add key }

/-- An object is gone: its version is forgotten, a tombstone takes its place, and its key is queued. -/
def bereave (d : Dispatcher κ) (key : ObjectKey) (object : κ) : Dispatcher κ :=
  { d with
    versions := d.versions.erase key
    tombstones := d.tombstones.insert key ⟨object, d.serials⟩
    serials := d.serials + 1 }.enqueue key

variable [ClusterObject κ]

/-- An object is there: it has no tombstone, and its key is queued if its version is a new one. -/
def applied (d : Dispatcher κ) (object : κ) : Dispatcher κ :=
  let key := ObjectKey.of object
  let version := versionOf object
  let next : Dispatcher κ :=
    { d with
      versions := d.versions.insert key version
      tombstones := d.tombstones.erase key
      relist := d.relist.map fun r => { r with applied := key :: r.applied } }
  if d.versions.get? key = some version then next else next.enqueue key

/-- The objects that a complete listing has left out. -/
def vanished (r : Relist κ) : List κ := r.before.filter fun o => !r.applied.contains (.of o)

/-- What the dispatcher does about an event that the cache has seen. -/
def notify (d : Dispatcher κ) : WatchEvent κ → Dispatcher κ
  | .init => { d with relist := some ⟨d.cache.list, []⟩ }
  | .initApply object | .apply object => d.applied object
  | .delete object => d.bereave (.of object) object
  | .initDone =>
    match d.relist with
    | none => d
    | some r => (vanished r).foldl (fun d o => d.bereave (.of o) o) { d with relist := none }

/-- What an event changes: the cache first. -/
def observe (d : Dispatcher κ) (e : WatchEvent κ) : Dispatcher κ := { d with cache := d.cache.observe e }.notify e

/-! ### Calls -/

omit [ClusterObject κ] in
/-- What a call for a key is about at this moment: the cached object, else the deletion to be handled. -/
def target (d : Dispatcher κ) (key : ObjectKey) : Target κ :=
  match d.cache.find? key with
  | some object => .live object
  | none =>
    match d.tombstones.get? key with
    | some stone => .deleted stone
    | none => .gone

omit [ClusterObject κ] in
/-- Begins the call for the next key, unless none is ready or the queue is closed. -/
def begin? (d : Dispatcher κ) : Option (Call κ × Dispatcher κ) :=
  match d.queue.take with
  | (.key key, queue) =>
    let call : Call κ := ⟨key, d.target key⟩
    some (call, { d with queue, flight := d.flight ++ [call] })
  | (.empty, _) | (.closed, _) => none

omit [ClusterObject κ] in
/-- Removes the tombstone that a call was about, unless a later deletion has replaced it. -/
def clearTombstone (d : Dispatcher κ) (call : Call κ) : Dispatcher κ :=
  match call.target with
  | .deleted stone =>
    if (d.tombstones.get? call.key).any fun s => s.serial = stone.serial then
      { d with tombstones := d.tombstones.erase call.key }
    else d
  | .live _ | .gone => d

/-- Whether a result has the key tried again. -/
def isRetried : Except Failure Unit → Bool
  | .ok () => false
  | .error e => e.isRetried

omit [ClusterObject κ] in
/-- Ends a call with a result: the key is tried again after its backoff, or its failures are forgotten and its deletion
is handled; then the key is given back. -/
def finish (d : Dispatcher κ) (now : Nat) (call : Call κ) (result : Except Failure Unit) : Dispatcher κ :=
  let d :=
    if isRetried result then { d with queue := d.queue.retry now call.key }
    else { d with queue := d.queue.forget call.key }.clearTombstone call
  { d with queue := d.queue.release call.key, flight := d.flight.filter fun c => c.key ≠ call.key }

omit [ClusterObject κ] in
/-- Lets the delays of failed keys pass. -/
def advance (d : Dispatcher κ) (now : Nat) : Dispatcher κ := { d with queue := d.queue.advance now }

omit [ClusterObject κ] in
/-- Ends the handing out of keys. -/
def close (d : Dispatcher κ) : Dispatcher κ := { d with queue := d.queue.close }

end Dispatcher

end FleetAtlas
