import FleetAtlas.Cluster.Object
import FleetAtlas.Entity.Json
import FleetAtlas.Failure
import FleetAtlas.Storage.Selection

/-!
# Tasks

* `Task α`: what a handler or a sweep does, one call to its surroundings after the other, up to a result or a failure;
* `Task.store`, `Task.fetch`, `Task.select`: the calls that store and read entities;
* `Task.currentTime`, `Task.livePods`, `Task.isStopping`, `Task.countStopped`: the other calls.

A task says nothing of what its surroundings answer, so one and the same task can be run at once, with calls that fail,
or in between the calls of another.
-/

namespace FleetAtlas

/-- A result, a failure, or a call and how the task goes on with its answer. -/
inductive Task (α : Type) where
  | done (result : α)
  | fail (e : Failure)
  | set (family : Family) (record : Record) (next : Task α)
  | get (family : Family) (uid : String) (next : Option Record → Task α)
  | list (family : Family) (selection : Selection) (next : List Record → Task α)
  | now (next : Timestamp → Task α)
  | pods (next : List Pod → Task α)
  | stopping (next : Bool → Task α)
  | counted (next : Task α)

namespace Task

variable {α β γ : Type}

/-- Goes on with a result. -/
def bind : Task α → (α → Task β) → Task β
  | done a, k => k a
  | fail e, _ => fail e
  | set f r next, k => set f r (next.bind k)
  | get f uid next, k => get f uid fun a => (next a).bind k
  | list f s next, k => list f s fun a => (next a).bind k
  | now next, k => now fun a => (next a).bind k
  | pods next, k => pods fun a => (next a).bind k
  | stopping next, k => stopping fun a => (next a).bind k
  | counted next, k => counted (next.bind k)

instance : Monad Task where
  pure := done
  bind := bind

@[simp] theorem pure_eq (a : α) : (pure a : Task α) = done a := rfl
@[simp] theorem bind_eq (t : Task α) (k : α → Task β) : t >>= k = t.bind k := rfl

theorem bind_done (t : Task α) : t.bind done = t := by
  induction t with
  | stopping next ih => exact congrArg stopping (funext ih)
  | _ => simp_all [bind]

theorem bind_assoc (t : Task α) (k : α → Task β) (l : β → Task γ) :
    (t.bind k).bind l = t.bind fun a => (k a).bind l := by
  induction t with
  | stopping next ih => exact congrArg stopping (funext ih)
  | _ => simp_all [bind]

/-! ### Calls -/

/-- Stores an entity. -/
def store {f : Family} (e : Entity f) : Task Unit := set f e.toRecord (done ())

/-- The entity that a record holds. -/
def decode (f : Family) (r : Record) : Task (Entity f) :=
  match Entity.ofRecord? f r with
  | some e => done e
  | none => fail (.storage .malformed)

/-- The entities that records hold, unless one holds none. -/
def decodeAll (f : Family) : List Record → Task (List (Entity f))
  | [] => done []
  | r :: rest => do
    let e ← decode f r
    let es ← decodeAll f rest
    return e :: es

/-- The stored entity with a uid. -/
def fetch (f : Family) (uid : Uid f) : Task (Option (Entity f)) :=
  get f uid.text fun
    | none => done none
    | some r => (decode f r).bind fun e => done (some e)

/-- The selected entities of a family. -/
def select (f : Family) (s : Selection) : Task (List (Entity f)) := list f s (decodeAll f)

/-- The time on the clock. -/
def currentTime : Task Timestamp := now done

/-- The pods that are cached at this moment. -/
def livePods : Task (List Pod) := pods done

/-- Whether the tasks have been asked to end. -/
def isStopping : Task Bool := stopping done

/-- Counts an instance that was stopped. -/
def countStopped : Task Unit := counted (done ())

/-- A result, or a failure in its place. -/
def ofExcept : Except Failure α → Task α
  | .ok a => done a
  | .error e => fail e

end Task

end FleetAtlas
