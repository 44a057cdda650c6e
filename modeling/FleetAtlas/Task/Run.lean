import FleetAtlas.Metrics
import FleetAtlas.Storage.Service
import FleetAtlas.Task.Basic

/-!
# Running tasks

* `Site`: the surroundings of tasks: storage, a clock, the flag that asks them to end, and metrics;
* `Task.step`: answers one call;
* `Task.run`: answers every call until the task is over.

A clock shows the `n`-th time it is read what its `n`-th reading is.
-/

namespace FleetAtlas

/-- What tasks find around them. -/
structure Site where
  service : Service
  clock : Nat → Timestamp
  reads : Nat
  stopping : Bool
  metrics : Metrics

namespace Site

/-- Storage and a clock that nobody has read yet. -/
def on (store : Store) (clock : Nat → Timestamp) : Site := ⟨.on store, clock, 0, false, .zero⟩

/-- The time on the clock. -/
def time (s : Site) : Timestamp := s.clock s.reads

/-- The site after its clock was read. -/
def tick (s : Site) : Site := { s with reads := s.reads + 1 }

end Site

namespace Task

variable {α : Type}

/-- How a task goes on with the answer of storage. -/
def resume {β : Type} (s : Site) (answer : Except StorageError β × Service) (next : β → Task α) : Task α × Site :=
  match answer with
  | (.ok b, service) => (next b, { s with service })
  | (.error e, service) => (fail (.storage e), { s with service })

/-- Answers the call that a task makes next; `cached` are the pods at that moment. -/
def step (cached : List Pod) (t : Task α) (s : Site) : Task α × Site :=
  match t with
  | done a => (done a, s)
  | fail e => (fail e, s)
  | set f r next => resume s (s.service.set f r) fun _ => next
  | get f uid next => resume s (s.service.get f uid) next
  | list f selection next => resume s (s.service.list f selection) next
  | now next => (next s.time, s.tick)
  | pods next => (next cached, s)
  | stopping next => (next s.stopping, s)
  | counted next => (next, { s with metrics := s.metrics.countStopped 1 })

/-- Answers every call of a task; `cached` are the pods all the while. -/
def run (cached : List Pod) (t : Task α) (s : Site) : Except Failure α × Site :=
  match t with
  | done a => (.ok a, s)
  | fail e => (.error e, s)
  | set f r next =>
    match s.service.set f r with
    | (.ok (), service) => run cached next { s with service }
    | (.error e, service) => (.error (.storage e), { s with service })
  | get f uid next =>
    match s.service.get f uid with
    | (.ok answer, service) => run cached (next answer) { s with service }
    | (.error e, service) => (.error (.storage e), { s with service })
  | list f selection next =>
    match s.service.list f selection with
    | (.ok answer, service) => run cached (next answer) { s with service }
    | (.error e, service) => (.error (.storage e), { s with service })
  | now next => run cached (next s.time) s.tick
  | pods next => run cached (next cached) s
  | stopping next => run cached (next s.stopping) s
  | counted next => run cached next { s with metrics := s.metrics.countStopped 1 }

/-- A run is one step and the run of what is left. -/
theorem run_step (cached : List Pod) (t : Task α) (s : Site) :
    run cached (step cached t s).1 (step cached t s).2 = run cached t s := by
  cases t <;> simp only [step, resume, run] <;> split <;> simp_all [run]

end Task

end FleetAtlas
