import FleetAtlas.Cleaner
import FleetAtlas.Dispatcher
import FleetAtlas.Fleet.Observed
import FleetAtlas.Sweep
import FleetAtlas.Task.Run

/-!
# Fleets under observation

* `Fleet`: everything that observes one cluster: the site of the tasks, the caches, a dispatcher for each observed kind,
  the cleaners, and a clock of milliseconds;
* `Fleet.begin?`, `Fleet.answer`, `Fleet.finish`: a call of a handler begins, is run, and ends;
* `Fleet.sweepOnce`: a pass of the cleanup, `Fleet.advance` lets time pass.
-/

namespace FleetAtlas

/-- When the observation started, and when a call of a handler and a pass of the cleanup last ended well. -/
structure Diagnostics where
  started : Timestamp
  lastEvent : Option Timestamp
  lastCleanup : Option Timestamp
deriving DecidableEq

/-- Everything that observes one cluster. -/
structure Fleet where
  site : Site
  configMaps : Cache ConfigMap
  secrets : Cache Secret
  dispatchers : ByKind fun k => Dispatcher k.Object
  diagnostics : Diagnostics
  /-- The cleaners, in the order in which they were started. -/
  cleaners : List Cleaner
  now : Nat

namespace Fleet

/-- The observation of a cluster of which nothing is known, with a store and a clock. -/
def start (store : Store) (clock : Nat → Timestamp) : Fleet where
  site := (Site.on store clock).tick
  configMaps := .empty
  secrets := .empty
  dispatchers := .ofFun fun _ => .empty
  diagnostics := ⟨clock 0, none, none⟩
  cleaners := []
  now := 0

/-! ### Parts -/

/-- The dispatcher of a kind. -/
def dispatcher (f : Fleet) (k : Observed) : Dispatcher k.Object := f.dispatchers.get k

/-- The fleet with another dispatcher for a kind. -/
def withDispatcher (f : Fleet) (k : Observed) (d : Dispatcher k.Object) : Fleet :=
  { f with dispatchers := f.dispatchers.set k d }

@[simp] theorem dispatcher_withDispatcher_self (f : Fleet) (k : Observed) (d : Dispatcher k.Object) :
    (f.withDispatcher k d).dispatcher k = d := f.dispatchers.get_set_self k d

theorem dispatcher_withDispatcher_of_ne (f : Fleet) {k l : Observed} (h : l ≠ k) (d : Dispatcher k.Object) :
    (f.withDispatcher k d).dispatcher l = f.dispatcher l := f.dispatchers.get_set_of_ne h d

/-- The cached pods. -/
def podCache (f : Fleet) : Cache Pod := (f.dispatcher .pods).cache

/-- The cached replica sets. -/
def replicaSetCache (f : Fleet) : Cache ReplicaSet := (f.dispatcher .replicaSets).cache

/-- The caches that handlers look into. -/
def caches (f : Fleet) : Caches := ⟨f.configMaps, f.secrets, f.replicaSetCache, f.podCache⟩

/-- Changes the metrics. -/
def count (f : Fleet) (change : Metrics → Metrics) : Fleet :=
  { f with site := { f.site with metrics := change f.site.metrics } }

/-! ### Calls -/

/-- Lets a watch say something about the objects of a kind. -/
def observe (f : Fleet) (k : Observed) (e : WatchEvent k.Object) : Fleet :=
  f.withDispatcher k ((f.dispatcher k).observe e)

/-- Runs a task. -/
def perform {α : Type} (f : Fleet) (t : Task α) : Except Failure α × Fleet :=
  let (result, site) := t.run f.podCache.list f.site
  (result, { f with site })

/-- Begins the call for the next key of a kind, if there is one. -/
def begin? (f : Fleet) (k : Observed) : Option (Call k.Object × Fleet) :=
  match (f.dispatcher k).begin? with
  | none => none
  | some (call, d) => some (call, (f.withDispatcher k d).count fun m => m.opened k.name)

/-- The task of the handler of a kind for a call. -/
def task (f : Fleet) (k : Observed) (call : Call k.Object) : Task Unit :=
  match call.target with
  | .live object => k.handle f.caches object false
  | .deleted stone => k.handle f.caches stone.object true
  | .gone => .done ()

/-- Runs the handler of a kind for a call. -/
def answer (f : Fleet) (k : Observed) (call : Call k.Object) : Except Failure Unit × Fleet := f.perform (f.task k call)

/-- Notes that a call of a handler ended well. -/
def noteEvent (f : Fleet) : Fleet :=
  { f with site := f.site.tick, diagnostics := { f.diagnostics with lastEvent := some f.site.time } }

/-- Ends a call with a result. -/
def finish (f : Fleet) (k : Observed) (call : Call k.Object) (result : Except Failure Unit) : Fleet :=
  let f := (f.withDispatcher k ((f.dispatcher k).finish f.now call result)).count fun m => m.ended k.name result
  match result with
  | .ok () => f.noteEvent
  | .error _ => f

/-! ### The cleanup -/

/-- Starts a cleaner. -/
def startCleaner (f : Fleet) (period : Nat) : Fleet :=
  { f with cleaners := f.cleaners ++ [.start period f.site.stopping] }

/-- Asks tasks to end; the cleaners end at once. -/
def shutdown (f : Fleet) : Fleet :=
  { f with site := { f.site with stopping := true }, cleaners := f.cleaners.map Cleaner.stop }

/-- The times at which passes of the cleanup are due. -/
def sweepTimes (f : Fleet) : List Nat := f.cleaners.filterMap Cleaner.due?

/-- A pass of the cleanup, which the cleaner makes that is the first of those whose pass is due at a time. -/
def sweepOnce (f : Fleet) (due : Nat) : Fleet :=
  let (result, f) := (f.count Metrics.countSweep).perform sweep
  let f := { f with cleaners := Cleaner.passFirst f.cleaners due f.now result }
  match result with
  | .ok () =>
    { f with site := f.site.tick, diagnostics := { f.diagnostics with lastCleanup := some f.site.time } }
  | .error _ => f

/-- A cleaner that waits for the pods is told that they are cached. -/
def settle (f : Fleet) : Fleet := if f.podCache.ready then { f with cleaners := Cleaner.tell f.now f.cleaners } else f

/-! ### Time -/

/-- Moves the clock and lets the delays of failed keys pass. -/
def moveTo (f : Fleet) (time : Nat) : Fleet :=
  { f with now := time, dispatchers := f.dispatchers.map fun _ d => d.advance time }

/-- Makes the passes of the cleanup that are due by then, at most so many, each at its time. -/
def sweepUntil (f : Fleet) (time : Nat) : Nat → Fleet
  | 0 => f
  | n + 1 =>
    match f.sweepTimes.min? with
    | none => f
    | some due => if due ≤ time then ((f.moveTo (max f.now due)).sweepOnce due).sweepUntil time n else f

/-- Lets milliseconds pass. -/
def advance (f : Fleet) (ms : Nat) : Fleet :=
  let time := f.now + ms
  (f.sweepUntil time (f.cleaners.length * (ms + 1))).moveTo time

end Fleet

end FleetAtlas
