import FleetAtlas.Fleet.Basic

/-!
# The operator

* `Feed κ`: what the server of a cluster lists of a kind, and how the watch of the kind stands;
* `Operator`: a fleet that is fed by the watches: the configuration first, then all that is observed;
* `Operator.start`, `Operator.serve`, `Operator.push`, `Operator.lose`, `Operator.shutdown`: what happens to it;
* `Operator.advance`: time passes, event by event; at each moment the answers to listings arrive, the keys that are
  ready are handled, and a pass of the cleanup that is due is made.

A kind that the server does not list yet is asked for again and again. Of those that wait for a kind to be cached only
the last one is told, so that pods are not handled where a cleaner waits for them, too.
-/

namespace FleetAtlas

/-! ### Feeds -/

/-- How the watch of a kind stands. -/
inductive Watch where
  | closed
  /-- A listing was asked for at a time; the answer is due at a time if the server has one. -/
  | listing (since : Nat) (due : Option Nat)
  | following
deriving DecidableEq, Repr

/-- The objects that the server lists, if it does, and the watch of the kind. -/
structure Feed (κ : Type) where
  objects : Option (List κ)
  watch : Watch

/-- The time between two requests for a listing, in milliseconds. -/
def pollPeriod : Nat := 10

/-- The time before a watch that was lost lists its kind again, in milliseconds. -/
def relistDelay : Nat := 800

namespace Feed

variable {κ : Type}

/-- A kind that nobody asked for and that is not listed. -/
def idle : Feed κ := ⟨none, .closed⟩

/-- The time of the first request after now, when the first of all was at a time. -/
def nextPoll (since now : Nat) : Nat := since + ((now - since) / pollPeriod + 1) * pollPeriod

/-- Asks for a listing, which is answered at once if the server has one. -/
def request (f : Feed κ) (now : Nat) : Feed κ := { f with watch := .listing now (f.objects.map fun _ => now) }

/-- From now on the server lists these objects; a request that waits for them is made again soon. -/
def serve (f : Feed κ) (now : Nat) (objects : List κ) : Feed κ where
  objects := some objects
  watch :=
    match f.watch with
    | .listing since none => .listing since (some (nextPoll since now))
    | watch => watch

/-- The watch is lost; the kind is listed again after a delay. -/
def lose (f : Feed κ) (now : Nat) : Feed κ :=
  match f.watch with
  | .following => { f with watch := .listing now (some (now + relistDelay)) }
  | .listing _ _ | .closed => f

/-- Ends the watch. -/
def close (f : Feed κ) : Feed κ := { f with watch := .closed }

/-- Whether the watch says what changes. -/
def isFollowing (f : Feed κ) : Bool := f.watch = .following

/-- The time at which the answer to a listing is due. -/
def due? (f : Feed κ) : Option Nat :=
  match f.watch with
  | .listing _ due => due
  | .following | .closed => none

/-- The answer to a listing that is due by then, and the feed that follows it. -/
def answer? (f : Feed κ) (now : Nat) : Option (List (WatchEvent κ) × Feed κ) :=
  match f.due? with
  | none => none
  | some due =>
    if due ≤ now then
      let objects := f.objects.getD []
      some (.init :: objects.map .initApply ++ [.initDone], { f with watch := .following })
    else none

end Feed

/-! ### The operator -/

/-- How far the operator has come. -/
inductive OperatorState where
  | starting
  | running
  /-- It was shut down while it was starting. -/
  | cancelled
  | stopped
deriving DecidableEq, Repr

/-- A fleet that is fed by watches. It sweeps if it has a period for that. -/
structure Operator where
  fleet : Fleet
  configMaps : Feed ConfigMap
  secrets : Feed Secret
  feeds : ByKind fun k => Feed k.Object
  period : Option Nat
  started : Bool
  state : OperatorState

namespace Operator

/-- An operator that has not been started. -/
def create (store : Store) (clock : Nat → Timestamp) (period : Option Nat) : Operator where
  fleet := .start store clock
  configMaps := .idle
  secrets := .idle
  feeds := .ofFun fun _ => .idle
  period := period
  started := false
  state := .starting

/-! ### Handling -/

/-- Handles the keys of a kind that are ready, at most so many. -/
def handleReady (f : Fleet) (k : Observed) : Nat → Fleet
  | 0 => f
  | n + 1 =>
    match f.begin? k with
    | none => f
    | some (call, f) =>
      let (result, f) := f.answer k call
      handleReady (f.finish k call result) k n

/-- Handles all keys of a kind that are ready, once its objects are cached. -/
def drain (f : Fleet) (k : Observed) : Fleet :=
  let d := f.dispatcher k
  if d.cache.ready && !(k = .pods && !f.cleaners.isEmpty) then handleReady f k d.queue.ready.length else f

/-- Handles all keys that are ready. -/
def drainAll (f : Fleet) : Fleet := Observed.all.foldl drain f

/-- Makes the pass of the cleanup that is due. -/
def sweepDue (f : Fleet) : Fleet :=
  match f.sweepTimes.min? with
  | none => f
  | some due => if due ≤ f.now then f.sweepOnce due else f

/-! ### Watches -/

/-- Lets the answer to the listing of a kind arrive if it is due. -/
def receive (o : Operator) (k : Observed) : Operator :=
  match (o.feeds.get k).answer? o.fleet.now with
  | none => o
  | some (events, feed) =>
    let fleet := events.foldl (fun f e => f.observe k e) o.fleet
    { o with feeds := o.feeds.set k feed, fleet := drain fleet k }

/-- Lets the answer to the listing of the config maps arrive if it is due. -/
def receiveConfigMaps (o : Operator) : Operator :=
  match o.configMaps.answer? o.fleet.now with
  | none => o
  | some (events, feed) =>
    { o with
      configMaps := feed
      fleet := { o.fleet with configMaps := events.foldl Cache.observe o.fleet.configMaps } }

/-- Lets the answer to the listing of the secrets arrive if it is due. -/
def receiveSecrets (o : Operator) : Operator :=
  match o.secrets.answer? o.fleet.now with
  | none => o
  | some (events, feed) =>
    { o with secrets := feed, fleet := { o.fleet with secrets := events.foldl Cache.observe o.fleet.secrets } }

/-- Once the configuration is cached, asks for all that is observed, and starts the cleaner. -/
def run (o : Operator) : Operator :=
  if o.started && o.state = .starting && o.fleet.configMaps.ready && o.fleet.secrets.ready then
    { o with
      state := .running
      feeds := o.feeds.map fun _ f => f.request o.fleet.now
      fleet :=
        match o.period with
        | none => o.fleet
        | some period => o.fleet.startCleaner period }
  else o

/-- All that happens at this moment. -/
def settle (o : Operator) : Operator :=
  let o := o.receiveConfigMaps.receiveSecrets.run
  let o := Observed.all.foldl receive o
  { o with fleet := sweepDue (drainAll o.fleet).settle }

/-! ### Time -/

/-- The due times of the timers of all kinds. -/
def timersDue (f : Fleet) : List Nat := Observed.all.filterMap fun k => (f.dispatcher k).queue.timers.head?.map Timer.due

/-- The due times of all that is going to happen. -/
def upcoming (o : Operator) : List Nat :=
  timersDue o.fleet ++ o.fleet.sweepTimes ++ o.configMaps.due?.toList ++ o.secrets.due?.toList
    ++ Observed.all.filterMap fun k => (o.feeds.get k).due?

/-- Lets time pass up to a time, from one moment at which something happens to the next, at most so many. -/
def advanceTo (o : Operator) (time : Nat) : Nat → Operator
  | 0 => o
  | n + 1 =>
    match o.upcoming.min? with
    | none => o
    | some due =>
      if due ≤ time then { o with fleet := o.fleet.moveTo (max o.fleet.now due) }.settle.advanceTo time n else o

/-- Lets milliseconds pass. -/
def advance (o : Operator) (ms : Nat) : Operator :=
  let time := o.fleet.now + ms
  let o := o.settle.advanceTo time (ms + 1)
  { o with fleet := o.fleet.moveTo time }

/-! ### What happens to it -/

/-- Ends all watches and the handling of keys. -/
def close (o : Operator) (state : OperatorState) : Operator :=
  { o with
    state
    configMaps := o.configMaps.close
    secrets := o.secrets.close
    feeds := o.feeds.map fun _ f => f.close
    fleet := { o.fleet with dispatchers := o.fleet.dispatchers.map fun _ d => d.close } }

/-- Starts the operator, unless it was asked to end before. -/
def start (o : Operator) : Operator :=
  if o.fleet.site.stopping then { o with started := true }.close .cancelled
  else
    { o with
      started := true
      configMaps := o.configMaps.request o.fleet.now
      secrets := o.secrets.request o.fleet.now }

/-- Asks the operator to end. -/
def shutdown (o : Operator) : Operator :=
  let o := { o with fleet := o.fleet.shutdown }
  match o.state with
  | .starting => if o.started then o.close .cancelled else o
  | .running => o.close .stopped
  | .cancelled | .stopped => o

/-- From now on the server lists these objects of a kind. -/
def serve (o : Operator) (k : Observed) (objects : List k.Object) : Operator :=
  { o with feeds := o.feeds.set k ((o.feeds.get k).serve o.fleet.now objects) }

/-- From now on the server lists these config maps. -/
def serveConfigMaps (o : Operator) (objects : List ConfigMap) : Operator :=
  { o with configMaps := o.configMaps.serve o.fleet.now objects }

/-- From now on the server lists these secrets. -/
def serveSecrets (o : Operator) (objects : List Secret) : Operator :=
  { o with secrets := o.secrets.serve o.fleet.now objects }

/-- The watch of a kind is lost. -/
def lose (o : Operator) (k : Observed) : Operator :=
  { o with feeds := o.feeds.set k ((o.feeds.get k).lose o.fleet.now) }

/-- The watch of the config maps is lost. -/
def loseConfigMaps (o : Operator) : Operator := { o with configMaps := o.configMaps.lose o.fleet.now }

/-- The watch of the secrets is lost. -/
def loseSecrets (o : Operator) : Operator := { o with secrets := o.secrets.lose o.fleet.now }

/-- Whether a watch can go on behind what it said: an object of which it speaks has a version. -/
def isVersioned {κ : Type} [ClusterObject κ] : WatchEvent κ → Bool
  | .apply object | .delete object => (versionOf object).any (!·.isEmpty)
  | .init | .initApply _ | .initDone => true

/-- The watch of a kind says something; it is lost when it speaks of an object without a version. -/
def push (o : Operator) (k : Observed) (e : WatchEvent k.Object) : Operator :=
  if isVersioned e then { o with fleet := o.fleet.observe k e } else o.lose k

/-- The watch of the config maps says something. -/
def pushConfigMap (o : Operator) (e : WatchEvent ConfigMap) : Operator :=
  if isVersioned e then { o with fleet := { o.fleet with configMaps := o.fleet.configMaps.observe e } }
  else o.loseConfigMaps

/-- The watch of the secrets says something. -/
def pushSecret (o : Operator) (e : WatchEvent Secret) : Operator :=
  if isVersioned e then { o with fleet := { o.fleet with secrets := o.fleet.secrets.observe e } } else o.loseSecrets

end Operator

end FleetAtlas
