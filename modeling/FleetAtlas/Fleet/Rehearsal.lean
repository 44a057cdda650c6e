import FleetAtlas.Fleet.Basic

/-!
# Rehearsals

* `Rehearsal`: a fleet whose next calls may end by a script instead of by their handlers;
* `Rehearsal.process`: a call for the next key begins and, unless it hangs, ends; `Rehearsal.release` ends one that hangs.
-/

namespace FleetAtlas

/-- How a call goes. -/
inductive Scripted where
  /-- As its handler says. -/
  | pass
  | ok
  /-- It stays in flight until it is released. -/
  | hang
  | fail (e : Failure)
deriving DecidableEq, Repr

/-- A fleet, the scripts of the kinds, and whether handlers do nothing. -/
structure Rehearsal where
  fleet : Fleet
  scripts : Observed → List Scripted
  idle : Bool

/-- A call that ended: its key, the version of its object, whether that was deleted, and the result. -/
structure CallReport where
  key : ObjectKey
  version : Option String
  deleted : Bool
  result : Except Failure Unit

/-- What became of an attempt to begin a call. -/
inductive Progress where
  | idle
  | gone
  | handled (report : CallReport)
  | inFlight

namespace Rehearsal

/-- A rehearsal without scripts. -/
def start (store : Store) (clock : Nat → Timestamp) (idle : Bool) : Rehearsal := ⟨.start store clock, fun _ => [], idle⟩

/-- Runs a handler, or nothing when handlers do nothing. -/
def run (r : Rehearsal) (t : Task Unit) : Except Failure Unit × Rehearsal :=
  if r.idle then (.ok (), r)
  else
    let (result, fleet) := r.fleet.perform t
    (result, { r with fleet })

/-- Calls the handler of a kind directly. -/
def handle (r : Rehearsal) (k : Observed) (object : k.Object) (deleted : Bool) : Except Failure Unit × Rehearsal :=
  r.run (k.handle r.fleet.caches object deleted)

/-- Adds to the script of a kind. -/
def prepare (r : Rehearsal) (k : Observed) (outcomes : List Scripted) : Rehearsal :=
  { r with scripts := fun l => if l = k then r.scripts l ++ outcomes else r.scripts l }

/-- The report of a call for an object. -/
def report {κ : Type} [ClusterObject κ] (object : κ) (deleted : Bool) (result : Except Failure Unit) : CallReport :=
  ⟨.of object, versionOf object, deleted, result⟩

/-- Ends a call with a result. -/
def finish (r : Rehearsal) (k : Observed) (call : Call k.Object) (result : Except Failure Unit) :
    Progress × Rehearsal :=
  let r := { r with fleet := r.fleet.finish k call result }
  match call.target with
  | .live object => (.handled (report object false result), r)
  | .deleted stone => (.handled (report stone.object true result), r)
  | .gone => (.gone, r)

/-- Takes the next outcome off the script of a kind. -/
def nextOutcome (r : Rehearsal) (k : Observed) : Scripted × Rehearsal :=
  match r.scripts k with
  | [] => (.pass, r)
  | outcome :: rest => (outcome, { r with scripts := fun l => if l = k then rest else r.scripts l })

/-- Lets a call that has begun go its way. -/
def proceed (r : Rehearsal) (k : Observed) (call : Call k.Object) : Progress × Rehearsal :=
  match r.nextOutcome k with
  | (.pass, r) =>
    let (result, r) := r.run (r.fleet.task k call)
    r.finish k call result
  | (.ok, r) => r.finish k call (.ok ())
  | (.fail e, r) => r.finish k call (.error e)
  | (.hang, r) => (.inFlight, r)

/-- Begins the call for the next key of a kind and lets it go its way; one without an object ends at once. -/
def process (r : Rehearsal) (k : Observed) : Progress × Rehearsal :=
  match r.fleet.begin? k with
  | none => (.idle, r)
  | some (call, fleet) =>
    let r := { r with fleet }
    match call.target with
    | .gone => r.finish k call (.ok ())
    | .live _ | .deleted _ => r.proceed k call

/-- Begins calls until there is none to begin or one hangs, at most so many; the calls that ended. -/
def drain (r : Rehearsal) (k : Observed) : Nat → List Progress × Rehearsal
  | 0 => ([], r)
  | n + 1 =>
    match r.process k with
    | (.idle, r) | (.inFlight, r) => ([], r)
    | (progress, r) =>
      let (others, r) := r.drain k n
      (progress :: others, r)

/-- Begins calls until there is none to begin or one hangs. Every call takes a key that is ready, and none adds one. -/
def drainAll (r : Rehearsal) (k : Observed) : List Progress × Rehearsal :=
  r.drain k ((r.fleet.dispatcher k).queue.ready.length + 1)

/-- Ends well the call of a kind that hangs for longest. -/
def release (r : Rehearsal) (k : Observed) : List Progress × Rehearsal :=
  match (r.fleet.dispatcher k).flight with
  | [] => ([], r)
  | call :: _ =>
    let (progress, r) := r.finish k call (.ok ())
    ([progress], r)

/-- One sweep, as if tasks had to end if it is cancelled. -/
def sweepNow (r : Rehearsal) (cancelled : Bool) : Except Failure Unit × Rehearsal :=
  let site := r.fleet.site
  let (result, fleet) := { r.fleet with site := { site with stopping := cancelled } }.perform sweep
  (result, { r with fleet := { fleet with site := { fleet.site with stopping := site.stopping } } })

end Rehearsal

end FleetAtlas
