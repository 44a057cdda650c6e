import FleetAtlas.Failure

/-!
# The schedule of the cleanup

A `Cleaner` waits until the pods are cached, makes its first pass a second later and every further one a period after
the one before, until it is stopped or a pass is cancelled. A pass that fails otherwise changes nothing in that.

Of several that wait only the last one is told that the pods are cached (`Cleaner.tell`).
-/

namespace FleetAtlas

/-- The time between the moment the pods are cached and the first pass, in milliseconds. -/
def firstPassDelay : Nat := 1000

/-- What a cleaner waits for. -/
inductive CleanerPhase where
  /-- The pods are not cached yet. -/
  | waiting
  /-- The pods are cached, but another one was told. -/
  | overlooked
  /-- The next pass is due at a time. -/
  | due (time : Nat)
  | finished
deriving DecidableEq, Repr

/-- The schedule of the passes, in milliseconds. -/
structure Cleaner where
  period : Nat
  phase : CleanerPhase
deriving DecidableEq, Repr

namespace Cleaner

/-- A cleaner that starts; when tasks have to end, it ends at once. -/
def start (period : Nat) (stopping : Bool) : Cleaner := ⟨period, if stopping then .finished else .waiting⟩

/-- The pods are cached. -/
def podsReady (c : Cleaner) (now : Nat) : Cleaner :=
  match c.phase with
  | .waiting => { c with phase := .due (now + firstPassDelay) }
  | .overlooked | .due _ | .finished => c

/-- The pods are cached: of the cleaners that wait the last one is told. -/
def tell (now : Nat) : List Cleaner → List Cleaner
  | [] => []
  | c :: rest =>
    let c :=
      if c.phase = .waiting && rest.any (·.phase = .waiting) then { c with phase := .overlooked } else c.podsReady now
    c :: tell now rest

/-- The time of the next pass. -/
def due? (c : Cleaner) : Option Nat :=
  match c.phase with
  | .due time => some time
  | .waiting | .overlooked | .finished => none

/-- A pass has ended with a result. -/
def passed (c : Cleaner) (now : Nat) (result : Except Failure Unit) : Cleaner :=
  match result with
  | .error .cancelled => { c with phase := .finished }
  | _ => { c with phase := .due (now + c.period) }

/-- A pass has ended with a result: of some cleaners, that of the first whose pass was due at a time. -/
def passFirst (cleaners : List Cleaner) (due now : Nat) (result : Except Failure Unit) : List Cleaner :=
  match cleaners with
  | [] => []
  | c :: rest => if c.due? = some due then c.passed now result :: rest else c :: passFirst rest due now result

/-- Ends the passes. -/
def stop (c : Cleaner) : Cleaner := { c with phase := .finished }

/-- Whether no pass will follow. -/
def isFinished (c : Cleaner) : Bool := c.phase = .finished

end Cleaner

end FleetAtlas
