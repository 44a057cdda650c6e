import FleetAtlas.Queue.Backoff

/-!
# Work queues

* `Queue κ`: keys that wait to be handed out, each at most once at a time;
* `Queue.add`, `Queue.take`, `Queue.release`: a key is handed out to one taker, who gives it back; a key that is added
  while a taker has it becomes ready only then;
* `Queue.retry`, `Queue.forget`: a key that failed is added again after its backoff, which grows until the failures are
  forgotten; `Queue.advance` lets the delays pass;
* `Queue.close`: from then on nothing becomes ready and nothing is handed out.

Times are milliseconds on a clock that its users read.
-/

namespace FleetAtlas

/-- The delayed addition of a key. -/
structure Timer (κ : Type) where
  due : Nat
  key : κ
deriving DecidableEq

/-- Keys to be handed out. `dirty` are those that wait, ready or deferred behind their taker; `processing` are those
that a taker has. -/
structure Queue (κ : Type) where
  ready : List κ
  dirty : List κ
  processing : List κ
  failures : κ → Nat
  timers : List (Timer κ)
  closed : Bool

/-- What a queue answers to a taker. -/
inductive Offer (κ : Type) where
  | closed
  | empty
  | key (key : κ)
deriving DecidableEq

/-- The largest count of failures. -/
def mostFailures : Nat := 0xFFFFFFFF

/-- Puts a timer behind those that are due no later. -/
def insertTimer {κ : Type} (t : Timer κ) : List (Timer κ) → List (Timer κ)
  | [] => [t]
  | u :: rest => if u.due ≤ t.due then u :: insertTimer t rest else t :: u :: rest

namespace Queue

variable {κ : Type}

/-- The queue that nothing was added to. -/
def empty : Queue κ := ⟨[], [], [], fun _ => 0, [], false⟩

instance : Inhabited (Queue κ) := ⟨empty⟩

variable [DecidableEq κ]

/-- Adds a key, unless it waits already. -/
def add (q : Queue κ) (key : κ) : Queue κ :=
  if q.closed || q.dirty.contains key then q
  else
    { q with
      dirty := key :: q.dirty
      ready := if q.processing.contains key then q.ready else q.ready ++ [key] }

/-- Hands out the key that has been ready for longest. -/
def take (q : Queue κ) : Offer κ × Queue κ :=
  if q.closed then (.closed, q)
  else
    match q.ready with
    | [] => (.empty, q)
    | key :: rest =>
      (.key key,
        { q with
          ready := rest
          dirty := q.dirty.filter (· ≠ key)
          processing := q.processing.insert key })

/-- Takes a key back; it is ready again if it was added meanwhile. -/
def release (q : Queue κ) (key : κ) : Queue κ :=
  { q with
    processing := q.processing.filter (· ≠ key)
    ready := if q.dirty.contains key && !q.closed then q.ready ++ [key] else q.ready }

/-- How often a key failed since its failures were last forgotten. -/
def requeues (q : Queue κ) (key : κ) : Nat := q.failures key

/-- Adds a key after its backoff; it failed once more. -/
def retry (q : Queue κ) (now : Nat) (key : κ) : Queue κ :=
  { q with
    failures := fun k => if k = key then min (q.failures key + 1) mostFailures else q.failures k
    timers := insertTimer ⟨now + backoff (q.failures key), key⟩ q.timers }

/-- Forgets the failures of a key. -/
def forget (q : Queue κ) (key : κ) : Queue κ :=
  { q with failures := fun k => if k = key then 0 else q.failures k }

omit [DecidableEq κ] in
/-- Ends the handing out of keys for good. -/
def close (q : Queue κ) : Queue κ := { q with closed := true }

/-- Lets the timer that is due first add its key, if it is due by then. -/
def fire? (q : Queue κ) (now : Nat) : Option (Queue κ) :=
  match q.timers with
  | [] => none
  | t :: rest => if t.due ≤ now then some ({ q with timers := rest }.add t.key) else none

/-- Lets all timers that are due by then add their keys. -/
def advance (q : Queue κ) (now : Nat) : Queue κ :=
  (q.timers.takeWhile fun t => t.due ≤ now).foldl (fun q t => q.add t.key)
    { q with timers := q.timers.dropWhile fun t => t.due ≤ now }

theorem add_timers (q : Queue κ) (key : κ) : (q.add key).timers = q.timers := by unfold add; split <;> rfl

theorem add_closed (q : Queue κ) (key : κ) : (q.add key).closed = q.closed := by unfold add; split <;> rfl

theorem add_of_closed {q : Queue κ} (h : q.closed = true) (key : κ) : q.add key = q := by simp [add, h]

end Queue

end FleetAtlas
