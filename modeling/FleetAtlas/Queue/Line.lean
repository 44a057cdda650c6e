import FleetAtlas.Queue.Basic

/-!
# Waiting for keys

* `Line κ`: a queue and those who wait in line for its keys, by number;
* `Line.pass`: one look of a taker: it leaves with a key, or because the queue is closed, or it joins the line;
* `Line.act`: an operation on the queue, which wakes the first in line for a key that becomes ready, or leaves a permit;
* `Line.settle`: all who are awake look again.
-/

namespace FleetAtlas

/-- A queue, those who wait for its keys, those who were woken and have not looked yet, the first ones first, and a
permit that is left when a key becomes ready with nobody in line. -/
structure Line (κ : Type) where
  queue : Queue κ
  permit : Bool
  waiting : List Nat
  woken : List Nat

namespace Line

variable {κ : Type}

/-- Nobody waits for an empty queue. -/
def empty : Line κ := ⟨.empty, false, [], []⟩

/-- Wakes the first in line, or leaves a permit. -/
def wake (l : Line κ) : Line κ :=
  match l.waiting with
  | [] => { l with permit := true }
  | taker :: rest => { l with waiting := rest, woken := l.woken ++ [taker] }

/-- Wakes all in line. -/
def wakeAll (l : Line κ) : Line κ := { l with waiting := [], woken := l.woken ++ l.waiting }

/-- Puts a changed queue in place; a key that became ready wakes one. -/
def act (l : Line κ) (change : Queue κ → Queue κ) : Line κ :=
  let queue := change l.queue
  if l.queue.ready.length < queue.ready.length then { l with queue }.wake else { l with queue }

/-- Closes the queue, which wakes all. -/
def close (l : Line κ) : Line κ := { l with queue := l.queue.close }.wakeAll

variable [DecidableEq κ]

/-- A look at the queue, which uses up a permit: the key or `none` for a closed queue, or nothing to leave with. -/
def look (l : Line κ) : Option (Option κ) × Line κ :=
  match l.queue.take with
  | (.closed, _) => (some none, { l with permit := false })
  | (.key key, queue) => (some (some key), { l with queue, permit := false })
  | (.empty, _) => (none, { l with permit := false })

/-- A look of a taker, who joins the line when there is nothing to leave with. -/
def pass (l : Line κ) (taker : Nat) : Option (Option κ) × Line κ :=
  match l.look with
  | (some answer, l) => (some answer, l)
  | (none, l) => (none, { l with waiting := l.waiting ++ [taker] })

/-- Lets takers look, one after the other; those who leave, with what they leave with. -/
def passAll (l : Line κ) : List Nat → List (Nat × Option κ) × Line κ
  | [] => ([], l)
  | taker :: rest =>
    match l.pass taker with
    | (some answer, l) =>
      let (left, l) := l.passAll rest
      ((taker, answer) :: left, l)
    | (none, l) => l.passAll rest

/-- Lets all who are awake look. -/
def settle (l : Line κ) : List (Nat × Option κ) × Line κ := { l with woken := [] }.passAll l.woken

/-- Lets a number of timers fire, and those who are woken look in between. -/
def fireAll (l : Line κ) (now : Nat) : Nat → List (Nat × Option κ) × Line κ
  | 0 => ([], l)
  | n + 1 =>
    match l.queue.fire? now with
    | none => ([], l)
    | some queue =>
      let (left, l) := (l.act fun _ => queue).settle
      let (others, l) := l.fireAll now n
      (left ++ others, l)

/-- Lets the timers that are due by then fire. -/
def advance (l : Line κ) (now : Nat) : List (Nat × Option κ) × Line κ := l.fireAll now l.queue.timers.length

end Line

end FleetAtlas
