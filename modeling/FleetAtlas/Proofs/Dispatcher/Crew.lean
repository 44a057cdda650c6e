import FleetAtlas.Proofs.Dispatcher.Events
import Mathlib.Logic.Function.Basic

/-!
# Tasks that share a dispatcher

* `Dispatcher.settle`, `Dispatcher.conclude`: the two halves of the end of a call (`finish_eq`), between which a task may
  be interrupted;
* `Crew ω κ`: a dispatcher, and for each of its tasks where it is in its loop and what it has done;
* `Crew.Move`, `Crew.Reached`: the tasks move in any order, and so do the watch, the timers and the one who closes the queue;
* `Crew.Sound`: the keys in use are those that the tasks hold, no two of them the same one (`Reached.sound`);
* `Crew.Reached.single_flight`: **no two calls for one key are in flight, and who takes a key gives it back once**.
-/

namespace FleetAtlas

namespace Dispatcher

variable {κ : Type}

/-- A result has the key tried again, or its failures forgotten. -/
def settle (d : Dispatcher κ) (now : Nat) (call : Call κ) (result : Except Failure Unit) : Dispatcher κ :=
  if isRetried result then { d with queue := d.queue.retry now call.key }
  else { d with queue := d.queue.forget call.key }

/-- The deletion of a call that is not tried again is handled, and the key is given back. -/
def conclude (d : Dispatcher κ) (call : Call κ) (result : Except Failure Unit) : Dispatcher κ :=
  let d := if isRetried result then d else d.clearTombstone call
  { d with queue := d.queue.release call.key, flight := d.flight.filter fun c => c.key ≠ call.key }

/-- **The end of a call has two halves.** -/
theorem finish_eq (d : Dispatcher κ) (now : Nat) (call : Call κ) (result : Except Failure Unit) :
    d.finish now call result = (d.settle now call result).conclude call result := by
  unfold finish settle conclude
  cases isRetried result <;> rfl

variable (d : Dispatcher κ) (now : Nat) (call : Call κ) (result : Except Failure Unit)

@[simp] theorem settle_flight : (d.settle now call result).flight = d.flight := by
  unfold settle
  split <;> rfl

@[simp] theorem settle_processing : (d.settle now call result).queue.processing = d.queue.processing := by
  unfold settle
  split <;> rfl

@[simp] theorem settle_dirty : (d.settle now call result).queue.dirty = d.queue.dirty := by
  unfold settle
  split <;> rfl

@[simp] theorem settle_closed : (d.settle now call result).queue.closed = d.queue.closed := by
  unfold settle
  split <;> rfl

theorem settle_timers :
    (d.settle now call result).queue.timers =
      if isRetried result then insertTimer ⟨now + backoff (d.queue.failures call.key), call.key⟩ d.queue.timers
      else d.queue.timers := by
  unfold settle
  split <;> rfl

theorem settle_failures (k : ObjectKey) :
    (d.settle now call result).queue.failures k =
      if k = call.key then if isRetried result then min (d.queue.failures k + 1) mostFailures else 0
      else d.queue.failures k := by
  unfold settle
  split
  · show (if k = call.key then _ else _) = _
    split
    · next hk => rw [hk]
    · rfl
  · rfl

theorem sound_settle {d : Dispatcher κ} (h : d.queue.Sound) : (d.settle now call result).queue.Sound := by
  unfold settle
  split
  · exact h.retry now call.key
  · exact h.forget call.key

@[simp] theorem conclude_queue : (d.conclude call result).queue = d.queue.release call.key := by
  unfold conclude
  dsimp only
  split
  · rfl
  · rw [clearTombstone_queue]

@[simp] theorem conclude_flight :
    (d.conclude call result).flight = d.flight.filter fun c => c.key ≠ call.key := by
  unfold conclude
  dsimp only
  split
  · rfl
  · rw [clearTombstone_flight]

end Dispatcher

/-! ### Tasks -/

/-- What a task does with a key. -/
inductive Deed where
  | took (key : ObjectKey)
  | called (key : ObjectKey)
  | ended (key : ObjectKey) (result : Except Failure Unit)
  | released (key : ObjectKey)

/-- Where a task is in its loop: it has no key, its call is in flight, its call is over, its result is accounted for. -/
inductive Phase (κ : Type) where
  | seeking
  | handling (call : Call κ)
  | handled (call : Call κ) (result : Except Failure Unit)
  | settled (call : Call κ) (result : Except Failure Unit)

namespace Call

variable {κ : Type}

/-- A task takes a key and calls the handler, unless there is nothing to handle. -/
def opening (call : Call κ) : List Deed :=
  match call.target with
  | .live _ | .deleted _ => [.took call.key, .called call.key]
  | .gone => [.took call.key]

def ending (call : Call κ) (result : Except Failure Unit) : List Deed :=
  match call.target with
  | .live _ | .deleted _ => [.ended call.key result]
  | .gone => []

theorem ending_of_ne_gone {call : Call κ} (h : call.target ≠ .gone) (result : Except Failure Unit) :
    call.ending result = [.ended call.key result] := by
  unfold ending
  split
  · rfl
  · rfl
  · next hgone => exact absurd hgone h

/-- Without anything to handle, all is well at once. -/
def firstPhase (call : Call κ) : Phase κ :=
  match call.target with
  | .live _ | .deleted _ => .handling call
  | .gone => .handled call (.ok ())

/-- All that a task does with a key: take it, call the handler, wait for its end, give the key back. -/
def visit (call : Call κ) (result : Except Failure Unit) : List Deed :=
  call.opening ++ call.ending result ++ [.released call.key]

end Call

namespace Phase

variable {κ : Type}

def call? : Phase κ → Option (Call κ)
  | seeking => none
  | handling call | handled call _ | settled call _ => some call

/-- What a task has done with the key that it has. -/
def deeds : Phase κ → List Deed
  | seeking => []
  | handling call => call.opening
  | handled call result | settled call result => call.opening ++ call.ending result

/-- How many moves are left until a task gives its key back. -/
def rank : Phase κ → Nat
  | seeking => 0
  | handling _ => 3
  | handled .. => 2
  | settled .. => 1

@[simp] theorem call?_firstPhase (call : Call κ) : call.firstPhase.call? = some call := by
  unfold Call.firstPhase
  split <;> rfl

@[simp] theorem deeds_firstPhase (call : Call κ) : call.firstPhase.deeds = call.opening := by
  unfold Call.firstPhase
  split
  · rfl
  · rfl
  · next ht => simp [deeds, Call.ending, ht]

theorem target_ne_gone {call called : Call κ} (h : call.firstPhase = .handling called) : called.target ≠ .gone := by
  unfold Call.firstPhase at h
  intro hgone
  split at h
  · next ht =>
    obtain rfl := handling.inj h
    rw [ht] at hgone
    exact nomatch hgone
  · next ht =>
    obtain rfl := handling.inj h
    rw [ht] at hgone
    exact nomatch hgone
  · exact nomatch h

end Phase

/-- A dispatcher that tasks share, their phases, and what each of them has done, in order. -/
structure Crew (ω κ : Type) where
  dispatcher : Dispatcher κ
  phase : ω → Phase κ
  deeds : ω → List Deed

namespace Crew

/-- What a task does next, or what happens around the tasks. -/
inductive Move (ω κ : Type) where
  | took (task : ω)
  | ended (task : ω) (result : Except Failure Unit)
  | settled (task : ω) (now : Nat)
  | released (task : ω)
  | noticed (event : WatchEvent κ)
  | cached (cache : Cache κ)
  | expired (timer : Timer ObjectKey)
  | closed

/-- Who moves. -/
def Move.task? {ω κ : Type} : Move ω κ → Option ω
  | took w | ended w _ | settled w _ | released w => some w
  | noticed _ | cached _ | expired _ | closed => none

variable {ω κ : Type}

def start : Crew ω κ := ⟨.empty, fun _ => .seeking, fun _ => []⟩

/-- The task has taken the key and has not given it back. -/
def Holds (c : Crew ω κ) (w : ω) (k : ObjectKey) : Prop := ∃ call, (c.phase w).call? = some call ∧ call.key = k

/-- The moves that are possible: a task goes through its phases in order, its handler ends with any result; all else may
happen at any time. -/
def Permits (c : Crew ω κ) : Move ω κ → Prop
  | .took w => c.phase w = .seeking ∧ c.dispatcher.begin?.isSome
  | .ended w _ => ∃ call, c.phase w = .handling call
  | .settled w _ => ∃ call result, c.phase w = .handled call result
  | .released w => ∃ call result, c.phase w = .settled call result
  | .expired t => t ∈ c.dispatcher.queue.timers
  | .noticed _ | .cached _ | .closed => True

variable [DecidableEq ω]

def enter (c : Crew ω κ) (w : ω) (phase : Phase κ) (deeds : List Deed) (d : Dispatcher κ) : Crew ω κ :=
  ⟨d, Function.update c.phase w phase, Function.update c.deeds w (c.deeds w ++ deeds)⟩

section Enter

variable (c : Crew ω κ) (w : ω) (phase : Phase κ) (deeds : List Deed) (d : Dispatcher κ)

@[simp] theorem enter_dispatcher : (c.enter w phase deeds d).dispatcher = d := rfl

@[simp] theorem enter_phase_self : (c.enter w phase deeds d).phase w = phase := by simp [enter]

@[simp] theorem enter_deeds_self : (c.enter w phase deeds d).deeds w = c.deeds w ++ deeds := by
  simp [enter]

variable {c w phase deeds d} {v : ω}

theorem enter_phase_of_ne (h : v ≠ w) : (c.enter w phase deeds d).phase v = c.phase v := by
  simp [enter, h]

theorem enter_deeds_of_ne (h : v ≠ w) : (c.enter w phase deeds d).deeds v = c.deeds v := by
  simp [enter, h]

end Enter

variable [ClusterObject κ]

def next (c : Crew ω κ) : Move ω κ → Crew ω κ
  | .took w =>
    match c.dispatcher.begin? with
    | some (call, d) => c.enter w call.firstPhase call.opening d
    | none => c
  | .ended w result =>
    match c.phase w with
    | .handling call => c.enter w (.handled call result) [.ended call.key result] c.dispatcher
    | .seeking | .handled .. | .settled .. => c
  | .settled w now =>
    match c.phase w with
    | .handled call result => c.enter w (.settled call result) [] (c.dispatcher.settle now call result)
    | .seeking | .handling _ | .settled .. => c
  | .released w =>
    match c.phase w with
    | .settled call result => c.enter w .seeking [.released call.key] (c.dispatcher.conclude call result)
    | .seeking | .handling _ | .handled .. => c
  | .noticed e => { c with dispatcher := c.dispatcher.notify e }
  | .cached cache => { c with dispatcher := { c.dispatcher with cache } }
  | .expired t => { c with dispatcher := { c.dispatcher with queue := c.dispatcher.queue.expire t } }
  | .closed => { c with dispatcher := c.dispatcher.close }

/-- **The crews that come about.** -/
inductive Reached : Crew ω κ → Prop
  | start : Reached start
  | next {c : Crew ω κ} {m : Move ω κ} : Reached c → c.Permits m → Reached (c.next m)

/-- The moves may come one after the other. -/
def Follows : Crew ω κ → List (Move ω κ) → Prop
  | _, [] => True
  | c, m :: ms => c.Permits m ∧ Follows (c.next m) ms

theorem Reached.follow {c : Crew ω κ} (hr : Reached c) {ms : List (Move ω κ)} (hm : Follows c ms) :
    Reached (ms.foldl Crew.next c) := by
  induction ms generalizing c with
  | nil => exact hr
  | cons m ms ih => exact ih (hr.next hm.1) hm.2

/-! ### What a move is -/

section Next

variable {c : Crew ω κ} {w : ω} {call : Call κ} {result : Except Failure Unit}

theorem next_took {d : Dispatcher κ} (hb : c.dispatcher.begin? = some (call, d)) :
    c.next (.took w) = c.enter w call.firstPhase call.opening d := by
  simp only [next, hb]

theorem next_ended (hphase : c.phase w = .handling call) :
    c.next (.ended w result) = c.enter w (.handled call result) [.ended call.key result] c.dispatcher := by
  simp only [next, hphase]

theorem next_settled (hphase : c.phase w = .handled call result) (now : Nat) :
    c.next (.settled w now) = c.enter w (.settled call result) [] (c.dispatcher.settle now call result) := by
  simp only [next, hphase]

theorem next_released (hphase : c.phase w = .settled call result) :
    c.next (.released w) = c.enter w .seeking [.released call.key] (c.dispatcher.conclude call result) := by
  simp only [next, hphase]

end Next

/-- **What a move of a task is**: one phase leads to the next. -/
theorem next_of_task {c : Crew ω κ} {m : Move ω κ} {w : ω} (hp : c.Permits m) (hw : m.task? = some w) :
    (∃ call d, c.phase w = .seeking ∧ c.dispatcher.begin? = some (call, d) ∧
      c.next m = c.enter w call.firstPhase call.opening d) ∨
    (∃ call result, c.phase w = .handling call ∧
      c.next m = c.enter w (.handled call result) [.ended call.key result] c.dispatcher) ∨
    (∃ call result now, c.phase w = .handled call result ∧
      c.next m = c.enter w (.settled call result) [] (c.dispatcher.settle now call result)) ∨
    (∃ call result, c.phase w = .settled call result ∧
      c.next m = c.enter w .seeking [.released call.key] (c.dispatcher.conclude call result)) := by
  cases m with
  | took v =>
    obtain rfl := Option.some.inj hw
    obtain ⟨hphase, hsome⟩ := hp
    obtain ⟨⟨call, d⟩, hb⟩ := Option.isSome_iff_exists.mp hsome
    exact .inl ⟨call, d, hphase, hb, next_took hb⟩
  | ended v result =>
    obtain rfl := Option.some.inj hw
    obtain ⟨call, hphase⟩ := hp
    exact .inr (.inl ⟨call, result, hphase, next_ended hphase⟩)
  | settled v now =>
    obtain rfl := Option.some.inj hw
    obtain ⟨call, result, hphase⟩ := hp
    exact .inr (.inr (.inl ⟨call, result, now, hphase, next_settled hphase now⟩))
  | released v =>
    obtain rfl := Option.some.inj hw
    obtain ⟨call, result, hphase⟩ := hp
    exact .inr (.inr (.inr ⟨call, result, hphase, next_released hphase⟩))
  | noticed _ => exact nomatch hw
  | cached _ => exact nomatch hw
  | expired _ => exact nomatch hw
  | closed => exact nomatch hw

/-- **What happens around the tasks** leaves them alone; the queue gets keys, or is closed. -/
theorem next_of_none {c : Crew ω κ} {m : Move ω κ} (hw : m.task? = none) :
    (c.next m).phase = c.phase ∧ (c.next m).deeds = c.deeds ∧
      (c.next m).dispatcher.flight = c.dispatcher.flight ∧
      (c.next m).dispatcher.queue.processing = c.dispatcher.queue.processing ∧
      (c.dispatcher.queue.Sound → (c.next m).dispatcher.queue.Sound) := by
  cases m with
  | took _ => exact nomatch hw
  | ended _ _ => exact nomatch hw
  | settled _ _ => exact nomatch hw
  | released _ => exact nomatch hw
  | noticed e =>
    obtain ⟨keys, hq⟩ := c.dispatcher.notify_queue_eq_foldl e
    refine ⟨rfl, rfl, c.dispatcher.notify_flight e, ?_, ?_⟩
    · show (c.dispatcher.notify e).queue.processing = _
      rw [hq, Queue.foldl_add_processing]
    · intro h
      show (c.dispatcher.notify e).queue.Sound
      rw [hq]
      exact h.foldl_add keys
  | cached _ => exact ⟨rfl, rfl, rfl, rfl, id⟩
  | expired t => exact ⟨rfl, rfl, rfl, c.dispatcher.queue.expire_processing t, fun h => h.expire t⟩
  | closed => exact ⟨rfl, rfl, rfl, rfl, fun h => h.close⟩

theorem next_of_ne {c : Crew ω κ} {m : Move ω κ} {w : ω} (hp : c.Permits m) (hw : m.task? ≠ some w) :
    (c.next m).phase w = c.phase w ∧ (c.next m).deeds w = c.deeds w := by
  cases hm : m.task? with
  | none =>
    obtain ⟨hphase, hdeeds, -⟩ := next_of_none (c := c) hm
    rw [hphase, hdeeds]
    exact ⟨rfl, rfl⟩
  | some v =>
    have hne : w ≠ v := fun e => hw (e ▸ hm)
    obtain ⟨_, _, -, -, e⟩ | ⟨_, _, -, e⟩ | ⟨_, _, _, -, e⟩ | ⟨_, _, -, e⟩ := next_of_task hp hm <;>
      exact e ▸ ⟨enter_phase_of_ne hne, enter_deeds_of_ne hne⟩

/-! ### The invariant -/

omit [DecidableEq ω] [ClusterObject κ] in
/-- **What holds of a crew all the time.** -/
structure Sound (c : Crew ω κ) : Prop where
  queue : c.dispatcher.queue.Sound
  /-- The keys in use are those that the tasks hold. -/
  held_iff : ∀ k, k ∈ c.dispatcher.queue.processing ↔ ∃ w, c.Holds w k
  /-- No two tasks hold one key. -/
  alone : ∀ k v w, c.Holds v k → c.Holds w k → v = w
  flight_iff : ∀ call, call ∈ c.dispatcher.flight ↔ ∃ w, (c.phase w).call? = some call
  flight_nodup : (c.dispatcher.flight.map Call.key).Nodup
  /-- A handler is called about something. -/
  about : ∀ w call, c.phase w = .handling call → call.target ≠ .gone
  /-- A task has dealt with one key after the other, and does so with the one that it holds. -/
  deeds_eq : ∀ w, ∃ visits : List (Call κ × Except Failure Unit),
    c.deeds w = visits.flatMap (fun v => v.1.visit v.2) ++ (c.phase w).deeds

namespace Sound

variable {c : Crew ω κ}

omit [DecidableEq ω] [ClusterObject κ] in
theorem start : (start : Crew ω κ).Sound where
  queue := .empty
  held_iff k := iff_of_false List.not_mem_nil fun ⟨_, _, h, _⟩ => nomatch h
  alone k v w h := by
    obtain ⟨_, h, -⟩ := h
    exact nomatch h
  flight_iff call := iff_of_false List.not_mem_nil fun ⟨_, h⟩ => nomatch h
  flight_nodup := .nil
  about w call h := nomatch h
  deeds_eq w := ⟨[], rfl⟩

section Enter

variable {w : ω} {phase : Phase κ} {deeds : List Deed} {d : Dispatcher κ}

omit [ClusterObject κ] in
theorem about_enter (hs : c.Sound) (hnew : ∀ call, phase = .handling call → call.target ≠ .gone) (v : ω)
    (call : Call κ) (hv : (c.enter w phase deeds d).phase v = .handling call) : call.target ≠ .gone := by
  by_cases hvw : v = w
  · rw [hvw, enter_phase_self] at hv
    exact hnew call hv
  · rw [enter_phase_of_ne hvw] at hv
    exact hs.about v call hv

omit [ClusterObject κ] in
/-- A task goes on with its visit, or completes it. -/
theorem deeds_enter (hs : c.Sound) {complete : List (Call κ × Except Failure Unit)}
    (hnew : (c.phase w).deeds ++ deeds = complete.flatMap (fun v => v.1.visit v.2) ++ phase.deeds) (v : ω) :
    ∃ visits : List (Call κ × Except Failure Unit), (c.enter w phase deeds d).deeds v =
      visits.flatMap (fun v => v.1.visit v.2) ++ ((c.enter w phase deeds d).phase v).deeds := by
  obtain ⟨visits, hvisits⟩ := hs.deeds_eq v
  by_cases hvw : v = w
  · subst hvw
    refine ⟨visits ++ complete, ?_⟩
    rw [enter_deeds_self, enter_phase_self, hvisits, List.append_assoc, hnew, List.flatMap_append, List.append_assoc]
  · exact ⟨visits, by rw [enter_deeds_of_ne hvw, enter_phase_of_ne hvw, hvisits]⟩

omit [ClusterObject κ] in
theorem enter_of_call? (hs : c.Sound) (hcall : phase.call? = (c.phase w).call?)
    (hdeeds : phase.deeds = (c.phase w).deeds ++ deeds) (hnew : ∀ call, phase ≠ .handling call) (hq : d.queue.Sound)
    (hproc : d.queue.processing = c.dispatcher.queue.processing) (hflight : d.flight = c.dispatcher.flight) :
    (c.enter w phase deeds d).Sound := by
  have hcalls : ∀ v, ((c.enter w phase deeds d).phase v).call? = (c.phase v).call? := by
    intro v
    by_cases hv : v = w
    · rw [hv, enter_phase_self, hcall]
    · rw [enter_phase_of_ne hv]
  have hholds : ∀ v k, (c.enter w phase deeds d).Holds v k ↔ c.Holds v k := by
    intro v k
    unfold Holds
    rw [hcalls]
  refine ⟨hq, ?_, ?_, ?_, ?_, ?_, ?_⟩
  · intro k
    simp only [enter_dispatcher, hproc, hholds]
    exact hs.held_iff k
  · intro k v v' hv hv'
    exact hs.alone k v v' ((hholds v k).mp hv) ((hholds v' k).mp hv')
  · intro call
    simp only [enter_dispatcher, hflight, hcalls]
    exact hs.flight_iff call
  · rw [enter_dispatcher, hflight]
    exact hs.flight_nodup
  · exact hs.about_enter fun call e => absurd e (hnew call)
  · have hgoes : (c.phase w).deeds ++ deeds =
        ([] : List (Call κ × Except Failure Unit)).flatMap (fun v => v.1.visit v.2) ++ phase.deeds := hdeeds.symm
    exact hs.deeds_enter hgoes

end Enter

omit [ClusterObject κ] in
/-- A task takes a key that nobody holds. -/
theorem took (hs : c.Sound) {w : ω} {call : Call κ} {d : Dispatcher κ} (hphase : c.phase w = .seeking)
    (hb : c.dispatcher.begin? = some (call, d)) : (c.enter w call.firstPhase call.opening d).Sound := by
  obtain ⟨hopen, ⟨rest, hready⟩, -, hd⟩ := Dispatcher.begin?_cases hb
  have hqueue : d.queue = c.dispatcher.queue.take.2 := by rw [hd]
  have hflight : d.flight = c.dispatcher.flight ++ [call] := by rw [hd]
  -- the key was ready, so that nobody has it
  have hfree : call.key ∉ c.dispatcher.queue.processing :=
    hs.queue.free_of_ready call.key (by simp [hready])
  have hproc : ∀ k, k ∈ d.queue.processing ↔ k = call.key ∨ k ∈ c.dispatcher.queue.processing := by
    intro k
    rw [hqueue, Queue.take, hopen, if_neg Bool.false_ne_true, hready]
    exact List.mem_insert_iff
  have hcalls : ∀ v called, ((c.enter w call.firstPhase call.opening d).phase v).call? = some called ↔
      (v = w ∧ called = call) ∨ (c.phase v).call? = some called := by
    intro v called
    by_cases hv : v = w
    · subst hv
      have hnone : (c.phase v).call? = none := by rw [hphase]; rfl
      rw [enter_phase_self, Phase.call?_firstPhase, hnone]
      simp [eq_comm]
    · rw [enter_phase_of_ne hv]
      simp [hv]
  have hholds : ∀ v k, (c.enter w call.firstPhase call.opening d).Holds v k ↔
      (v = w ∧ k = call.key) ∨ c.Holds v k := by
    intro v k
    unfold Holds
    simp only [hcalls]
    grind
  have hout : ∀ v, ¬ c.Holds v call.key := fun v hv => hfree ((hs.held_iff call.key).mpr ⟨v, hv⟩)
  refine ⟨hqueue ▸ hs.queue.take, ?_, ?_, ?_, ?_, ?_, ?_⟩
  · intro k
    simp only [enter_dispatcher, hproc, hholds, hs.held_iff k]
    grind
  · intro k v v' hv hv'
    rcases (hholds v k).mp hv with ⟨hvw, hk⟩ | hold
    · rcases (hholds v' k).mp hv' with ⟨hvw', -⟩ | hold'
      · rw [hvw, hvw']
      · exact absurd (hk ▸ hold') (hout v')
    · rcases (hholds v' k).mp hv' with ⟨-, hk⟩ | hold'
      · exact absurd (hk ▸ hold) (hout v)
      · exact hs.alone k v v' hold hold'
  · intro called
    simp only [enter_dispatcher, hflight, hcalls, List.mem_append, List.mem_singleton, hs.flight_iff called]
    grind
  · rw [enter_dispatcher, hflight, List.map_append, List.map_singleton, List.nodup_append]
    refine ⟨hs.flight_nodup, by simp, ?_⟩
    intro k hk k' hk' e
    obtain ⟨called, hin, rfl⟩ := List.mem_map.mp hk
    rw [List.mem_singleton] at hk'
    obtain ⟨v, hv⟩ := (hs.flight_iff called).mp hin
    exact hout v ⟨called, hv, e.trans hk'⟩
  · exact hs.about_enter fun called => Phase.target_ne_gone
  · have hopening : (c.phase w).deeds ++ call.opening =
        ([] : List (Call κ × Except Failure Unit)).flatMap (fun v => v.1.visit v.2) ++ call.firstPhase.deeds := by
      rw [hphase, Phase.deeds_firstPhase]
      rfl
    exact hs.deeds_enter hopening

omit [ClusterObject κ] in
theorem released (hs : c.Sound) {w : ω} {call : Call κ} {result : Except Failure Unit}
    (hphase : c.phase w = .settled call result) :
    (c.enter w .seeking [.released call.key] (c.dispatcher.conclude call result)).Sound := by
  have hcall : (c.phase w).call? = some call := by rw [hphase]; rfl
  have hheld : call.key ∈ c.dispatcher.queue.processing := (hs.held_iff call.key).mpr ⟨w, call, hcall, rfl⟩
  have hcalls : ∀ v called, ((c.enter w .seeking [.released call.key] (c.dispatcher.conclude call result)).phase
      v).call? = some called ↔ (c.phase v).call? = some called ∧ called.key ≠ call.key := by
    intro v called
    by_cases hv : v = w
    · subst hv
      rw [enter_phase_self, hcall]
      simp only [Phase.call?, reduceCtorEq, Option.some.injEq, false_iff, not_and, not_not]
      exact fun e => e ▸ rfl
    · rw [enter_phase_of_ne hv]
      constructor
      · intro h
        exact ⟨h, fun e => hv (hs.alone call.key v w ⟨called, h, e⟩ ⟨call, hcall, rfl⟩)⟩
      · exact And.left
  have hholds : ∀ v k, (c.enter w .seeking [.released call.key] (c.dispatcher.conclude call result)).Holds v k ↔
      c.Holds v k ∧ k ≠ call.key := by
    intro v k
    unfold Holds
    simp only [hcalls]
    grind
  refine ⟨?_, ?_, ?_, ?_, ?_, ?_, ?_⟩
  · rw [enter_dispatcher, Dispatcher.conclude_queue]
    exact hs.queue.release hheld
  · intro k
    rw [enter_dispatcher, Dispatcher.conclude_queue, Queue.mem_processing_release, hs.held_iff k]
    simp only [hholds]
    exact ⟨fun ⟨⟨v, hv⟩, hk⟩ => ⟨v, hv, hk⟩, fun ⟨v, hv, hk⟩ => ⟨⟨v, hv⟩, hk⟩⟩
  · intro k v v' hv hv'
    exact hs.alone k v v' ((hholds v k).mp hv).1 ((hholds v' k).mp hv').1
  · intro called
    rw [enter_dispatcher, Dispatcher.conclude_flight, List.mem_filter, decide_eq_true_iff, hs.flight_iff called]
    simp only [hcalls]
    exact ⟨fun ⟨⟨v, hv⟩, hk⟩ => ⟨v, hv, hk⟩, fun ⟨v, hv, hk⟩ => ⟨⟨v, hv⟩, hk⟩⟩
  · rw [enter_dispatcher, Dispatcher.conclude_flight]
    exact hs.flight_nodup.sublist (List.filter_sublist.map Call.key)
  · exact hs.about_enter nofun
  · -- the visit is complete
    have hvisit : (c.phase w).deeds ++ [.released call.key] =
        [(call, result)].flatMap (fun v => v.1.visit v.2) ++ (Phase.seeking : Phase κ).deeds := by
      rw [hphase, List.flatMap_singleton]
      exact (List.append_nil _).symm
    exact hs.deeds_enter hvisit

theorem next (hs : c.Sound) {m : Move ω κ} (hp : c.Permits m) : (c.next m).Sound := by
  cases hm : m.task? with
  | none =>
    obtain ⟨hphase, hdeeds, hflight, hproc, hqueue⟩ := next_of_none (c := c) hm
    have hholds : ∀ w k, (c.next m).Holds w k ↔ c.Holds w k := by
      intro w k
      unfold Holds
      rw [hphase]
    refine ⟨hqueue hs.queue, ?_, ?_, ?_, ?_, ?_, ?_⟩
    · simp only [hproc, hholds]
      exact hs.held_iff
    · simp only [hholds]
      exact hs.alone
    · rw [hflight, hphase]
      exact hs.flight_iff
    · rw [hflight]
      exact hs.flight_nodup
    · rw [hphase]
      exact hs.about
    · rw [hphase, hdeeds]
      exact hs.deeds_eq
  | some w =>
    obtain ⟨call, d, hphase, hb, e⟩ | ⟨call, result, hphase, e⟩ | ⟨call, result, now, hphase, e⟩ |
      ⟨call, result, hphase, e⟩ := next_of_task hp hm <;> rw [e]
    · exact hs.took hphase hb
    · refine hs.enter_of_call? ?_ ?_ nofun hs.queue rfl rfl
      · rw [hphase]; rfl
      · rw [hphase, Phase.deeds, Phase.deeds, Call.ending_of_ne_gone (hs.about w call hphase) result]
    · refine hs.enter_of_call? ?_ ?_ nofun (Dispatcher.sound_settle now call result hs.queue) ?_ ?_
      · rw [hphase]; rfl
      · rw [hphase, List.append_nil]; rfl
      · rw [Dispatcher.settle_processing]
      · rw [Dispatcher.settle_flight]
    · exact hs.released hphase

end Sound

/-- **Every crew that comes about is sound.** -/
theorem Reached.sound {c : Crew ω κ} (hr : Reached c) : c.Sound := by
  induction hr with
  | start => exact .start
  | next _ hp ih => exact ih.next hp

/-! ### Keys are given back -/

theorem exists_deeds_append {c : Crew ω κ} {ms : List (Move ω κ)} (hm : Follows c ms) (w : ω) :
    ∃ more, (ms.foldl next c).deeds w = c.deeds w ++ more := by
  induction ms generalizing c with
  | nil => exact ⟨[], (List.append_nil _).symm⟩
  | cons m ms ih =>
    obtain ⟨more, hmore⟩ := ih hm.2
    rw [List.foldl_cons, hmore]
    by_cases hw : m.task? = some w
    · obtain ⟨deeds, hdeeds⟩ : ∃ deeds, (c.next m).deeds w = c.deeds w ++ deeds := by
        obtain ⟨_, _, -, -, e⟩ | ⟨_, _, -, e⟩ | ⟨_, _, _, -, e⟩ | ⟨_, _, -, e⟩ := next_of_task hm.1 hw <;>
          exact ⟨_, by rw [e, enter_deeds_self]⟩
      exact ⟨deeds ++ more, by rw [hdeeds, List.append_assoc]⟩
    · exact ⟨more, by rw [(next_of_ne hm.1 hw).2]⟩

omit [DecidableEq ω] [ClusterObject κ] in
theorem exists_permits {c : Crew ω κ} {w : ω} {call : Call κ} (hc : (c.phase w).call? = some call) :
    ∃ m : Move ω κ, m.task? = some w ∧ c.Permits m := by
  cases hphase : c.phase w with
  | seeking => rw [hphase] at hc; exact nomatch hc
  | handling call => exact ⟨.ended w (.ok ()), rfl, call, hphase⟩
  | handled call result => exact ⟨.settled w 0, rfl, call, result, hphase⟩
  | settled call result => exact ⟨.released w, rfl, call, result, hphase⟩

/-- **A task that moves on gives its key back**, whatever happens between its moves. -/
theorem exists_visit {c : Crew ω κ} (hs : c.Sound) {w : ω} {call : Call κ} (hc : (c.phase w).call? = some call)
    {done : List Deed} (hdone : c.deeds w = done ++ (c.phase w).deeds) {ms : List (Move ω κ)} (hm : Follows c ms)
    (hrank : (c.phase w).rank ≤ (ms.filter fun m => m.task? = some w).length) :
    ∃ result more, (ms.foldl next c).deeds w = done ++ call.visit result ++ more := by
  -- the rank falls with each move of the task and stays with all others, until the key is given back
  induction ms generalizing c with
  | nil =>
    cases hphase : c.phase w <;> rw [hphase] at hc hrank
    · exact nomatch hc
    all_goals simp [Phase.rank] at hrank
  | cons m ms ih =>
    have hs' := hs.next hm.1
    by_cases hw : m.task? = some w
    · have hrest : (c.phase w).rank ≤ (ms.filter fun m => m.task? = some w).length + 1 := by
        simpa [hw] using hrank
      obtain ⟨called, d, hphase, -, e⟩ | ⟨called, result, hphase, e⟩ | ⟨called, result, now, hphase, e⟩ |
        ⟨called, result, hphase, e⟩ := next_of_task hm.1 hw <;> rw [hphase] at hc hrest hdone
      · exact nomatch hc
      · obtain rfl := Option.some.inj hc
        refine ih hs' ?_ ?_ hm.2 ?_
        · rw [e, enter_phase_self]; rfl
        · rw [e, enter_deeds_self, enter_phase_self, hdone, Phase.deeds, Phase.deeds,
            Call.ending_of_ne_gone (hs.about w called hphase) result, List.append_assoc]
        · rw [e, enter_phase_self]; exact Nat.le_of_succ_le_succ hrest
      · obtain rfl := Option.some.inj hc
        refine ih hs' ?_ ?_ hm.2 ?_
        · rw [e, enter_phase_self]; rfl
        · rw [e, enter_deeds_self, enter_phase_self, hdone, List.append_nil]; rfl
        · rw [e, enter_phase_self]; exact Nat.le_of_succ_le_succ hrest
      · -- the key is given back
        obtain rfl := Option.some.inj hc
        obtain ⟨more, hmore⟩ := exists_deeds_append hm.2 w
        refine ⟨result, more, ?_⟩
        rw [List.foldl_cons, hmore, e, enter_deeds_self, hdone]
        simp [Phase.deeds, Call.visit]
    · obtain ⟨hphase, hdeeds⟩ := next_of_ne hm.1 hw
      refine ih hs' ?_ ?_ hm.2 ?_
      · rw [hphase]; exact hc
      · rw [hphase, hdeeds]; exact hdone
      · rw [hphase]; simpa [hw] using hrank

/-- **Single flight.**  No two calls for one key are in flight, be they told by the phases of the tasks or by what the
dispatcher notes of them; the keys that the queue has handed out are those that the tasks hold; what a task does is one
complete visit after the other, up to the one that it is at; and it completes that one as soon as it moves on, whatever the
result and whatever happens in between. -/
theorem Reached.single_flight {c : Crew ω κ} (hr : Reached c) :
    (∀ v w a b, c.phase v = .handling a → c.phase w = .handling b → a.key = b.key → v = w) ∧
    (c.dispatcher.flight.map Call.key).Nodup ∧
    (∀ k, k ∈ c.dispatcher.queue.processing ↔ ∃ w, c.Holds w k) ∧
    ∀ w, ∃ visits : List (Call κ × Except Failure Unit),
      c.deeds w = visits.flatMap (fun v => v.1.visit v.2) ++ (c.phase w).deeds ∧
      ∀ call, (c.phase w).call? = some call →
        (∃ m : Move ω κ, m.task? = some w ∧ c.Permits m) ∧
        ∀ ms, c.Follows ms → (c.phase w).rank ≤ (ms.filter fun m => m.task? = some w).length →
          ∃ result more, (ms.foldl Crew.next c).deeds w =
            visits.flatMap (fun v => v.1.visit v.2) ++ call.visit result ++ more := by
  have hs := hr.sound
  refine ⟨?_, hs.flight_nodup, hs.held_iff, ?_⟩
  · intro v w a b hv hw hk
    have hholds : c.Holds v b.key := ⟨a, by rw [hv]; rfl, hk⟩
    exact hs.alone b.key v w hholds ⟨b, by rw [hw]; rfl, rfl⟩
  · intro w
    obtain ⟨visits, hvisits⟩ := hs.deeds_eq w
    refine ⟨visits, hvisits, fun call hc => ⟨exists_permits hc, fun ms hm hrank => ?_⟩⟩
    exact exists_visit hs hc hvisits hm hrank

def version (text : String) : Namespace :=
  ⟨{ Metadata.empty with name := some "a", resourceVersion := some text }⟩

/-- One of two tasks has its handler called about an object, which changes meanwhile; the other one takes the key of an
object that is gone. -/
def shift : List (Move Bool Namespace) :=
  [.cached (.ofList [version "1"]), .noticed (.apply (version "1")), .took false, .noticed (.apply (version "2")),
    .noticed (.apply ⟨{ Metadata.empty with name := some "b" }⟩), .took true]

theorem follows_shift : Follows start shift :=
  ⟨trivial, trivial, ⟨rfl, rfl⟩, trivial, trivial, ⟨rfl, rfl⟩, trivial⟩

theorem follows_rest (result : Except Failure Unit) :
    Follows (shift.foldl next start) [.ended false result, .settled false 0, .released false] :=
  ⟨⟨_, rfl⟩, ⟨_, _, rfl⟩, ⟨_, _, rfl⟩, trivial⟩

theorem deeds_shift : (∃ call, (shift.foldl next start).phase false = .handling call ∧ call.key = ⟨none, "a"⟩) ∧
    (∀ w call, (shift.foldl next start).phase w = .handling call → call.key = ⟨none, "a"⟩ → w = false) ∧
    ∃ result more, ([Move.ended false (.error .cancelled), .settled false 0, .released false].foldl next
      (shift.foldl next start)).deeds false =
        [.took ⟨none, "a"⟩, .called ⟨none, "a"⟩, .ended ⟨none, "a"⟩ result, .released ⟨none, "a"⟩] ++ more := by
  obtain ⟨halone, -, -, hdeeds⟩ := Reached.single_flight (Reached.start.follow follows_shift)
  have hphase : (shift.foldl next start).phase false = .handling ⟨⟨none, "a"⟩, .live (version "1")⟩ := rfl
  refine ⟨⟨_, hphase, rfl⟩, fun w call hw hk => halone w false call _ hw hphase hk, ?_⟩
  obtain ⟨visits, hvisits, hrest⟩ := hdeeds false
  have hfirst : (shift.foldl next start).deeds false = ((shift.foldl next start).phase false).deeds := rfl
  have hnone := List.self_eq_append_left.mp (hfirst.symm.trans hvisits)
  obtain ⟨result, more, hmore⟩ := (hrest _ (by rw [hphase]; rfl)).2 _ (follows_rest (.error .cancelled)) (by decide)
  rw [hnone] at hmore
  exact ⟨result, more, hmore⟩

end Crew

end FleetAtlas
