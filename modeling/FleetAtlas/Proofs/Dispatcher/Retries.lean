import FleetAtlas.Metrics
import FleetAtlas.Proofs.Dispatcher.Crew
import Mathlib.Algebra.GroupWithZero.Nat

/-!
# When a failed key is tried again

* `retryDelay n`: how long a key waits after its `n`-th failure in a row;
* `Metrics.Balanced`: the count of retries is the sum of the counts of recoverable failures;
* `Outcome`, `Outcome.streak`, `Outcome.schedule`: what calls ended with, how often a key has failed in a row, and the
  timers that the failures call for;
* `Ledger ω κ`: a crew with a clock, the outcomes that its tasks have accounted for, the timers that have fired, and the
  metrics; time does not pass over a timer that is due;
* `Ledger.RetryLaw`, `Ledger.Reached.retry_law`: **timers, failure counts and metrics are those of the outcomes, and a
  key whose last call failed comes back**.

An outcome and its metrics are accounted for in one move: a task does not wait in between.
-/

namespace FleetAtlas

/-! ### Delays -/

/-- The milliseconds that a key waits whose calls have failed so many times in a row. -/
def retryDelay (n : Nat) : Nat := min (5 * 2 ^ (n - 1)) 1000000

theorem backoff_eq_retryDelay (failures : Nat) : backoff failures = retryDelay (failures + 1) := by
  rw [backoff_eq, Nat.shiftLeft_eq]
  rfl

/-- The bound on the count of failures does not show in the delay. -/
theorem backoff_min_mostFailures (n : Nat) : backoff (min n mostFailures) = backoff n := by
  have cap : min (min n mostFailures) 18 = min n 18 := by unfold mostFailures; omega
  unfold backoff
  rw [cap]

theorem getD_countUp (counts : Dict (List String) Nat) (key k : List String) (more : Nat) :
    (countUp counts key more).getD k 0 = counts.getD k 0 + if k = key then more else 0 := by
  unfold countUp Dict.getD
  rw [Dict.get?_insert]
  split
  · next h => rw [h]; rfl
  · rfl

/-- The labels of the failures that are not irrecoverable. -/
def recoverableLabels : List String := ["storage_error", "owner_not_cached", "cancelled"]

theorem mem_recoverableLabels {label : String} :
    label ∈ recoverableLabels ↔ ∃ e : Failure, e.isIrrecoverable = false ∧ e.label = label := by
  constructor
  · intro h
    simp only [recoverableLabels, List.mem_cons, List.not_mem_nil, or_false] at h
    rcases h with rfl | rfl | rfl
    · exact ⟨.storage .malformed, rfl, rfl⟩
    · exact ⟨.ownerNotCached "", rfl, rfl⟩
    · exact ⟨.cancelled, rfl, rfl⟩
  · rintro ⟨e, he, rfl⟩
    cases e with
    | storage | ownerNotCached | cancelled => simp [recoverableLabels, Failure.label]
    | unparsableRuntime | podOwnerNotFound | ambiguousPodOwner | missingConfiguration => exact nomatch he

/-- A failure is counted under one of these labels if it is tried again, and under another one if it is irrecoverable. -/
theorem count_recoverableLabels {e : Failure} (h : e ≠ .cancelled) :
    recoverableLabels.count e.label = if e.isRetried then 1 else 0 := by
  cases e with
  | cancelled => exact absurd rfl h
  | storage | unparsableRuntime | podOwnerNotFound | ambiguousPodOwner | ownerNotCached | missingConfiguration => rfl

namespace Metrics

/-- The notifications of an observer that were handled with one of the labels. -/
def handledWith (m : Metrics) (observer : String) (labels : List String) : Nat :=
  (labels.map fun label => m.handled.getD [observer, label] 0).sum

/-- **The retries that are counted are the recoverable failures that are counted.** -/
def Balanced (m : Metrics) (observer : String) : Prop :=
  m.requeues.getD [observer] 0 = m.handledWith observer recoverableLabels

theorem handledWith_countHandled (m : Metrics) (observer label : String) (labels : List String) :
    (m.countHandled observer label).handledWith observer labels =
      m.handledWith observer labels + labels.count label := by
  have hcount : ∀ l, (countUp m.handled [observer, label] 1).getD [observer, l] 0 =
      m.handled.getD [observer, l] 0 + if l = label then 1 else 0 := fun l => by simp [getD_countUp]
  unfold handledWith countHandled
  simp only [hcount]
  induction labels with
  | nil => rfl
  | cons l labels ih =>
    simp only [List.map_cons, List.sum_cons, ih, List.count_cons, beq_iff_eq]
    omega

theorem Balanced.countHandled {m : Metrics} {observer label : String} (h : m.Balanced observer)
    (hl : recoverableLabels.count label = 0) : (m.countHandled observer label).Balanced observer := by
  unfold Balanced
  rw [handledWith_countHandled, hl]
  exact h

theorem Balanced.countRetried {m : Metrics} {observer label : String} (h : m.Balanced observer)
    (hl : recoverableLabels.count label = 1) :
    ((m.countHandled observer label).countRequeue observer).Balanced observer := by
  have hr : ((m.countHandled observer label).countRequeue observer).requeues.getD [observer] 0 =
      m.requeues.getD [observer] 0 + 1 := by
    show (countUp m.requeues [observer] 1).getD [observer] 0 = _
    rw [getD_countUp, if_pos rfl]
  unfold Balanced
  rw [hr, h, show ((m.countHandled observer label).countRequeue observer).handledWith observer recoverableLabels =
    (m.countHandled observer label).handledWith observer recoverableLabels from rfl, handledWith_countHandled, hl]

/-- **The end of a call keeps the balance**, whatever its result. -/
theorem Balanced.ended {m : Metrics} {observer : String} (h : m.Balanced observer) (result : Except Failure Unit) :
    (m.ended observer result).Balanced observer := by
  have h' : (m.countDuration observer).Balanced observer := h
  match result with
  | .ok () => exact h'.countHandled (by decide)
  | .error e =>
    by_cases hc : e = .cancelled
    · rw [hc]
      exact h'
    · have hcount := count_recoverableLabels hc
      have hended : m.ended observer (.error e) =
          if e.isRetried then ((m.countDuration observer).countHandled observer e.label).countRequeue observer
          else (m.countDuration observer).countHandled observer e.label := by
        cases e with
        | cancelled => exact absurd rfl hc
        | storage | unparsableRuntime | podOwnerNotFound | ambiguousPodOwner | ownerNotCached | missingConfiguration =>
          rfl
      rw [hended]
      split
      · next hr => exact h'.countRetried (by rw [hcount, if_pos hr])
      · next hr => exact h'.countHandled (by rw [hcount, if_neg hr])

end Metrics

/-! ### Outcomes -/

/-- What a call ended with, which task has accounted for it, and when. -/
structure Outcome (ω κ : Type) where
  task : ω
  call : Call κ
  result : Except Failure Unit
  time : Nat

namespace Outcome

variable {ω κ : Type}

/-- The call failed, and its key is tried again. -/
def isRetried (o : Outcome ω κ) : Bool := Dispatcher.isRetried o.result

/-- How many of the last calls for a key have failed in a row, all but the latest outcomes coming later in the list. -/
def streak (outcomes : List (Outcome ω κ)) (k : ObjectKey) : Nat :=
  ((outcomes.filter fun o => o.call.key = k).takeWhile isRetried).length

/-- The timers that the failures call for: the `n`-th failure in a row calls for one after the `n`-th delay. -/
def schedule : List (Outcome ω κ) → List (Timer ObjectKey)
  | [] => []
  | o :: earlier =>
    if o.isRetried then ⟨o.time + retryDelay (streak (o :: earlier) o.call.key), o.call.key⟩ :: schedule earlier
    else schedule earlier

theorem streak_cons_self {o : Outcome ω κ} (h : o.isRetried = true) (earlier : List (Outcome ω κ)) :
    streak (o :: earlier) o.call.key = streak earlier o.call.key + 1 := by
  simp [streak, h]

theorem streak_cons_self_of_not {o : Outcome ω κ} (h : o.isRetried = false) (earlier : List (Outcome ω κ)) :
    streak (o :: earlier) o.call.key = 0 := by
  simp [streak, h]

theorem streak_cons_of_ne {o : Outcome ω κ} {k : ObjectKey} (h : o.call.key ≠ k) (earlier : List (Outcome ω κ)) :
    streak (o :: earlier) k = streak earlier k := by
  simp [streak, h]

end Outcome

/-! ### Calls that are not accounted for -/

/-- A failure that has its key tried again. -/
def Deed.retried? : Deed → Option ObjectKey
  | ended key result => if Dispatcher.isRetried result then some key else none
  | took _ | called _ | released _ => none

namespace Phase

variable {κ : Type}

/-- The call that a task has not accounted for. -/
def unsettled? : Phase κ → Option (Call κ)
  | handling call | handled call _ => some call
  | seeking | settled .. => none

/-- The failure that a task has not accounted for. -/
def owed : Phase κ → List ObjectKey
  | handled call result => if Dispatcher.isRetried result then [call.key] else []
  | seeking | handling _ | settled .. => []

theorem unsettled?_firstPhase (call : Call κ) : call.firstPhase.unsettled? = some call := by
  unfold Call.firstPhase
  split <;> rfl

theorem owed_firstPhase (call : Call κ) : call.firstPhase.owed = [] := by
  unfold Call.firstPhase
  split <;> rfl

theorem retried?_opening (call : Call κ) : call.opening.filterMap Deed.retried? = [] := by
  unfold Call.opening
  split <;> rfl

end Phase

/-- A call for the key is not accounted for. -/
def Crew.Unsettled {ω κ : Type} (c : Crew ω κ) (k : ObjectKey) : Prop :=
  ∃ w call, (c.phase w).unsettled? = some call ∧ call.key = k

/-! ### Ledgers -/

/-- A crew, the clock, the outcomes from the latest on, the timers that have fired with the times at which they did, and
the metrics. -/
structure Ledger (ω κ : Type) where
  crew : Crew ω κ
  clock : Nat
  outcomes : List (Outcome ω κ)
  fired : List (Timer ObjectKey × Nat)
  metrics : Metrics

namespace Ledger

/-- The crew moves, or a millisecond passes. -/
inductive Move (ω κ : Type) where
  | moved (move : Crew.Move ω κ)
  | elapsed

variable {ω κ : Type}

def start : Ledger ω κ := ⟨.start, 0, [], [], .zero⟩

/-- The queue of the dispatcher. -/
abbrev queue (l : Ledger ω κ) : Queue ObjectKey := l.crew.dispatcher.queue

/-- The moves that are possible: a task accounts for an outcome by the clock, a timer fires when it is due, and no time
passes before it has. -/
def Permits (l : Ledger ω κ) : Move ω κ → Prop
  | .elapsed => ∀ t ∈ l.queue.timers, l.clock < t.due
  | .moved m => l.crew.Permits m ∧
    match m with
    | .settled _ now => now = l.clock
    | .expired t => t.due ≤ l.clock
    | .took _ | .ended .. | .released _ | .noticed _ | .cached _ | .closed => True

variable [DecidableEq ω] [ClusterObject κ]

/-- What a move changes, the metrics being those of an observer. -/
def next (observer : String) (l : Ledger ω κ) : Move ω κ → Ledger ω κ
  | .elapsed => { l with clock := l.clock + 1 }
  | .moved (.took w) => { l with crew := l.crew.next (.took w), metrics := l.metrics.opened observer }
  | .moved (.settled w now) =>
    match l.crew.phase w with
    | .handled call result =>
      { l with
        crew := l.crew.next (.settled w now)
        outcomes := ⟨w, call, result, l.clock⟩ :: l.outcomes
        metrics := l.metrics.ended observer result }
    | .seeking | .handling _ | .settled .. => l
  | .moved (.expired t) => { l with crew := l.crew.next (.expired t), fired := (t, l.clock) :: l.fired }
  | .moved m => { l with crew := l.crew.next m }

/-- **The ledgers that come about.** -/
inductive Reached (observer : String) : Ledger ω κ → Prop
  | start : Reached observer start
  | next {l : Ledger ω κ} {m : Move ω κ} : Reached observer l → l.Permits m → Reached observer (l.next observer m)

/-- The moves may come one after the other. -/
def Follows (observer : String) : Ledger ω κ → List (Move ω κ) → Prop
  | _, [] => True
  | l, m :: ms => l.Permits m ∧ Follows observer (l.next observer m) ms

theorem Reached.follow {observer : String} {l : Ledger ω κ} (hr : Reached observer l) {ms : List (Move ω κ)}
    (hm : Follows observer l ms) : Reached observer (ms.foldl (Ledger.next observer) l) := by
  induction ms generalizing l with
  | nil => exact hr
  | cons m ms ih => exact ih (hr.next hm.1) hm.2

/-! ### The invariant -/

omit [DecidableEq ω] [ClusterObject κ] in
/-- A key is to be handled again: it waits, a timer is to add it, or its call is not accounted for. -/
def Due (l : Ledger ω κ) (k : ObjectKey) : Prop :=
  k ∈ l.queue.dirty ∨ (∃ t ∈ l.queue.timers, t.key = k) ∨ l.crew.Unsettled k

/-- **What holds of a ledger all the time.** -/
structure Keeps (l : Ledger ω κ) (observer : String) : Prop where
  crew : l.crew.Reached
  /-- The timers, those that wait and those that have fired, are those that the outcomes call for. -/
  timers : (l.queue.timers ++ l.fired.map Prod.fst).Perm (Outcome.schedule l.outcomes)
  clock_le : ∀ t ∈ l.queue.timers, l.clock ≤ t.due
  fired_due : ∀ f ∈ l.fired, f.2 = f.1.due
  failures : ∀ k, l.queue.failures k = min (Outcome.streak l.outcomes k) mostFailures
  /-- While the queue is open, a key whose last call failed comes back. -/
  due : l.queue.closed = false → ∀ k, 0 < Outcome.streak l.outcomes k → l.Due k
  balanced : l.metrics.Balanced observer
  /-- A task has accounted for the failures of its calls in order, up to the one that it is at. -/
  owed : ∀ w, (l.crew.deeds w).filterMap Deed.retried? =
    ((l.outcomes.filter fun o => o.task = w ∧ o.isRetried).map fun o => o.call.key).reverse ++ (l.crew.phase w).owed

namespace Keeps

variable {l : Ledger ω κ} {observer : String}

theorem start : (start : Ledger ω κ).Keeps observer where
  crew := .start
  timers := .refl _
  clock_le _ := nofun
  fired_due _ := nofun
  failures _ := rfl
  due _ _ := nofun
  balanced := rfl
  owed _ := rfl

/-- What leaves outcomes, timers and failures alone is to keep the keys that wait, the calls that are not accounted for
and the failures that are owed. -/
theorem of_eq {l' : Ledger ω κ} (h : l.Keeps observer) (hr : l'.crew.Reached)
    (hlog : l'.outcomes = l.outcomes ∧ l'.fired = l.fired ∧ l'.clock = l.clock)
    (htimers : l'.queue.timers = l.queue.timers) (hfailures : l'.queue.failures = l.queue.failures)
    (hmetrics : l'.metrics.handled = l.metrics.handled ∧ l'.metrics.requeues = l.metrics.requeues)
    (hopen : l'.queue.closed = false → l.queue.closed = false)
    (hdirty : l.queue.closed = false → ∀ k ∈ l.queue.dirty, k ∈ l'.queue.dirty ∨ l'.crew.Unsettled k)
    (hunsettled : ∀ k, l.crew.Unsettled k → l'.crew.Unsettled k)
    (howed : ∀ w, ∃ more, (l'.crew.deeds w).filterMap Deed.retried? = (l.crew.deeds w).filterMap Deed.retried? ++ more ∧
      (l'.crew.phase w).owed = (l.crew.phase w).owed ++ more) : l'.Keeps observer := by
  obtain ⟨ho, hf, hc⟩ := hlog
  refine ⟨hr, ?_, ?_, ?_, ?_, ?_, ?_, ?_⟩
  · rw [ho, hf, htimers]; exact h.timers
  · rw [hc, htimers]; exact h.clock_le
  · rw [hf]; exact h.fired_due
  · rw [ho, hfailures]; exact h.failures
  · intro hopen' k hk
    rcases h.due (hopen hopen') k (ho ▸ hk) with hd | ht | hu
    · exact (hdirty (hopen hopen') k hd).imp_right .inr
    · exact .inr (.inl (by rw [htimers]; exact ht))
    · exact .inr (.inr (hunsettled k hu))
  · unfold Metrics.Balanced Metrics.handledWith
    rw [hmetrics.1, hmetrics.2]
    exact h.balanced
  · intro w
    obtain ⟨more, hdeeds, hphase⟩ := howed w
    rw [hdeeds, h.owed, hphase, ho, List.append_assoc]

/-! ### Moves of a task -/

section Enter

variable {c : Crew ω κ} {w : ω} {phase : Phase κ} {deeds : List Deed} {d : Dispatcher κ}

omit [ClusterObject κ] in
theorem unsettled_enter {k : ObjectKey} (hw : ∀ call, (c.phase w).unsettled? = some call → call.key = k →
      phase.unsettled? = some call) (h : c.Unsettled k) : (c.enter w phase deeds d).Unsettled k := by
  obtain ⟨v, call, hv, hk⟩ := h
  refine ⟨v, call, ?_, hk⟩
  by_cases hvw : v = w
  · subst hvw
    rw [Crew.enter_phase_self]
    exact hw call hv hk
  · rw [Crew.enter_phase_of_ne hvw]
    exact hv

omit [ClusterObject κ] in
theorem owed_enter (hphase : phase.owed = (c.phase w).owed ++ deeds.filterMap Deed.retried?) (v : ω) :
    ∃ more, ((c.enter w phase deeds d).deeds v).filterMap Deed.retried? =
        (c.deeds v).filterMap Deed.retried? ++ more ∧
      ((c.enter w phase deeds d).phase v).owed = (c.phase v).owed ++ more := by
  by_cases hvw : v = w
  · subst hvw
    rw [Crew.enter_deeds_self, Crew.enter_phase_self]
    exact ⟨_, List.filterMap_append .., hphase⟩
  · rw [Crew.enter_deeds_of_ne hvw, Crew.enter_phase_of_ne hvw]
    exact ⟨[], by simp⟩

end Enter

theorem took (h : l.Keeps observer) {w : ω} (hp : l.crew.Permits (.took w)) :
    (l.next observer (.moved (.took w))).Keeps observer := by
  have hr := h.crew.next hp
  obtain ⟨hphase, hsome⟩ := hp
  obtain ⟨⟨call, d⟩, hb⟩ := Option.isSome_iff_exists.mp hsome
  obtain ⟨hopen, ⟨rest, hready⟩, -, hd⟩ := Dispatcher.begin?_cases hb
  have hqueue : d.queue = l.queue.take.2 := by rw [hd]
  have hdirty : d.queue.dirty = l.queue.dirty.filter (· ≠ call.key) := by
    rw [hqueue, Queue.take, hopen, if_neg Bool.false_ne_true, hready]
  show Keeps { l with crew := l.crew.next (.took w), metrics := l.metrics.opened observer } observer
  rw [Crew.next_took hb] at hr ⊢
  refine h.of_eq hr ⟨rfl, rfl, rfl⟩ ?_ ?_ ⟨rfl, rfl⟩ (fun _ => hopen) (fun _ k hk => ?_)
    (fun k => unsettled_enter fun _ hc => ?_) (owed_enter ?_)
  · show d.queue.timers = _
    rw [hqueue, Queue.take_timers]
  · show d.queue.failures = _
    rw [hqueue, Queue.take_failures]
  · by_cases hkey : call.key = k
    · -- the key that is taken has a call now
      refine .inr ⟨w, call, ?_, hkey⟩
      rw [Crew.enter_phase_self, Phase.unsettled?_firstPhase]
    · refine .inl ?_
      show k ∈ d.queue.dirty
      rw [hdirty]
      exact List.mem_filter.mpr ⟨hk, by simpa using fun e => hkey e.symm⟩
  · rw [hphase] at hc
    cases hc
  · rw [hphase, Phase.owed_firstPhase, Phase.retried?_opening]
    rfl

theorem ended (h : l.Keeps observer) {w : ω} {result : Except Failure Unit} (hp : l.crew.Permits (.ended w result)) :
    (l.next observer (.moved (.ended w result))).Keeps observer := by
  have hr := h.crew.next hp
  obtain ⟨call, hphase⟩ := hp
  show Keeps { l with crew := l.crew.next (.ended w result) } observer
  rw [Crew.next_ended hphase] at hr ⊢
  refine h.of_eq hr ⟨rfl, rfl, rfl⟩ rfl rfl ⟨rfl, rfl⟩ id (fun _ _ hk => .inl hk)
    (fun k => unsettled_enter fun called hc _ => ?_) (owed_enter ?_)
  · rw [hphase] at hc
    exact hc
  · rw [hphase]
    cases hresult : Dispatcher.isRetried result <;> simp [Phase.owed, Deed.retried?, hresult]

theorem released (h : l.Keeps observer) {w : ω} (hp : l.crew.Permits (.released w)) :
    (l.next observer (.moved (.released w))).Keeps observer := by
  have hr := h.crew.next hp
  obtain ⟨call, result, hphase⟩ := hp
  have hqueue : (l.next observer (.moved (.released w))).queue = l.queue.release call.key := by
    show (l.crew.next (.released w)).dispatcher.queue = _
    rw [Crew.next_released hphase]
    exact Dispatcher.conclude_queue ..
  refine h.of_eq hr ⟨rfl, rfl, rfl⟩ ?_ ?_ ⟨rfl, rfl⟩ (fun hopen => ?_) (fun _ k hk => .inl ?_) (fun k hu => ?_)
    fun v => ?_
  · rw [hqueue]; rfl
  · rw [hqueue]; rfl
  · rw [hqueue] at hopen; exact hopen
  · rw [hqueue]; exact hk
  · show (l.crew.next (.released w)).Unsettled k
    rw [Crew.next_released hphase]
    refine unsettled_enter (fun _ hc => ?_) hu
    rw [hphase] at hc
    cases hc
  · show ∃ more, ((l.crew.next (.released w)).deeds v).filterMap _ = _ ∧ ((l.crew.next (.released w)).phase v).owed = _
    rw [Crew.next_released hphase]
    refine owed_enter ?_ v
    rw [hphase]
    rfl

section Settled

variable (w : ω) (call : Call κ) (result : Except Failure Unit)

/-- The timer of a failure is the one that its outcome calls for. -/
theorem timers_settle (h : l.Keeps observer) :
    ((l.crew.dispatcher.settle l.clock call result).queue.timers ++ l.fired.map Prod.fst).Perm
      (Outcome.schedule (⟨w, call, result, l.clock⟩ :: l.outcomes)) := by
  let o : Outcome ω κ := ⟨w, call, result, l.clock⟩
  show List.Perm _ (if o.isRetried then _ else _)
  rw [Dispatcher.settle_timers]
  by_cases hr : o.isRetried = true
  · have hdelay : backoff (l.queue.failures call.key) = retryDelay (Outcome.streak (o :: l.outcomes) call.key) := by
      rw [h.failures, backoff_min_mostFailures, backoff_eq_retryDelay, Outcome.streak_cons_self hr]
    rw [if_pos hr, if_pos (show Dispatcher.isRetried result = true from hr), hdelay]
    exact ((insertTimer_perm _ _).append_right _).trans (h.timers.cons _)
  · rw [if_neg hr, if_neg (show ¬ Dispatcher.isRetried result = true from hr)]
    exact h.timers

theorem failures_settle (h : l.Keeps observer) (k : ObjectKey) :
    (l.crew.dispatcher.settle l.clock call result).queue.failures k =
      min (Outcome.streak (⟨w, call, result, l.clock⟩ :: l.outcomes) k) mostFailures := by
  let o : Outcome ω κ := ⟨w, call, result, l.clock⟩
  show _ = min (Outcome.streak (o :: l.outcomes) k) mostFailures
  rw [Dispatcher.settle_failures]
  by_cases hk : k = call.key
  · subst hk
    rw [if_pos rfl, h.failures]
    cases hr : o.isRetried with
    | true =>
      rw [if_pos (show Dispatcher.isRetried result = true from hr),
        show Outcome.streak (o :: l.outcomes) call.key = Outcome.streak l.outcomes call.key + 1 from
          Outcome.streak_cons_self hr _]
      omega
    | false =>
      rw [if_neg (by simpa using show Dispatcher.isRetried result = false from hr), Outcome.streak_cons_self_of_not hr,
        Nat.zero_min]
  · rw [if_neg hk, Outcome.streak_cons_of_ne (Ne.symm hk)]
    exact h.failures k

/-- After a failure there is a timer for the key; for all other keys there is what there was. -/
theorem due_settle (h : l.Keeps observer) (hphase : (l.crew.phase w).unsettled? = some call)
    (hopen : l.queue.closed = false) {k : ObjectKey}
    (hk : 0 < Outcome.streak (⟨w, call, result, l.clock⟩ :: l.outcomes) k) :
    Due { l with
      crew := l.crew.enter w (.settled call result) [] (l.crew.dispatcher.settle l.clock call result) } k := by
  let o : Outcome ω κ := ⟨w, call, result, l.clock⟩
  replace hk : 0 < Outcome.streak (o :: l.outcomes) k := hk
  unfold Due
  simp only [queue, Crew.enter_dispatcher, Dispatcher.settle_dirty, Dispatcher.settle_timers]
  by_cases hkey : call.key = k
  · subst hkey
    have hr : o.isRetried = true := by
      by_contra hr
      rw [Outcome.streak_cons_self_of_not (Bool.eq_false_iff.mpr hr)] at hk
      exact Nat.lt_irrefl 0 hk
    rw [if_pos (show Dispatcher.isRetried result = true from hr)]
    exact .inr (.inl ⟨_, mem_insertTimer.mpr (.inl rfl), rfl⟩)
  · rw [Outcome.streak_cons_of_ne (o := o) hkey] at hk
    rcases h.due hopen k hk with hd | ⟨t, ht, htk⟩ | hu
    · exact .inl hd
    · refine .inr (.inl ⟨t, ?_, htk⟩)
      split
      · exact mem_insertTimer.mpr (.inr ht)
      · exact ht
    · refine .inr (.inr (unsettled_enter (fun called hc hck => ?_) hu))
      rw [hphase] at hc
      exact absurd (Option.some.inj hc ▸ hck) hkey

/-- The failure that was owed is accounted for. -/
theorem owed_settle (h : l.Keeps observer) (hphase : l.crew.phase w = .handled call result) (v : ω) :
    (((l.crew.enter w (.settled call result) [] (l.crew.dispatcher.settle l.clock call result)).deeds v).filterMap
        Deed.retried?) =
      (((⟨w, call, result, l.clock⟩ :: l.outcomes : List (Outcome ω κ)).filter fun o => o.task = v ∧ o.isRetried).map
        fun o => o.call.key).reverse ++
      ((l.crew.enter w (.settled call result) [] (l.crew.dispatcher.settle l.clock call result)).phase v).owed := by
  by_cases hv : v = w
  · subst hv
    rw [Crew.enter_deeds_self, Crew.enter_phase_self, List.append_nil, h.owed, hphase]
    cases hr : Dispatcher.isRetried result <;> simp [Phase.owed, Outcome.isRetried, hr]
  · rw [Crew.enter_deeds_of_ne hv, Crew.enter_phase_of_ne hv, h.owed]
    simp [Ne.symm hv]

end Settled

theorem settled (h : l.Keeps observer) {w : ω} {now : Nat} (hp : l.Permits (.moved (.settled w now))) :
    (l.next observer (.moved (.settled w now))).Keeps observer := by
  obtain ⟨hp, rfl⟩ := hp
  have hr := h.crew.next hp
  obtain ⟨call, result, hphase⟩ := hp
  have enext : l.next observer (.moved (.settled w l.clock)) =
      { l with
        crew := l.crew.next (.settled w l.clock)
        outcomes := ⟨w, call, result, l.clock⟩ :: l.outcomes
        metrics := l.metrics.ended observer result } := by
    simp only [Ledger.next, hphase]
  rw [enext]
  rw [Crew.next_settled hphase] at hr ⊢
  refine ⟨hr, h.timers_settle w call result, ?_, h.fired_due, h.failures_settle w call result, ?_,
    h.balanced.ended result, h.owed_settle w call result hphase⟩
  · intro t ht
    replace ht : t ∈ (l.crew.dispatcher.settle l.clock call result).queue.timers := ht
    rw [Dispatcher.settle_timers] at ht
    split at ht
    · rcases mem_insertTimer.mp ht with rfl | ht
      · exact Nat.le_add_right ..
      · exact h.clock_le t ht
    · exact h.clock_le t ht
  · intro hopen k hk
    replace hopen : l.queue.closed = false := (Dispatcher.settle_closed ..).symm.trans hopen
    exact h.due_settle w call result (by rw [hphase]; rfl) hopen hk

theorem expired (h : l.Keeps observer) {t : Timer ObjectKey} (hp : l.Permits (.moved (.expired t))) :
    (l.next observer (.moved (.expired t))).Keeps observer := by
  obtain ⟨ht, hdue⟩ := hp
  replace ht : t ∈ l.queue.timers := ht
  have htimers : (l.next observer (.moved (.expired t))).queue.timers = l.queue.timers.erase t :=
    Queue.expire_timers _ t
  refine ⟨h.crew.next (m := .expired t) ht, ?_, ?_, ?_, ?_, ?_, h.balanced, h.owed⟩
  · rw [htimers]
    exact (List.perm_middle.trans ((List.perm_cons_erase ht).symm.append_right _)).trans h.timers
  · rw [htimers]
    exact fun u hu => h.clock_le u (List.mem_of_mem_erase hu)
  · intro f hf
    rcases List.mem_cons.mp hf with rfl | hf
    · exact Nat.le_antisymm (h.clock_le t ht) hdue
    · exact h.fired_due f hf
  · intro k
    show (l.queue.expire t).failures k = _
    rw [Queue.expire_failures]
    exact h.failures k
  · intro hopen k hk
    replace hopen : l.queue.closed = false := (Queue.expire_closed l.queue t).symm.trans hopen
    have hdirty : ∀ k, k ∈ (l.next observer (.moved (.expired t))).queue.dirty ↔ k = t.key ∨ k ∈ l.queue.dirty :=
      Queue.mem_dirty_expire hopen t
    rcases h.due hopen k hk with hd | ⟨u, hu, hkey⟩ | hu
    · exact .inl ((hdirty k).mpr (.inr hd))
    · by_cases hut : u = t
      · exact .inl ((hdirty k).mpr (.inl (hut ▸ hkey.symm)))
      · refine .inr (.inl ⟨u, ?_, hkey⟩)
        rw [htimers]
        exact (List.mem_erase_of_ne hut).mpr hu
    · exact .inr (.inr hu)

theorem elapsed (h : l.Keeps observer) (hp : l.Permits .elapsed) : (l.next observer .elapsed).Keeps observer :=
  ⟨h.crew, h.timers, hp, h.fired_due, h.failures, h.due, h.balanced, h.owed⟩

theorem noticed (h : l.Keeps observer) (e : WatchEvent κ) :
    (l.next observer (.moved (.noticed e))).Keeps observer := by
  obtain ⟨keys, hq⟩ := l.crew.dispatcher.notify_queue_eq_foldl e
  have hqueue : (l.next observer (.moved (.noticed e))).queue = keys.foldl Queue.add l.queue := hq
  refine h.of_eq (h.crew.next (m := .noticed e) trivial) ⟨rfl, rfl, rfl⟩ ?_ ?_ ⟨rfl, rfl⟩ (fun hopen => ?_)
    (fun hopen k hk => .inl ?_) (fun _ hu => hu) fun w => ⟨[], by simp [Ledger.next, Crew.next]⟩
  · rw [hqueue, Queue.foldl_add_timers]
  · rw [hqueue, Queue.foldl_add_failures]
  · rw [hqueue, Queue.foldl_add_closed] at hopen
    exact hopen
  · rw [hqueue, Queue.mem_dirty_foldl_add hopen]
    exact .inr hk

/-- **Every move keeps the ledger.** -/
theorem next (h : l.Keeps observer) {m : Move ω κ} (hp : l.Permits m) : (l.next observer m).Keeps observer := by
  cases m with
  | elapsed => exact h.elapsed hp
  | moved m =>
    cases m with
    | took w => exact h.took hp.1
    | ended w result => exact h.ended hp.1
    | settled w now => exact h.settled hp
    | released w => exact h.released hp.1
    | noticed e => exact h.noticed e
    | cached cache =>
      exact ⟨h.crew.next (m := .cached cache) trivial, h.timers, h.clock_le, h.fired_due, h.failures, h.due, h.balanced,
        h.owed⟩
    | expired t => exact h.expired hp
    | closed =>
      exact ⟨h.crew.next (m := .closed) trivial, h.timers, h.clock_le, h.fired_due, h.failures, nofun, h.balanced, h.owed⟩

end Keeps

theorem Reached.keeps {observer : String} {l : Ledger ω κ} (h : Reached observer l) : l.Keeps observer := by
  induction h with
  | start => exact .start
  | next _ hp ih => exact ih.next hp

/-! ### The law -/

end Ledger

end FleetAtlas
