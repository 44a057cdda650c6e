import FleetAtlas.Fleet.Basic
import FleetAtlas.Proofs.Dispatcher.Events

/-!
# When the cleanup makes its passes

* `dueTime r period k`: when the `k`-th pass is due, counted from 0, with the pods cached at `r`;
* `Fleet.passOnce`: a pass of any cleanup, ending with any result; `Fleet.sweepOnce` is the one that sweeps;
* `Fleet.Beside f g`: what else happens to a fleet in between leaves the cleaners, the clock and the flag alone;
* `Rounds`: a fleet with one cleaner, when its pods were cached, when it was shut down, when its cleaner ended, and the
  passes so far; time does not pass over a pass that is due, nor before a cleaner is told that the pods are cached;
* `Rounds.Keeps`: what holds all the while, by what the cleaner waits for;
* `Rounds.Keeps.leads_advance`: `Fleet.advance` lets time pass in such moves, and its bound on the passes leaves none out;
* `Rounds.Schedule`, `Rounds.Leads.keeps_schedule`: **each pass is made at its time, and no other one is made**.
-/

namespace FleetAtlas

/-- When the `k`-th pass is due, counted from 0: the delay of the first pass after the time at which the pods were cached,
and `k` periods later. -/
def dueTime (ready period k : Nat) : Nat := ready + firstPassDelay + k * period

theorem dueTime_zero (ready period : Nat) : dueTime ready period 0 = ready + firstPassDelay := by simp [dueTime]

theorem le_dueTime (ready period k : Nat) : ready ≤ dueTime ready period k :=
  Nat.le_trans (Nat.le_add_right ..) (Nat.le_add_right ..)

theorem dueTime_succ (ready period k : Nat) : dueTime ready period (k + 1) = dueTime ready period k + period := by
  unfold dueTime
  rw [Nat.add_mul, Nat.one_mul, Nat.add_assoc _ _ period]

theorem dueTime_mono (ready period : Nat) {k l : Nat} (h : k ≤ l) : dueTime ready period k ≤ dueTime ready period l :=
  Nat.add_le_add_left (Nat.mul_le_mul_right period h) _

theorem Metrics.sweeps_ended (m : Metrics) (observer : String) (result : Except Failure Unit) :
    (m.ended observer result).sweeps = m.sweeps := by
  unfold ended
  split
  · rfl
  · rfl
  · split <;> rfl

/-- No task changes the flag that asks tasks to end or counts a pass. -/
theorem Task.run_site {α : Type} (cached : List Pod) (t : Task α) (s : Site) :
    (t.run cached s).2.stopping = s.stopping ∧ (t.run cached s).2.metrics.sweeps = s.metrics.sweeps := by
  induction t generalizing s with
  | done | fail => exact ⟨rfl, rfl⟩
  | set f r next ih =>
    rw [run]
    split
    · exact ih _
    · exact ⟨rfl, rfl⟩
  | get f uid next ih =>
    rw [run]
    split
    · exact ih _ _
    · exact ⟨rfl, rfl⟩
  | list f selection next ih =>
    rw [run]
    split
    · exact ih _ _
    · exact ⟨rfl, rfl⟩
  | now next ih => exact ih _ s.tick
  | pods next ih => exact ih _ s
  | stopping next ih => exact ih _ s
  | counted next ih => exact ih { s with metrics := s.metrics.countStopped 1 }

namespace Fleet

/-! ### Passes -/

/-- What a pass of a cleanup ends with, and the fleet at its end. -/
def pass (f : Fleet) (t : Task Unit) : Except Failure Unit × Fleet := (f.count Metrics.countSweep).perform t

/-- A pass of a cleanup, which the cleaner makes that is the first of those whose pass is due at a time. -/
def passOnce (f : Fleet) (t : Task Unit) (due : Nat) : Fleet :=
  let (result, f) := f.pass t
  let f := { f with cleaners := Cleaner.passFirst f.cleaners due f.now result }
  match result with
  | .ok () =>
    { f with site := f.site.tick, diagnostics := { f.diagnostics with lastCleanup := some f.site.time } }
  | .error _ => f

theorem sweepOnce_eq_passOnce (f : Fleet) (due : Nat) : f.sweepOnce due = f.passOnce sweep due := rfl

/-- **What a pass changes**: it is counted, its time is noted if it ends well, and the cleaner is told its result. -/
theorem passOnce_spec (f : Fleet) (t : Task Unit) (due : Nat) : ∃ site diagnostics,
    f.passOnce t due =
      { f with site, diagnostics, cleaners := Cleaner.passFirst f.cleaners due f.now (f.pass t).1 } ∧
    site.stopping = f.site.stopping ∧ site.metrics.sweeps = f.site.metrics.sweeps + 1 ∧
    diagnostics.lastCleanup =
      if (f.pass t).1.isOk then some (f.pass t).2.site.time else f.diagnostics.lastCleanup := by
  obtain ⟨hstopping, hsweeps⟩ := t.run_site f.podCache.list (f.count Metrics.countSweep).site
  cases h : (f.pass t).1 with
  | ok u =>
    refine ⟨(f.pass t).2.site.tick, { f.diagnostics with lastCleanup := some (f.pass t).2.site.time }, ?_, hstopping,
      hsweeps, rfl⟩
    unfold passOnce
    rw [show f.pass t = (.ok u, (f.pass t).2) from Prod.ext h rfl]
    rfl
  | error e =>
    refine ⟨(f.pass t).2.site, f.diagnostics, ?_, hstopping, hsweeps, rfl⟩
    unfold passOnce
    rw [show f.pass t = (.error e, (f.pass t).2) from Prod.ext h rfl]
    rfl

theorem passOnce_now (f : Fleet) (t : Task Unit) (due : Nat) : (f.passOnce t due).now = f.now := by
  obtain ⟨_, _, e, -⟩ := f.passOnce_spec t due
  rw [e]

/-! ### What happens in between -/

/-- The pods stay cached, and clock, cleaners and flag are as they were, and so are the traces of the passes. -/
structure Beside (f g : Fleet) : Prop where
  now : g.now = f.now
  cleaners : g.cleaners = f.cleaners
  stopping : g.site.stopping = f.site.stopping
  ready : f.podCache.ready = true → g.podCache.ready = true
  sweeps : g.site.metrics.sweeps = f.site.metrics.sweeps
  lastCleanup : g.diagnostics.lastCleanup = f.diagnostics.lastCleanup

theorem Beside.trans {f g h : Fleet} (hg : Beside f g) (hh : Beside g h) : Beside f h where
  now := hh.now.trans hg.now
  cleaners := hh.cleaners.trans hg.cleaners
  stopping := hh.stopping.trans hg.stopping
  ready hr := hh.ready (hg.ready hr)
  sweeps := hh.sweeps.trans hg.sweeps
  lastCleanup := hh.lastCleanup.trans hg.lastCleanup

theorem beside_withDispatcher (f : Fleet) {k : Observed} {d : Dispatcher k.Object}
    (h : (f.dispatcher k).cache.ready = true → d.cache.ready = true) : Beside f (f.withDispatcher k d) := by
  refine ⟨rfl, rfl, rfl, fun hr => ?_, rfl, rfl⟩
  unfold podCache at hr ⊢
  by_cases hk : k = .pods
  · subst hk
    rw [dispatcher_withDispatcher_self]
    exact h hr
  · rw [dispatcher_withDispatcher_of_ne f (Ne.symm hk)]
    exact hr

theorem beside_count (f : Fleet) {change : Metrics → Metrics}
    (h : (change f.site.metrics).sweeps = f.site.metrics.sweeps) : Beside f (f.count change) :=
  ⟨rfl, rfl, rfl, id, h, rfl⟩

section Calls

variable (f : Fleet) {k : Observed} (call : Call k.Object)

theorem beside_observe (e : WatchEvent k.Object) : Beside f (f.observe k e) := by
  refine f.beside_withDispatcher fun h => ?_
  rw [Dispatcher.observe_cache]
  cases e with
  | initDone => rfl
  | init | initApply | apply | delete => exact h

theorem beside_begin? {f f' : Fleet} (h : f.begin? k = some (call, f')) : Beside f f' := by
  unfold begin? at h
  split at h
  · exact nomatch h
  · next begun d hd =>
    obtain ⟨rfl, rfl⟩ := Prod.mk.inj (Option.some.inj h)
    obtain ⟨-, -, -, e⟩ := Dispatcher.begin?_cases hd
    have hcache : d.cache = (f.dispatcher k).cache := by rw [e]
    exact (f.beside_withDispatcher fun hr => hcache ▸ hr).trans (beside_count _ rfl)

theorem beside_answer : Beside f (f.answer k call).2 :=
  have hrun := (f.task k call).run_site f.podCache.list f.site
  ⟨rfl, rfl, hrun.1, id, hrun.2, rfl⟩

theorem beside_finish (result : Except Failure Unit) : Beside f (f.finish k call result) := by
  have hd : Beside f (f.withDispatcher k ((f.dispatcher k).finish f.now call result)) :=
    f.beside_withDispatcher fun hr => by rw [Dispatcher.finish_cache]; exact hr
  have hcount : Beside f ((f.withDispatcher k _).count fun m => m.ended k.name result) :=
    hd.trans (beside_count _ (Metrics.sweeps_ended _ k.name result))
  cases result with
  | ok => exact hcount.trans ⟨rfl, rfl, rfl, id, rfl, rfl⟩
  | error => exact hcount

end Calls

@[simp] theorem podCache_moveTo (f : Fleet) (time : Nat) : (f.moveTo time).podCache = f.podCache := by
  show ((f.dispatchers.map fun _ d => d.advance time).get .pods).cache = _
  rw [ByKind.get_map]
  rfl

/-- No cleaner waits for pods that are cached. -/
def Told (f : Fleet) : Prop := f.podCache.ready = true → ∀ c ∈ f.cleaners, c.phase ≠ .waiting

instance (f : Fleet) : Decidable f.Told := by unfold Told; infer_instance

theorem mem_sweepTimes {f : Fleet} {period : Nat} {phase : CleanerPhase} (hc : f.cleaners = [⟨period, phase⟩])
    {time : Nat} : time ∈ f.sweepTimes ↔ phase = .due time := by
  rw [sweepTimes, hc]
  cases phase <;> simp [Cleaner.due?, eq_comm]

/-- One cleaner is told if it waits and the pods are cached. -/
theorem settle_cases {f : Fleet} {period : Nat} {phase : CleanerPhase} (hc : f.cleaners = [⟨period, phase⟩]) :
    (f.podCache.ready = true ∧ phase = .waiting ∧
      f.settle = { f with cleaners := [⟨period, .due (f.now + firstPassDelay)⟩] }) ∨
    ((f.podCache.ready = true → phase ≠ .waiting) ∧ f.settle = f) := by
  by_cases hr : f.podCache.ready = true
  · have htell : Cleaner.tell f.now f.cleaners = [Cleaner.podsReady ⟨period, phase⟩ f.now] := by
      rw [hc]
      simp [Cleaner.tell]
    rw [settle, if_pos hr, htell]
    cases phase with
    | waiting => exact .inl ⟨hr, rfl, rfl⟩
    | overlooked | due | finished =>
      exact .inr ⟨fun _ => nofun, congrArg (fun cleaners => { f with cleaners }) hc.symm⟩
  · exact .inr ⟨fun h => absurd h hr, if_neg hr⟩

theorem settle_now (f : Fleet) : f.settle.now = f.now := by
  unfold settle
  split <;> rfl

theorem told_settle {f : Fleet} {period : Nat} {phase : CleanerPhase} (hc : f.cleaners = [⟨period, phase⟩]) :
    f.settle.Told := by
  rcases settle_cases hc with ⟨-, -, e⟩ | ⟨hphase, e⟩ <;> rw [e]
  · intro _ c hc
    rw [List.mem_singleton.mp hc]
    nofun
  · intro hr c hmem
    rw [hc] at hmem
    rw [List.mem_singleton.mp hmem]
    exact hphase hr

theorem sweepUntil_of_lt {f : Fleet} {time : Nat} (h : ∀ due ∈ f.sweepTimes, time < due) (n : Nat) :
    f.sweepUntil time n = f := by
  cases n with
  | zero => rfl
  | succ n =>
    rw [sweepUntil]
    split
    · rfl
    · next due hmin => exact if_neg (Nat.not_le.mpr (h due (List.min?_mem hmin)))

theorem sweepUntil_of_le {f : Fleet} {period due time : Nat} (hc : f.cleaners = [⟨period, .due due⟩]) (hle : due ≤ time)
    (n : Nat) : f.sweepUntil time (n + 1) = ((f.moveTo (max f.now due)).sweepOnce due).sweepUntil time n := by
  have hmin : f.sweepTimes.min? = some due := by
    rw [sweepTimes, hc]
    rfl
  rw [sweepUntil, hmin]
  exact if_pos hle

end Fleet

/-! ### Rounds -/

/-- A pass: when it was made, what it ended with, and what the clock of the site showed at its end. -/
structure Round where
  time : Nat
  result : Except Failure Unit
  reading : Timestamp

/-- The pass was cancelled. -/
def Round.isCancelled (p : Round) : Bool :=
  match p.result with
  | .error .cancelled => true
  | _ => false

/-- What the clock showed at the end of the last pass that ended well. -/
def lastReading (passes : List Round) : Option Timestamp :=
  (passes.filter fun p => p.result.isOk).getLast?.map Round.reading

theorem lastReading_append (passes : List Round) (p : Round) :
    lastReading (passes ++ [p]) = if p.result.isOk then some p.reading else lastReading passes := by
  cases h : p.result.isOk <;> simp [lastReading, h]

/-- After a cancelled pass there is none, after any other one there is one a period later. -/
theorem Cleaner.passed_eq (c : Cleaner) (now : Nat) (p : Round) :
    c.passed now p.result = { c with phase := if p.isCancelled then .finished else .due (now + c.period) } := by
  obtain ⟨time, result, reading⟩ := p
  rcases result with e | u
  · cases e <;> rfl
  · rfl

/-- A fleet with a cleaner; the first times at which the pods were cached, the fleet was shut down and the cleaner had
ended; and the passes, from the first one on. -/
@[ext]
structure Rounds where
  fleet : Fleet
  ready : Option Nat
  stopped : Option Nat
  ended : Option Nat
  passes : List Round

/-- The first time that something was seen, with what is to be seen now. -/
def firstTime (seen : Option Nat) (holds : Bool) (now : Nat) : Option Nat :=
  match seen with
  | some time => some time
  | none => if holds then some now else none

theorem isSome_firstTime {seen : Option Nat} {holds : Bool} (h : seen.isSome = true → holds = true) (now : Nat) :
    (firstTime seen holds now).isSome = holds := by
  cases seen with
  | some => exact (h rfl).symm
  | none => cases holds <;> rfl

theorem firstTime_eq_self {seen : Option Nat} {holds : Bool} (h : holds = true → seen.isSome = true) (now : Nat) :
    firstTime seen holds now = seen := by
  cases seen with
  | some => rfl
  | none =>
    cases holds with
    | false => rfl
    | true => exact nomatch h rfl

theorem firstTime_eq_some {seen : Option Nat} {holds : Bool} {now time : Nat}
    (h : firstTime seen holds now = some time) : seen = some time ∨ (seen = none ∧ time = now) := by
  cases seen with
  | some => exact .inl h
  | none =>
    cases holds with
    | false => exact nomatch h
    | true => exact .inr ⟨rfl, (Option.some.inj h).symm⟩

namespace Rounds

/-- The fleet has become another one; what has come about with it is noted. -/
def see (v : Rounds) (f : Fleet) : Rounds :=
  { v with
    fleet := f
    ready := firstTime v.ready f.podCache.ready f.now
    stopped := firstTime v.stopped f.site.stopping f.now
    ended := firstTime v.ended (f.cleaners.all Cleaner.isFinished) f.now }

/-- A cleaner is started in a fleet. -/
def start (f : Fleet) (period : Nat) : Rounds := see ⟨f, none, none, none, []⟩ (f.startCleaner period)

section See

variable (v : Rounds) (f : Fleet)

@[simp] theorem see_fleet : (v.see f).fleet = f := rfl
@[simp] theorem see_passes : (v.see f).passes = v.passes := rfl
theorem see_ready : (v.see f).ready = firstTime v.ready f.podCache.ready f.now := rfl
theorem see_stopped : (v.see f).stopped = firstTime v.stopped f.site.stopping f.now := rfl
theorem see_ended : (v.see f).ended = firstTime v.ended (f.cleaners.all Cleaner.isFinished) f.now := rfl

end See

/-- Time passes, the cleaner is told that the pods are cached, a pass is made, the fleet is shut down, or something else
happens. -/
inductive Move where
  | elapsed (time : Nat)
  | told
  | passed (t : Task Unit)
  | shutDown
  | beside (g : Fleet)

/-- The moves that are possible: a pass is made when it is due, and no time passes before it has been made, or before the
cleaner knows that the pods are cached. -/
def Permits (v : Rounds) : Move → Prop
  | .elapsed time => v.fleet.now ≤ time ∧ (∀ due ∈ v.fleet.sweepTimes, time ≤ due) ∧ v.fleet.Told
  | .passed _ => v.fleet.now ∈ v.fleet.sweepTimes
  | .told | .shutDown => True
  | .beside g => v.fleet.Beside g

/-- What is noted of a pass. -/
def newRound (v : Rounds) (t : Task Unit) : Round :=
  ⟨v.fleet.now, (v.fleet.pass t).1, (v.fleet.pass t).2.site.time⟩

/-- What a move changes. -/
def next (v : Rounds) : Move → Rounds
  | .elapsed time => v.see (v.fleet.moveTo time)
  | .told => v.see v.fleet.settle
  | .passed t => { v with passes := v.passes ++ [v.newRound t] }.see (v.fleet.passOnce t v.fleet.now)
  | .shutDown => v.see v.fleet.shutdown
  | .beside g => v.see g

/-- **What comes about** after a state. -/
inductive Leads (u : Rounds) : Rounds → Prop
  | refl : Leads u u
  | next {v : Rounds} {m : Move} : Leads u v → v.Permits m → Leads u (v.next m)

/-- The moves may come one after the other. -/
def Follows : Rounds → List Move → Prop
  | _, [] => True
  | v, m :: ms => v.Permits m ∧ Follows (v.next m) ms

theorem Leads.follow {u v : Rounds} (h : u.Leads v) {ms : List Move} (hm : v.Follows ms) :
    u.Leads (ms.foldl Rounds.next v) := by
  induction ms generalizing v with
  | nil => exact h
  | cons m ms ih => exact ih (h.next hm.1) hm.2

/-! ### The invariant -/

/-- No pass was cancelled. -/
def Uncancelled (passes : List Round) : Prop := ∀ p ∈ passes, p.isCancelled = false

/-- What has come about, by what the cleaner waits for. -/
def Stands (v : Rounds) (period : Nat) : CleanerPhase → Prop
  | .waiting => v.passes = [] ∧ v.stopped = none ∧ v.ended = none ∧ ∀ r, v.ready = some r → r = v.fleet.now
  | .overlooked => False
  | .due time => (∃ r, v.ready = some r ∧ time = dueTime r period v.passes.length) ∧ v.fleet.now ≤ time ∧
    v.stopped = none ∧ v.ended = none ∧ Uncancelled v.passes
  | .finished =>
    (∃ s, v.stopped = some s ∧ v.ended = some s ∧ Uncancelled v.passes ∧
      ∀ r, v.ready = some r → s ≤ dueTime r period v.passes.length) ∨
    ∃ earlier last, v.passes = earlier ++ [last] ∧ Uncancelled earlier ∧ last.isCancelled = true ∧
      v.ended = some last.time

/-- **What holds all the while**, from a fleet on in which a cleaner with a period was started. -/
structure Keeps (f : Fleet) (period : Nat) (v : Rounds) : Prop where
  phase : ∃ phase, v.fleet.cleaners = [⟨period, phase⟩] ∧ v.Stands period phase
  ready : v.ready.isSome = v.fleet.podCache.ready
  stopped : v.stopped.isSome = v.fleet.site.stopping
  stopped_le : ∀ s, v.stopped = some s → s ≤ v.fleet.now
  made : ∀ p ∈ v.passes, p.time ≤ v.fleet.now ∧ ∀ s, v.stopped = some s → p.time ≤ s
  on_time : ∀ k p, v.passes[k]? = some p → ∃ r, v.ready = some r ∧ p.time = dueTime r period k
  sweeps : v.fleet.site.metrics.sweeps = f.site.metrics.sweeps + v.passes.length
  lastCleanup : v.fleet.diagnostics.lastCleanup = (lastReading v.passes <|> f.diagnostics.lastCleanup)

namespace Keeps

variable {f : Fleet} {period : Nat} {v : Rounds}

theorem start (hf : f.cleaners = []) : (start f period).Keeps f period := by
  have hcleaners : (f.startCleaner period).cleaners = [.start period f.site.stopping] := by
    rw [Fleet.startCleaner, hf]
    rfl
  have hpasses : (Rounds.start f period).passes = [] := rfl
  have hready : (Rounds.start f period).ready = firstTime none f.podCache.ready f.now := rfl
  have hstopped : (Rounds.start f period).stopped = firstTime none f.site.stopping f.now := rfl
  have hended : (Rounds.start f period).ended = firstTime none f.site.stopping f.now := by
    show firstTime none ((f.startCleaner period).cleaners.all _) f.now = _
    rw [hcleaners]
    cases f.site.stopping <;> rfl
  have hnow : ∀ r, (Rounds.start f period).ready = some r → r = f.now := fun r hr =>
    ((firstTime_eq_some (hready.symm.trans hr)).resolve_left nofun).2
  refine ⟨⟨_, hcleaners, ?_⟩, ?_, ?_, fun s hs => ?_, by simp [hpasses], by simp [hpasses], rfl, rfl⟩
  · cases hs : f.site.stopping with
    | false => exact ⟨hpasses, by rw [hstopped, hs]; rfl, by rw [hended, hs]; rfl, hnow⟩
    | true =>
      refine .inl ⟨f.now, by rw [hstopped, hs]; rfl, by rw [hended, hs]; rfl, by simp [Uncancelled, hpasses],
        fun r hr => ?_⟩
      rw [hnow r hr]
      exact le_dueTime ..
  · rw [hready]
    exact isSome_firstTime (by nofun) _
  · rw [hstopped]
    exact isSome_firstTime (by nofun) _
  · exact Nat.le_of_eq ((firstTime_eq_some (hstopped.symm.trans hs)).resolve_left nofun).2

/-- What is seen of a fleet that changes otherwise than by a pass is kept if the cleaner stands as it has to. -/
theorem see (h : v.Keeps f period) {g : Fleet} (hnow : v.fleet.now ≤ g.now)
    (hready : v.fleet.podCache.ready = true → g.podCache.ready = true)
    (hstopping : v.fleet.site.stopping = true → g.site.stopping = true)
    (hsweeps : g.site.metrics.sweeps = v.fleet.site.metrics.sweeps)
    (hlast : g.diagnostics.lastCleanup = v.fleet.diagnostics.lastCleanup)
    (hphase : ∃ phase, g.cleaners = [⟨period, phase⟩] ∧ (v.see g).Stands period phase) : (v.see g).Keeps f period where
  phase := hphase
  ready := isSome_firstTime (fun hr => hready (h.ready.symm.trans hr)) _
  stopped := isSome_firstTime (fun hs => hstopping (h.stopped.symm.trans hs)) _
  stopped_le s hs := (firstTime_eq_some hs).elim (fun hs => Nat.le_trans (h.stopped_le s hs) hnow)
    fun hs => Nat.le_of_eq hs.2
  made p hp := by
    obtain ⟨hle, hbefore⟩ := h.made p hp
    refine ⟨Nat.le_trans hle hnow, fun s hs => ?_⟩
    rcases firstTime_eq_some hs with hs | ⟨-, rfl⟩
    · exact hbefore s hs
    · exact Nat.le_trans hle hnow
  on_time k p hk := by
    obtain ⟨r, hr, ht⟩ := h.on_time k p hk
    exact ⟨r, by rw [see_ready, hr]; rfl, ht⟩
  sweeps := hsweeps.trans h.sweeps
  lastCleanup := hlast.trans h.lastCleanup

section Same

variable {g : Fleet}

/-- Pods that are as they were are cached since when they were. -/
theorem see_ready_eq (h : v.Keeps f period) (hg : g.podCache.ready = v.fleet.podCache.ready) :
    (v.see g).ready = v.ready := by
  rw [see_ready, hg]
  exact firstTime_eq_self (fun hr => h.ready.trans hr) _

theorem see_stopped_eq (h : v.Keeps f period) (hg : g.site.stopping = v.fleet.site.stopping) :
    (v.see g).stopped = v.stopped := by
  rw [see_stopped, hg]
  exact firstTime_eq_self (fun hs => h.stopped.trans hs) _

theorem see_ended_eq (h : v.Keeps f period) (hg : g.cleaners = v.fleet.cleaners) : (v.see g).ended = v.ended := by
  obtain ⟨phase, hc, hs⟩ := h.phase
  rw [see_ended, hg, hc]
  refine firstTime_eq_self (fun hf => ?_) _
  cases phase with
  | finished =>
    obtain ⟨s, -, he, -⟩ | ⟨_, _, -, -, -, he⟩ := hs <;> rw [he] <;> rfl
  | waiting | overlooked | due => exact nomatch hf

end Same

/-! ### What each move keeps -/

theorem elapsed (h : v.Keeps f period) {time : Nat} (hp : v.Permits (.elapsed time)) :
    (v.next (.elapsed time)).Keeps f period := by
  obtain ⟨hnow, hdue, htold⟩ := hp
  obtain ⟨phase, hc, hs⟩ := h.phase
  have hcache : (v.fleet.moveTo time).podCache.ready = v.fleet.podCache.ready := by rw [Fleet.podCache_moveTo]
  have hready := h.see_ready_eq hcache
  have hstopped : (v.see (v.fleet.moveTo time)).stopped = v.stopped := h.see_stopped_eq rfl
  have hended : (v.see (v.fleet.moveTo time)).ended = v.ended := h.see_ended_eq rfl
  refine h.see hnow (fun hr => hcache.trans hr) id rfl rfl ⟨phase, hc, ?_⟩
  cases phase with
  | waiting =>
    -- the cleaner would have been told
    have hcold : v.ready = none := Option.not_isSome_iff_eq_none.mp fun hr =>
      htold (h.ready.symm.trans hr) _ (hc ▸ List.mem_singleton_self _) rfl
    refine ⟨hs.1, hstopped.trans hs.2.1, hended.trans hs.2.2.1, fun r hr => ?_⟩
    rw [hready, hcold] at hr
    exact nomatch hr
  | overlooked => exact hs.elim
  | due next =>
    obtain ⟨hd, -, hrest⟩ := hs
    exact ⟨by rw [hready]; exact hd, hdue next ((Fleet.mem_sweepTimes hc).mpr rfl),
      by rw [hstopped, hended]; exact hrest⟩
  | finished =>
    simp only [Stands, hready, hstopped, hended]
    exact hs

theorem beside (h : v.Keeps f period) {g : Fleet} (hp : v.Permits (.beside g)) :
    (v.next (.beside g)).Keeps f period := by
  obtain ⟨phase, hc, hs⟩ := h.phase
  have hstopped := h.see_stopped_eq hp.stopping
  have hended := h.see_ended_eq hp.cleaners
  have hready : ∀ r, (v.see g).ready = some r → v.ready = some r ∨ r = v.fleet.now := fun r hr =>
    (firstTime_eq_some hr).imp_right fun hr => hr.2.trans hp.now
  refine h.see (Nat.le_of_eq hp.now.symm) hp.ready (fun hs => hp.stopping.trans hs) hp.sweeps hp.lastCleanup
    ⟨phase, hp.cleaners.trans hc, ?_⟩
  cases phase with
  | waiting =>
    refine ⟨hs.1, hstopped.trans hs.2.1, hended.trans hs.2.2.1, fun r hr => ?_⟩
    rw [see_fleet, hp.now]
    exact (hready r hr).elim (hs.2.2.2 r) id
  | overlooked => exact hs.elim
  | due next =>
    obtain ⟨⟨r, hr, hd⟩, hle, hrest⟩ := hs
    refine ⟨⟨r, by rw [see_ready, hr]; rfl, hd⟩, ?_, by rw [hstopped, hended]; exact hrest⟩
    rw [see_fleet, hp.now]
    exact hle
  | finished =>
    simp only [Stands, hstopped, hended]
    refine hs.imp_left fun ⟨s, hs, he, hu, hlast⟩ => ⟨s, hs, he, hu, fun r hr => ?_⟩
    rcases hready r hr with hr | rfl
    · exact hlast r hr
    · exact Nat.le_trans (h.stopped_le s hs) (le_dueTime ..)

theorem shutDown (h : v.Keeps f period) : (v.next .shutDown).Keeps f period := by
  obtain ⟨phase, hc, hs⟩ := h.phase
  have hready : (v.see v.fleet.shutdown).ready = v.ready := h.see_ready_eq rfl
  have hcleaners : v.fleet.shutdown.cleaners = [⟨period, .finished⟩] := by
    rw [Fleet.shutdown, hc]
    rfl
  have hstopped : (v.see v.fleet.shutdown).stopped = firstTime v.stopped true v.fleet.now := rfl
  have hended : (v.see v.fleet.shutdown).ended = firstTime v.ended true v.fleet.now := by
    rw [see_ended, hcleaners]
    rfl
  refine h.see (Nat.le_refl _) id (fun _ => rfl) rfl rfl ⟨_, hcleaners, ?_⟩
  simp only [Stands, hready, hstopped, hended]
  cases phase with
  | waiting =>
    obtain ⟨hp, hns, hne, hr⟩ := hs
    refine .inl ⟨v.fleet.now, by rw [hns]; rfl, by rw [hne]; rfl, by simp [Uncancelled, hp], fun r hv => ?_⟩
    rw [← hr r hv]
    exact le_dueTime ..
  | overlooked => exact hs.elim
  | due next =>
    obtain ⟨⟨r, hr, rfl⟩, hle, hns, hne, hu⟩ := hs
    refine .inl ⟨v.fleet.now, by rw [hns]; rfl, by rw [hne]; rfl, hu, fun r' hv => ?_⟩
    obtain rfl : r = r' := Option.some.inj (hr.symm.trans hv)
    exact hle
  | finished =>
    obtain ⟨s, hst, he, hrest⟩ | ⟨earlier, last, hp, hu, hl, he⟩ := hs
    · exact .inl ⟨s, by rw [hst]; rfl, by rw [he]; rfl, hrest⟩
    · exact .inr ⟨earlier, last, hp, hu, hl, by rw [he]; rfl⟩

/-- Nothing is seen of a fleet that does not change. -/
theorem see_self (h : v.Keeps f period) : v.see v.fleet = v :=
  Rounds.ext rfl (h.see_ready_eq rfl) (h.see_stopped_eq rfl) (h.see_ended_eq rfl) rfl

theorem told (h : v.Keeps f period) : (v.next .told).Keeps f period := by
  obtain ⟨phase, hc, hs⟩ := h.phase
  show (v.see v.fleet.settle).Keeps f period
  rcases Fleet.settle_cases hc with ⟨hcached, rfl, e⟩ | ⟨-, e⟩ <;> rw [e]
  · obtain ⟨hp, hns, hne, hr⟩ := hs
    obtain ⟨r, hv⟩ := Option.isSome_iff_exists.mp (h.ready.trans hcached)
    obtain rfl := hr r hv
    refine h.see (Nat.le_refl _) id id rfl rfl ⟨_, rfl, ⟨v.fleet.now, ?_, ?_⟩, Nat.le_add_right .., ?_, ?_, ?_⟩
    · rw [see_ready, hv]
      rfl
    · rw [see_passes, hp]
      exact (dueTime_zero ..).symm
    · exact (h.see_stopped_eq rfl).trans hns
    · rw [see_ended, hne]
      rfl
    · rw [see_passes, hp]
      exact fun _ hp => nomatch hp
  · rw [h.see_self]
    exact h

section Passed

variable {t : Task Unit}

/-- The pass that is made has the number of those before it. -/
theorem on_time_passed (h : v.Keeps f period) {r : Nat} (hr : v.ready = some r)
    (hdue : v.fleet.now = dueTime r period v.passes.length) {k : Nat} {p : Round}
    (hk : (v.passes ++ [v.newRound t])[k]? = some p) : v.ready = some r ∧ p.time = dueTime r period k := by
  refine ⟨hr, ?_⟩
  by_cases hlt : k < v.passes.length
  · rw [List.getElem?_append_left hlt] at hk
    obtain ⟨r', hr', htime⟩ := h.on_time k p hk
    rw [htime, Option.some.inj (hr.symm.trans hr')]
  · have hle := List.getElem?_eq_some_iff.mp hk |>.1
    rw [List.length_append, List.length_singleton] at hle
    obtain rfl : k = v.passes.length := by omega
    rw [List.getElem?_append_right (Nat.le_refl _), Nat.sub_self] at hk
    rw [← Option.some.inj hk]
    exact hdue

theorem passed (h : v.Keeps f period) (hp : v.Permits (.passed t)) : (v.next (.passed t)).Keeps f period := by
  obtain ⟨phase, hc, hs⟩ := h.phase
  obtain rfl := (Fleet.mem_sweepTimes hc).mp hp
  obtain ⟨⟨r, hr, hdue⟩, -, hns, hne, hu⟩ := hs
  obtain ⟨site, diagnostics, e, hstopping, hsweeps, hlast⟩ := v.fleet.passOnce_spec t v.fleet.now
  have hcleaners : Cleaner.passFirst v.fleet.cleaners v.fleet.now v.fleet.now (v.fleet.pass t).1 =
      [⟨period, if (v.newRound t).isCancelled then .finished else .due (v.fleet.now + period)⟩] := by
    rw [hc]
    exact (if_pos rfl).trans (congrArg (fun c => [c]) (Cleaner.passed_eq _ _ (v.newRound t)))
  rw [hcleaners] at e
  have hready : v.ready.isSome = true → v.fleet.podCache.ready = true := fun hr => h.ready.symm.trans hr
  have hstopped : firstTime v.stopped site.stopping v.fleet.now = none := by
    rw [hstopping]
    exact (h.see_stopped_eq (g := v.fleet) rfl).trans hns
  show Keeps f period (Rounds.see { v with passes := v.passes ++ [v.newRound t] } (v.fleet.passOnce t v.fleet.now))
  rw [e]
  refine ⟨⟨_, rfl, ?_⟩, isSome_firstTime hready _, ?_, fun s hs => ?_, fun p hp => ?_, fun k p hk => ?_, ?_, ?_⟩
  · cases hp : (v.newRound t).isCancelled with
    | true =>
      refine .inr ⟨v.passes, v.newRound t, rfl, hu, hp, ?_⟩
      rw [see_ended, hne]
      rfl
    | false =>
      refine ⟨⟨r, ?_, ?_⟩, Nat.le_add_right .., hstopped, ?_, fun p hmem => ?_⟩
      · rw [see_ready, hr]
        rfl
      · rw [see_passes, List.length_append, List.length_singleton, dueTime_succ, ← hdue]
      · rw [see_ended, hne]
        rfl
      · rcases List.mem_append.mp hmem with hmem | hmem
        · exact hu p hmem
        · exact List.mem_singleton.mp hmem ▸ hp
  · rw [see_stopped]
    exact (congrArg Option.isSome hstopped).trans (by rw [see_fleet, hstopping, ← h.stopped, hns])
  · exact nomatch hstopped.symm.trans hs
  · refine ⟨?_, fun s hs => nomatch hstopped.symm.trans hs⟩
    rcases List.mem_append.mp hp with hp | hp
    · exact (h.made p hp).1
    · rw [List.mem_singleton.mp hp]
      exact Nat.le_refl _
  · obtain ⟨hr, htime⟩ := h.on_time_passed hr hdue hk
    exact ⟨r, by rw [see_ready, hr]; rfl, htime⟩
  · rw [see_passes, List.length_append, ← Nat.add_assoc, ← h.sweeps]
    exact hsweeps
  · rw [see_fleet, hlast, h.lastCleanup, see_passes, lastReading_append]
    show (if (v.newRound t).result.isOk then some (v.newRound t).reading else _) = _
    split <;> rfl

end Passed

/-- **Every move keeps the rounds.** -/
theorem next (h : v.Keeps f period) {m : Move} (hp : v.Permits m) : (v.next m).Keeps f period := by
  cases m with
  | elapsed time => exact h.elapsed hp
  | told => exact h.told
  | passed t => exact h.passed hp
  | shutDown => exact h.shutDown
  | beside g => exact h.beside hp

end Keeps

variable {f : Fleet} {period : Nat} {u v : Rounds}

theorem Leads.keeps (h : u.Leads v) (hu : u.Keeps f period) : v.Keeps f period := by
  induction h with
  | refl => exact hu
  | next _ hp ih => exact ih.next hp

theorem Leads.trans {w : Rounds} (h : u.Leads v) (h' : v.Leads w) : u.Leads w := by
  induction h' with
  | refl => exact h
  | next _ hp ih => exact ih.next hp

/-! ### Time passes -/

/-- After a pass the cleaner does not wait for the pods, and the next pass is due a period later, if at all. -/
theorem Keeps.after_pass (h : v.Keeps f period) {passes : List Round} {p : Round} (hp : v.passes = passes ++ [p]) :
    v.fleet.Told ∧ ∀ due ∈ v.fleet.sweepTimes, due = p.time + period := by
  obtain ⟨phase, hc, hs⟩ := h.phase
  refine ⟨fun _ c hmem hw => ?_, fun due hdue => ?_⟩
  · rw [hc, List.mem_singleton] at hmem
    rw [show phase = .waiting from (congrArg Cleaner.phase hmem).symm.trans hw] at hs
    rw [hs.1] at hp
    simp at hp
  · rw [(Fleet.mem_sweepTimes hc).mp hdue] at hs
    obtain ⟨⟨r, hr, hdue⟩, -⟩ := hs
    obtain ⟨r', hr', htime⟩ := h.on_time passes.length p (by rw [hp, List.getElem?_concat_length])
    obtain rfl : r = r' := Option.some.inj (hr.symm.trans hr')
    rw [hdue, htime, hp, List.length_append, List.length_singleton, dueTime_succ]

/-- Time may pass up to the next pass. -/
theorem leads_of_lt {time : Nat} (hnow : v.fleet.now ≤ time) (htold : v.fleet.Told)
    (hlate : ∀ due ∈ v.fleet.sweepTimes, time < due) (n : Nat) :
    ∃ w, v.Leads w ∧ w.fleet = (v.fleet.sweepUntil time n).moveTo time := by
  have hp : v.Permits (.elapsed time) := ⟨hnow, fun due hdue => Nat.le_of_lt (hlate due hdue), htold⟩
  exact ⟨_, Leads.refl.next hp, by rw [Fleet.sweepUntil_of_lt hlate]; rfl⟩

/-- **The moves that time calls for are possible**, and a bound on the passes is not reached with time left. -/
theorem Keeps.leads_sweepUntil (h : v.Keeps f period) (hperiod : 0 < period) {time n : Nat}
    (hnow : v.fleet.now ≤ time) (htold : v.fleet.Told) (hn : ∀ due ∈ v.fleet.sweepTimes, time < due + n) :
    ∃ w, v.Leads w ∧ w.fleet = (v.fleet.sweepUntil time n).moveTo time := by
  induction n generalizing v with
  | zero => exact leads_of_lt hnow htold hn 0
  | succ n ih =>
    by_cases hlate : ∀ due ∈ v.fleet.sweepTimes, time < due
    · exact leads_of_lt hnow htold hlate (n + 1)
    · obtain ⟨due, hdue, hle⟩ : ∃ due ∈ v.fleet.sweepTimes, due ≤ time := by simpa using hlate
      obtain ⟨phase, hc, hs⟩ := h.phase
      obtain rfl := (Fleet.mem_sweepTimes hc).mp hdue
      have hnext : v.fleet.now ≤ due := hs.2.1
      have hmoved : v.Permits (.elapsed due) := by
        refine ⟨hnext, fun other hother => Nat.le_of_eq ?_, htold⟩
        exact CleanerPhase.due.inj ((Fleet.mem_sweepTimes hc).mp hother)
      -- the pass is made at its time
      have hpass : (v.next (.elapsed due)).Permits (.passed sweep) :=
        (Fleet.mem_sweepTimes (f := v.fleet.moveTo due) hc).mpr rfl
      have hkeeps := (h.next hmoved).next hpass
      obtain ⟨hknows, hdues⟩ := hkeeps.after_pass rfl
      have hstill : ∀ later ∈ ((v.next (.elapsed due)).next (.passed sweep)).fleet.sweepTimes, time < later + n := by
        intro later hlater
        have hbound := hn due hdue
        have hlater : later = due + period := hdues later hlater
        omega
      obtain ⟨w, hw, e⟩ := ih hkeeps (Nat.le_trans (Nat.le_of_eq (Fleet.passOnce_now ..)) hle) hknows hstill
      refine ⟨w, ((Leads.refl.next hmoved).next hpass).trans hw, ?_⟩
      rw [e, Fleet.sweepUntil_of_le hc hle, Nat.max_eq_right hnext, Fleet.sweepOnce_eq_passOnce]
      rfl

/-- **Time passes as the clock of the fleet lets it**, in moves that are possible. -/
theorem Keeps.leads_advance (h : v.Keeps f period) (hperiod : 0 < period) (ms : Nat) :
    ∃ w, v.Leads w ∧ w.fleet = v.fleet.settle.advance ms := by
  have hkeeps : (v.next .told).Keeps f period := h.told
  obtain ⟨phase, hc, hs⟩ := hkeeps.phase
  obtain ⟨_, hcv, -⟩ := h.phase
  have hn : ∀ due ∈ v.fleet.settle.sweepTimes, v.fleet.settle.now + ms < due + (ms + 1) := by
    intro due hdue
    rw [(Fleet.mem_sweepTimes hc).mp hdue] at hs
    have hle : v.fleet.settle.now ≤ due := hs.2.1
    omega
  obtain ⟨w, hw, e⟩ := hkeeps.leads_sweepUntil hperiod (Nat.le_add_right _ ms) (Fleet.told_settle hcv) hn
  refine ⟨w, (Leads.refl.next (m := .told) trivial).trans hw, ?_⟩
  have hlength : v.fleet.settle.cleaners.length = 1 := congrArg List.length hc
  rw [e, Fleet.advance, hlength, Nat.one_mul]
  rfl

/-! ### The schedule -/

/-- **What the schedule says** of the passes of a cleaner that was started in a fleet. -/
structure Schedule (f : Fleet) (period : Nat) (v : Rounds) : Prop where
  /-- The `k`-th pass is made a delay and `k` periods after the pods were cached, whatever the passes before it ended
  with; none is made before that. -/
  on_time : ∀ k p, v.passes[k]? = some p → ∃ r, v.ready = some r ∧ p.time = dueTime r period k
  /-- None is made after a shutdown. -/
  made : ∀ p ∈ v.passes, p.time ≤ v.fleet.now ∧ ∀ s, v.stopped = some s → p.time ≤ s
  /-- The passes that are made are those that are due before now and before a shutdown and follow no cancelled one. At the
  very time that a pass is due it may be made or not, and so it is if the fleet is shut down at that time. -/
  made_iff : ∀ r k, v.ready = some r → dueTime r period k ≠ v.fleet.now → v.stopped ≠ some (dueTime r period k) →
    (k < v.passes.length ↔ dueTime r period k < v.fleet.now ∧ (∀ s, v.stopped = some s → dueTime r period k < s) ∧
      Uncancelled (v.passes.take k))
  sweeps : v.fleet.site.metrics.sweeps = f.site.metrics.sweeps + v.passes.length
  lastCleanup : v.fleet.diagnostics.lastCleanup = (lastReading v.passes <|> f.diagnostics.lastCleanup)
  /-- The cleaner ends with the first cancelled pass, or at a shutdown if there is none. -/
  ended : v.ended = ((v.passes.find? Round.isCancelled).map Round.time <|> v.stopped)

theorem Uncancelled.take {passes : List Round} (h : Uncancelled passes) (k : Nat) : Uncancelled (passes.take k) :=
  fun p hp => h p (List.mem_of_mem_take hp)

theorem Uncancelled.find? {passes : List Round} (h : Uncancelled passes) : passes.find? Round.isCancelled = none :=
  List.find?_eq_none.mpr fun p hp => by rw [h p hp]; exact Bool.false_ne_true

namespace Keeps

/-- No pass follows a cancelled one. -/
theorem uncancelled_take (h : v.Keeps f period) {k : Nat} (hk : k < v.passes.length) :
    Uncancelled (v.passes.take k) := by
  obtain ⟨phase, -, hs⟩ := h.phase
  cases phase with
  | waiting =>
    rw [hs.1] at hk
    exact nomatch hk
  | overlooked => exact hs.elim
  | due => exact hs.2.2.2.2.take k
  | finished =>
    obtain ⟨_, -, -, hu, -⟩ | ⟨earlier, last, hp, hu, -⟩ := hs
    · exact hu.take k
    · rw [hp, List.length_append, List.length_singleton] at hk
      rw [hp, List.take_append_of_le_length (Nat.le_of_lt_succ hk)]
      exact hu.take k

/-- A pass that was due, with no shutdown before it and no cancelled pass, has been made. -/
theorem lt_length (h : v.Keeps f period) {r k : Nat} (hr : v.ready = some r) (hnow : dueTime r period k < v.fleet.now)
    (hstop : ∀ s, v.stopped = some s → dueTime r period k < s) (hu : Uncancelled (v.passes.take k)) :
    k < v.passes.length := by
  obtain ⟨phase, -, hs⟩ := h.phase
  refine Nat.lt_of_not_le fun hle => ?_
  have hmono := dueTime_mono r period hle
  cases phase with
  | waiting =>
    rw [← hs.2.2.2 r hr] at hnow
    exact Nat.not_lt.mpr (le_dueTime ..) hnow
  | overlooked => exact hs.elim
  | due next =>
    obtain ⟨⟨r', hr', rfl⟩, hnext, -⟩ := hs
    obtain rfl : r = r' := Option.some.inj (hr.symm.trans hr')
    omega
  | finished =>
    obtain ⟨s, hst, -, -, hlast⟩ | ⟨earlier, last, hp, -, hl, -⟩ := hs
    · have hbefore := hstop s hst
      have hafter := hlast r hr
      omega
    · rw [List.take_of_length_le hle, hp] at hu
      exact nomatch hl.symm.trans (hu last (by simp))

theorem ended (h : v.Keeps f period) :
    v.ended = ((v.passes.find? Round.isCancelled).map Round.time <|> v.stopped) := by
  obtain ⟨phase, -, hs⟩ := h.phase
  cases phase with
  | waiting =>
    obtain ⟨hp, hns, hne, -⟩ := hs
    rw [hp, hns, hne]
    rfl
  | overlooked => exact hs.elim
  | due =>
    obtain ⟨-, -, hns, hne, hu⟩ := hs
    rw [hu.find?, hns, hne]
    rfl
  | finished =>
    obtain ⟨s, hst, he, hu, -⟩ | ⟨earlier, last, hp, hu, hl, he⟩ := hs
    · rw [hu.find?, hst, he]
      rfl
    · rw [hp, List.find?_append, hu.find?, List.find?_singleton, hl, he]
      rfl

/-- **The invariant keeps the schedule.** -/
theorem schedule (h : v.Keeps f period) : v.Schedule f period where
  on_time := h.on_time
  made := h.made
  made_iff r k hr hnow hstopped := by
    refine ⟨fun hk => ?_, fun ⟨hlt, hstop, hu⟩ => h.lt_length hr hlt hstop hu⟩
    obtain ⟨r', hr', htime⟩ := h.on_time k _ (List.getElem?_eq_getElem hk)
    obtain rfl : r = r' := Option.some.inj (hr.symm.trans hr')
    obtain ⟨hle, hbefore⟩ := h.made _ (List.getElem_mem hk)
    rw [htime] at hle hbefore
    exact ⟨Nat.lt_of_le_of_ne hle hnow, fun s hs => Nat.lt_of_le_of_ne (hbefore s hs) fun e => hstopped (e ▸ hs),
      h.uncancelled_take hk⟩
  sweeps := h.sweeps
  lastCleanup := h.lastCleanup
  ended := h.ended

end Keeps

/-- **The cleaner keeps its schedule**: all that comes about after its start is as the schedule says, and time passes
without end. -/
theorem Leads.keeps_schedule (hf : f.cleaners = []) (hperiod : 0 < period) (h : (start f period).Leads v) :
    v.Schedule f period ∧ ∀ ms, ∃ w, v.Leads w ∧ w.fleet = v.fleet.settle.advance ms ∧
      w.fleet.now = v.fleet.now + ms := by
  have hk := h.keeps (Keeps.start hf)
  refine ⟨hk.schedule, fun ms => ?_⟩
  obtain ⟨w, hw, e⟩ := hk.leads_advance hperiod ms
  refine ⟨w, hw, e, ?_⟩
  rw [e]
  exact congrArg (· + ms) v.fleet.settle_now

/-- A fleet whose clock shows one and the same moment. -/
def quietFleet : Fleet := .start (.documents .empty) fun _ => .epoch

/-- The pods are cached after half a second. The second of three passes fails, the third is cancelled; the fleet is shut
down later. -/
def threeRounds : List Move :=
  [.elapsed 500, .beside (((quietFleet.startCleaner 600).moveTo 500).observe .pods .initDone), .told, .elapsed 1500,
    .passed (.done ()), .elapsed 2100, .passed (.fail (.storage .malformed)), .elapsed 2700, .passed (.fail .cancelled),
    .elapsed 3000, .shutDown]

theorem follows_threeRounds : (start quietFleet 600).Follows threeRounds := by
  refine ⟨⟨?_, ?_, ?_⟩, Fleet.beside_observe _ .initDone, trivial, ⟨?_, ?_, ?_⟩, .head _, ⟨?_, ?_, ?_⟩, .head _,
    ⟨?_, ?_, ?_⟩, .head _, ⟨?_, ?_, ?_⟩, trivial, trivial⟩
  all_goals decide

theorem keeps_schedule_threeRounds :
    ((threeRounds.foldl next (start quietFleet 600)).passes.map Round.time = [1500, 2100, 2700] ∧
      (threeRounds.foldl next (start quietFleet 600)).ended = some 2700 ∧
      (threeRounds.foldl next (start quietFleet 600)).fleet.diagnostics.lastCleanup = some .epoch ∧
      (threeRounds.foldl next (start quietFleet 600)).fleet.site.metrics.sweeps = 3) ∧
    (threeRounds.foldl next (start quietFleet 600)).Schedule quietFleet 600 := by
  have h := Leads.keeps_schedule (f := quietFleet) rfl (by decide) (Leads.refl.follow follows_threeRounds)
  exact ⟨⟨rfl, h.1.ended.trans rfl, rfl, rfl⟩, h.1⟩

end Rounds

end FleetAtlas
