import FleetAtlas.Proofs.Handler.Footprint
import FleetAtlas.Sweep

/-!
# What handlers and sweeps keep of an instance

* `Store.info?`, `Store.stopTime?`: what is stored of an instance, and the time of its stop;
* `Shows u P`: what is stored of the instance `u` satisfies `P`; `Shows.set`: only a write of that instance can end this;
* `spares_handle`: **only the handler of pods writes instances**;
* `keeps_updatePod`, `keeps_stopPod`, `keeps_sweep`: what is kept of one by a live pod, by one that is gone, by a sweep.

A write of an instance carries over the time that was read just before, so what was read is all that matters.
-/

namespace FleetAtlas

/-- What is stored of an instance. -/
def Store.info? (s : Store) (uid : Uid .deploymentInstance) : Option DeploymentInstanceProperties :=
  (s.fetch? uid).map DeploymentInstance.info

/-- The time at which a stored instance was stopped. -/
def Store.stopTime? (s : Store) (uid : Uid .deploymentInstance) : Option Timestamp :=
  (s.info? uid).bind fun p => p.stopped

section Look

variable {s : Store} {u : Uid .deploymentInstance} {i : DeploymentInstance}

theorem Store.info?_of_fetch? (h : s.fetch? u = some i) : s.info? u = some i.info := congrArg (Option.map _) h

theorem Store.stopTime?_of_fetch? (h : s.fetch? u = some i) : s.stopTime? u = i.info.stopped :=
  congrArg (Option.bind · _) (Store.info?_of_fetch? h)

end Look

/-! ### What is stored of an instance -/

/-- What is stored of an instance satisfies `P`. -/
def Shows (u : Uid .deploymentInstance) (P : Option DeploymentInstanceProperties → Prop) (s : Store) : Prop :=
  s.Filed ∧ P (s.info? u)

namespace Shows

variable {u : Uid .deploymentInstance} {P : Option DeploymentInstanceProperties → Prop} {s s' : Store}

/-- Another record leaves it as it is. -/
theorem set_other (h : Shows u P s) {f : Family} {r : Record} (hset : s.set f r = .ok s')
    (hne : ¬ (f = .deploymentInstance ∧ r.uid = u.text)) : Shows u P s' := by
  refine ⟨h.1.set hset, ?_⟩
  unfold Store.info?
  rw [Store.fetch?_set_of_ne hset fun e => hne ⟨e.1.symm, e.2.symm⟩]
  exact h.2

/-- **The instance itself has to satisfy it.** -/
theorem set (h : Shows u P s) {i : DeploymentInstance} (hset : s.set .deploymentInstance i.toRecord = .ok s')
    (hi : i.uid = u → P (some i.info)) : Shows u P s' := by
  by_cases hu : i.uid = u
  · refine ⟨h.1.set hset, ?_⟩
    obtain ⟨i', hfetch, hp⟩ := Store.fetch?_set_self hset
    have e : s'.info? u = some i.info := by
      unfold Store.info?
      rw [← hu, hfetch]
      exact congrArg some hp
    rw [e]
    exact hi hu
  · exact h.set_other hset fun e => hu (Uid.eq_of_text e.2)

end Shows

/-- What is stored of the instance has the given time of its stop, or none. -/
def Stopped (stop : Option Timestamp) (p : Option DeploymentInstanceProperties) : Prop :=
  (p.bind fun p => p.stopped) = stop

theorem DeploymentInstance.uid_stop (i : DeploymentInstance) (time : Timestamp) : (i.stop time).uid = i.uid := by
  unfold stop
  split <;> rfl

theorem DeploymentInstance.stop_of_running {i : DeploymentInstance} (h : i.isStopped = false) (time : Timestamp) :
    i.stop time = i.withStopped (some time) := by
  unfold stop
  rw [h, if_neg Bool.false_ne_true]

/-- Properties that are selected because they lack a time of the stop read as those of a running instance. -/
theorem DeploymentInstance.stopped_of_unset {r : Record} {i : DeploymentInstance}
    (h : Entity.ofRecord? .deploymentInstance r = some i)
    (hunset : (Selection.unset "stopped").admits r.properties = true) : i.info.stopped = none := by
  rw [Entity.ofRecord?_eq] at h
  obtain ⟨p, hp, h⟩ := Option.bind_eq_some_iff.mp h
  obtain ⟨l, -, rfl⟩ := Option.map_eq_some_iff.mp h
  have hnull : Json.optional? r.properties.toList "stopped" Json.time? = some none := by
    unfold Json.optional?
    rw [Json.lookup_toList]
    simp only [Selection.admits, Selection.holds] at hunset
    cases hget : r.properties.get? "stopped" with
    | none => rfl
    | some j =>
      rw [hget] at hunset
      have hj : j = .null := by cases j <;> simp_all [Json.isNull]
      rw [hj]
  obtain ⟨id, -, hp⟩ := Option.bind_eq_some_iff.mp hp
  obtain ⟨started, -, hp⟩ := Option.bind_eq_some_iff.mp hp
  rw [hnull] at hp
  obtain rfl := Option.some.inj hp
  rfl

open FleetAtlas.Task

/-! ### Handlers that write no instance -/

section Spares

theorem spares_creationTime {g : Family} (m : Metadata) : (creationTime m).Spares g := by
  have hnothing : (creationTime m).Stores fun _ _ => False := stores_creationTime m
  exact hnothing.within.spares fun _ h => h

theorem spares_storeRestarts? (e : Option Event) : (storeRestarts? e).Spares .deploymentInstance := by
  cases e with
  | none => trivial
  | some e =>
    refine (spares_fetch .event e.uid).bind fun stored => ?_
    cases Event.merge e stored with
    | none => trivial
    | some merged => exact spares_store merged (by decide)

/-- **Only the handler of pods writes instances.** -/
theorem spares_handle (c : Caches) {k : Observed} (hk : k ≠ .pods) (o : k.Object) (deleted : Bool) :
    (k.handle c o deleted).Spares .deploymentInstance :=
  (Observed.stores_handle c hk o deleted).within.spares fun _ hfootprint => hk hfootprint.concerns

end Spares

variable {u : Uid .deploymentInstance} {P : Option DeploymentInstanceProperties → Prop} {L : List Pod → Prop}
  {stop : Option Timestamp}

theorem keeps_of_spares {α : Type} {t : Task α} (h : t.Spares .deploymentInstance) :
    t.Keeps (Shows u P) L fun _ => True :=
  h.keeps fun hf hs hset => hs.set_other hset fun e => hf e.1

theorem keeps_storeInstance {i : DeploymentInstance} (hi : i.uid = u → P (some i.info)) :
    (store i).Keeps (Shows u P) L fun _ => True :=
  keeps_store fun _ _ hs hset => hs.set hset hi

/-! ### The handler of pods -/

/-- Stores an observed instance, with the time of the stop that is stored, and the events of its restarts. -/
def storeOver (observed : DeploymentInstance) (a b : Option Event) : Task Unit :=
  Task.bind (fetch .deploymentInstance observed.uid) fun stored =>
    Task.bind (store (observed.withStopped (stored.bind fun s => (DeploymentInstance.info s).stopped))) fun _ =>
      Task.bind (storeRestarts? a) fun _ => storeRestarts? b

/-- The observed instance carries over the time that was read. -/
theorem keeps_storeOver (observed : DeploymentInstance) (a b : Option Event) :
    (storeOver observed a b).Keeps (Shows u (Stopped stop)) L fun _ => True := by
  refine (keeps_fetch _ _).bind fun stored hstored => (keeps_storeInstance fun hu => ?_).bind fun _ _ =>
    keeps_of_spares ((spares_storeRestarts? a).bind fun _ => spares_storeRestarts? b)
  obtain ⟨s, ⟨-, hs⟩, rfl⟩ := hstored
  show (s.fetch? observed.uid).bind (fun i => (DeploymentInstance.info i).stopped) = stop
  rw [show observed.uid = u from hu, ← hs]
  unfold Store.info?
  cases s.fetch? u <;> rfl

theorem keeps_storeWorkload (p : Pod) (w : Workload) (prints : Fingerprints) (revision : String) :
    (storeWorkload p w prints revision).Keeps (Shows u (Stopped stop)) L fun _ => True := by
  unfold storeWorkload
  exact (keeps_of_spares (spares_store _ (by decide))).bind fun _ _ =>
    (keeps_of_spares (spares_store _ (by decide))).bind fun _ _ =>
    (keeps_of_spares (spares_creationTime _)).bind fun started _ => keeps_storeOver _ _ _

/-- **A live pod keeps the time of the stop of every instance**, and its absence. -/
theorem keeps_updatePod (c : Caches) (p : Pod) :
    (updatePod c p).Keeps (Shows u (Stopped stop)) L fun _ => True := by
  unfold updatePod
  split
  · trivial
  · refine (keeps_of_spares (spares_ofExcept _)).bind fun prints _ =>
      (keeps_of_spares (spares_ofExcept _)).bind fun owner _ => ?_
    split
    · trivial
    · exact keeps_storeWorkload p _ prints _

theorem keeps_storeStopped {i : DeploymentInstance} (hi : i.uid = u → i.info.stopped = stop ∧ stop ≠ none)
    (time : Timestamp) :
    (if i.isStopped then done () else store (i.stop time)).Keeps (Shows u (Stopped stop)) L fun _ => True := by
  split
  · trivial
  · next hrunning =>
    refine keeps_storeInstance fun hu => ?_
    obtain ⟨hstop, hne⟩ := hi ((i.uid_stop time).symm.trans hu)
    refine absurd ?_ hrunning
    unfold DeploymentInstance.isStopped
    rw [hstop]
    exact Option.isSome_iff_ne_none.mpr hne

/-- **A pod that is gone keeps the time of the stop of every instance**, and its absence but for its own. -/
theorem keeps_stopPod (c : Caches) (p : Pod) (h : stop = none → instanceOf? c p ≠ some u) :
    (stopPod c p).Keeps (Shows u (Stopped stop)) L fun _ => True := by
  unfold stopPod
  split
  · trivial
  · next uid huid =>
    refine (keeps_fetch _ _).bind fun stored hstored => ?_
    obtain ⟨s, ⟨hfiled, hs⟩, rfl⟩ := hstored
    split
    · trivial
    · next i hi =>
      refine keeps_currentTime.bind fun time _ => keeps_storeStopped (fun hu => ?_) time
      have huid' : uid = u := (hfiled.fetch?_uid hi).symm.trans hu
      refine ⟨?_, fun hnone => h hnone (huid' ▸ huid)⟩
      rw [← hs, ← huid']
      unfold Store.info?
      rw [hi]
      rfl

theorem keeps_handlePod_of_stopped (c : Caches) (p : Pod) (deleted : Bool) {time : Timestamp} :
    (handlePod c p deleted).Keeps (Shows u (Stopped (some time))) L fun _ => True := by
  cases deleted with
  | false => exact keeps_updatePod c p
  | true => exact keeps_stopPod c p nofun

/-! ### The sweep -/

theorem keeps_checkStopping {I : Store → Prop} : checkStopping.Keeps I L fun _ => True := by
  intro flag
  cases flag <;> trivial

theorem keeps_sweepInstances {live : List String} {instances : List DeploymentInstance}
    (h : ∀ i ∈ instances, i.uid = u → i.info.id ∈ live) :
    (sweepInstances live instances).Keeps (Shows u P) L fun _ => True := by
  induction instances with
  | nil => trivial
  | cons i rest ih =>
    have ih := ih fun i hi => h i (.tail _ hi)
    refine keeps_checkStopping.bind fun _ _ => ?_
    split
    · exact ih
    · next hskip =>
      refine keeps_currentTime.bind fun time _ => (keeps_storeInstance fun hu => ?_).bind fun _ _ =>
        keeps_countStopped.bind fun _ _ => ih
      have hlive := h i List.mem_cons_self ((i.uid_stop time).symm.trans hu)
      simp [hlive] at hskip

/-- **A sweep keeps what is stored of an instance** that is stopped or whose pod is live. -/
theorem keeps_sweep (h : ∀ {p}, P (some p) → p.stopped = none → ∀ pods, L pods → p.id ∈ liveUids pods) :
    sweep.Keeps (Shows u P) L fun _ => True := by
  refine keeps_checkStopping.bind fun _ _ => (keeps_select (fun hs => hs.1) _ _).bind fun running hrunning =>
    keeps_livePods.bind fun pods hl => keeps_sweepInstances fun i hi hu => ?_
  obtain ⟨s, ⟨-, hs⟩, hall⟩ := hrunning
  obtain ⟨hfetch, r, hr, hunset⟩ := hall i hi
  have hinfo : s.info? u = some i.info := by
    unfold Store.info?
    rw [← hu, hfetch]
    rfl
  rw [hinfo] at hs
  exact h hs (DeploymentInstance.stopped_of_unset hr hunset) pods hl

theorem keeps_sweep_of_stopped {time : Timestamp} : sweep.Keeps (Shows u (Stopped (some time))) L fun _ => True :=
  keeps_sweep fun hp hrunning => nomatch hp.symm.trans hrunning

end FleetAtlas
