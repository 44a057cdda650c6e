import FleetAtlas.Proofs.Instance.Handlers
import FleetAtlas.Proofs.Storage.Lists
import FleetAtlas.Proofs.Task.Endings

/-!
# What a sweep stops

* `Due`: the instances that a sweep is to stop: those without a time of their stop that no live pod backs, by uid;
* `Swept due written before result after`: a sweep has stopped the first of them, each at the time that the clock showed,
  and did nothing else; `Swept.cons`: one more instance was stopped before;
* `swept_sweepInstances`, by induction on the instances that are left, and `Due.eq_nil`: then there is nothing more to do;
* `sweep_stops_due`: **a sweep stops the first of the instances that are due**, all of them if it is not cut short.
-/

namespace FleetAtlas

open FleetAtlas.Task

/-! ### Instances that are due -/

/-- The instances that are to be stopped: they have no time of their stop, and no pod that has not ended is of their id. -/
structure Due (s : Store) (cached : List Pod) (due : List DeploymentInstance) : Prop where
  sorted : due.Pairwise fun i j => i.uid.text < j.uid.text
  mem_iff : ∀ i, i ∈ due ↔ s.fetch? i.uid = some i ∧ i.info.stopped = none ∧
    ∀ p ∈ cached, p.phase ≠ some "Failed" → p.phase ≠ some "Succeeded" → p.metadata.uid ≠ some i.info.id

theorem contains_liveUids_eq_false_iff {cached : List Pod} {id : String} : (liveUids cached).contains id = false ↔
    ∀ p ∈ cached, p.phase ≠ some "Failed" → p.phase ≠ some "Succeeded" → p.metadata.uid ≠ some id := by
  simp [liveUids, Pod.isLive, and_imp]

/-- The running instances of a store, of which a sweep leaves those alone whose pod is live. -/
theorem Store.Saved.exists_running {s : Store} (h : s.Saved fun _ _ => True) : ∃ running : List DeploymentInstance,
    s.list .deploymentInstance (.unset "stopped") = .ok (running.map s.shown) ∧
      (∀ i ∈ running, s.fetch? i.uid = some i ∧ i.info.stopped = none) ∧
      running.Pairwise (fun i j => i.uid.text < j.uid.text) ∧
      ∀ cached, Due s cached (running.filter fun i : DeploymentInstance => !(liveUids cached).contains i.info.id) := by
  obtain ⟨running, hlist, hsorted, hmem⟩ := h.exists_list .deploymentInstance (.unset "stopped")
  have hrunning : ∀ i : DeploymentInstance, i ∈ running ↔ s.fetch? i.uid = some i ∧ i.info.stopped = none := fun i =>
    (hmem i).trans (and_congr_right fun _ => DeploymentInstance.admits_unset_iff i)
  refine ⟨running, hlist, fun i hi => (hrunning i).mp hi, hsorted, fun cached => ⟨hsorted.filter _, fun i => ?_⟩⟩
  rw [List.mem_filter, hrunning, Bool.not_eq_true', contains_liveUids_eq_false_iff, and_assoc]

/-! ### One stop -/

/-- The record of an instance, stopped. -/
def Record.stoppedAt (r : Record) (time : Timestamp) : Record :=
  { r with properties := r.properties.insert "stopped" (.ofTime time) }

namespace DeploymentInstance

variable (i : DeploymentInstance) (time : Timestamp)

/-- The record of an instance among all records. -/
def key : Family × String := (.deploymentInstance, i.uid.text)

theorem key_ne_of_lt {i j : DeploymentInstance} (h : i.uid.text < j.uid.text) : j.key ≠ i.key := by
  intro heq
  rw [(Prod.mk.inj heq).2] at h
  exact LinearKey.irrefl _ h

theorem get?_withStopped (name : String) : (i.withStopped (some time)).toRecord.properties.get? name =
    if name = "stopped" then some (.ofTime time) else i.toRecord.properties.get? name := by
  rw [(Entity.envelops_toRecord _).properties, (Entity.envelops_toRecord _).properties]
  by_cases hname : name = "stopped"
  · subst hname
    rfl
  · rw [if_neg hname]
    simp [Properties.fields, Json.lookup, Ne.symm hname, withStopped, info]

theorem toRecord_withStopped : (i.withStopped (some time)).toRecord = i.toRecord.stoppedAt time := by
  have hproperties : (i.withStopped (some time)).toRecord.properties = (i.toRecord.stoppedAt time).properties := by
    refine Dict.ext_get? fun name => ?_
    rw [get?_withStopped, Record.stoppedAt, Dict.get?_insert]
  exact congrArg (fun properties => { i.toRecord with properties }) hproperties

theorem toNode_withStopped : (i.withStopped (some time)).toNode = i.toNode.stoppedAt time := by
  have hproperties : (i.withStopped (some time)).toNode.properties = (i.toNode.stoppedAt time).properties := by
    refine Dict.ext_get? fun name => ?_
    simp only [Entity.toNode, Record.nonNull, Record.stoppedAt, Dict.get?_filter, Dict.get?_insert, get?_withStopped]
    split
    · rfl
    · rfl
  exact congrArg (fun properties => { i.toNode with properties }) hproperties

end DeploymentInstance

/-- A call of storage failed, before anything was written. -/
structure Failed {α : Type} (before : Site) (result : Except Failure α) (after : Site) : Prop where
  faults : before.service.faults ≠ []
  error : ∃ e, result = .error e
  store : after.service.store = before.service.store
  journal : after.service.journal = before.service.journal
  metrics : after.metrics = before.metrics

/-- One instance was stopped at the time on the clock, and counted. -/
structure Stops (i : DeploymentInstance) (before after : Site) : Prop where
  faults : before.service.faults = [] → after.service.faults = []
  saved : after.service.store.Saved fun _ _ => True
  journal : after.service.journal = i.key :: before.service.journal
  counted : after.metrics.stopped = before.metrics.stopped + 1
  clock : after.clock = before.clock
  reads : after.reads = before.reads + 1
  stopping : after.stopping = before.stopping
  stopped : ∃ old : Record, before.service.store.get .deploymentInstance i.uid.text = .ok (some old) ∧
    after.service.store.get .deploymentInstance i.uid.text = .ok (some (old.stoppedAt before.time))
  others : ∀ f uid, (f, uid) ≠ i.key → after.service.store.get f uid = before.service.store.get f uid

theorem Store.Saved.get_stop {s s' : Store} (h : s.Saved fun _ _ => True) {i : DeploymentInstance}
    (hi : s.fetch? i.uid = some i) (time : Timestamp)
    (hset : s.set .deploymentInstance (i.withStopped (some time)).toRecord = .ok s') :
    ∃ old : Record, s.get .deploymentInstance i.uid.text = .ok (some old) ∧
      s'.get .deploymentInstance i.uid.text = .ok (some (old.stoppedAt time)) := by
  have hget := h.fetch?_eq_some_iff.mp hi
  have hget' : s'.get .deploymentInstance i.uid.text = .ok (some (s'.shown (i.withStopped (some time)))) :=
    h.get_set hget rfl rfl rfl hset
  have hshown : s'.shown (i.withStopped (some time)) = (s.shown i).stoppedAt time := by
    cases s with
    | documents d =>
      obtain rfl : Store.documents _ = s' := Except.ok.inj hset
      exact i.toRecord_withStopped time
    | graph g =>
      obtain ⟨g', -, rfl⟩ := Store.set_graph_eq_ok hset
      exact i.toNode_withStopped time
  rw [hshown] at hget'
  exact ⟨_, hget, hget'⟩

section

variable {cached : List Pod} {s s' : Site} {result : Except Failure Unit} {i : DeploymentInstance} {k : Task Unit}

/-- Stops an instance that runs, and goes on. -/
def stopAnd (i : DeploymentInstance) (k : Task Unit) : Task Unit :=
  currentTime.bind fun time => (store (i.stop time)).bind fun _ => countStopped.bind fun _ => k

theorem stops_of_set {service : Service} (hs : s.service.store.Saved fun _ _ => True)
    (hi : s.service.store.fetch? i.uid = some i)
    (hcall : s.service.set .deploymentInstance (i.withStopped (some s.time)).toRecord = (.ok (), service))
    (hset : s.service.store.set .deploymentInstance (i.withStopped (some s.time)).toRecord = .ok service.store) :
    Stops i s { s.tick with service, metrics := s.metrics.countStopped 1 } where
  faults hnil := by
    obtain ⟨_, hok, -, hfaults⟩ := Service.set_of_faults_nil hnil hset
    rw [hcall] at hok
    exact (congrArg (fun p => p.2.faults) hok).trans hfaults
  saved := hs.save trivial hset
  journal := Service.journal_of_set_ok hcall
  counted := rfl
  clock := rfl
  reads := rfl
  stopping := rfl
  stopped := hs.get_stop hi s.time hset
  others f uid hne := Store.get_set_of_ne hset fun heq => hne (Prod.ext heq.1 heq.2)

/-- **Stopping an instance that runs** fails, or it stops just this one. -/
theorem stops_of_mayEnd (hs : s.service.store.Saved fun _ _ => True) (hi : s.service.store.fetch? i.uid = some i)
    (hrunning : i.isStopped = false) (h : (stopAnd i k).MayEnd cached s result s') :
    Failed s result s' ∨ ∃ s₁, Stops i s s₁ ∧ k.MayEnd cached s₁ result s' := by
  have hcalls : (set .deploymentInstance (i.stop s.time).toRecord (counted k)).MayEnd cached s.tick result s' := h
  rw [DeploymentInstance.stop_of_running hrunning] at hcalls
  simp only [MayEnd, Site.tick] at hcalls
  rcases s.service.set_cases .deploymentInstance (i.withStopped (some s.time)).toRecord with
    ⟨e, service, hcall, hkept⟩ | ⟨service, hcall, hset⟩ <;> rw [hcall] at hcalls
  · obtain ⟨rfl, rfl⟩ := hcalls
    refine .inl ⟨fun hnil => ?_, ⟨_, rfl⟩, hkept, Service.journal_of_set_error hcall, rfl⟩
    -- the store takes an instance of the kind that it shows
    obtain ⟨e, -, he, _, -, htakes, hkind⟩ := hs.exists_shown (hs.fetch?_eq_some_iff.mp hi)
    obtain rfl := Store.shown_inj he
    have htakes' : s.service.store.Takes .deploymentInstance (i.withStopped (some s.time)).toRecord :=
      htakes.of_kind hkind
    obtain ⟨_, hset⟩ := htakes'
    obtain ⟨_, hok, -⟩ := Service.set_of_faults_nil hnil hset
    rw [hcall] at hok
    cases (Prod.mk.inj hok).1
  · exact .inr ⟨_, stops_of_set hs hi hcall hset, hcalls⟩

end

/-! ### What a sweep has done -/

/-- **What a sweep has done** when it is over: it has written the first of the instances that are due, each with the time
that the clock showed, and no other record. -/
structure Swept (due written : List DeploymentInstance) (before : Site) (result : Except Failure Unit) (after : Site) :
    Prop where
  first : written <+: due
  all : result = .ok () → written = due
  refused : before.stopping = true → written = []
  undisturbed : before.service.faults = [] → after.stopping = false → result = .ok ()
  saved : after.service.store.Saved fun _ _ => True
  journal : after.service.journal = (written.map DeploymentInstance.key).reverse ++ before.service.journal
  counted : after.metrics.stopped = before.metrics.stopped + written.length
  stopped : ∀ (k : Nat) i, written[k]? = some i → ∃ old : Record,
    before.service.store.get .deploymentInstance i.uid.text = .ok (some old) ∧
      after.service.store.get .deploymentInstance i.uid.text =
        .ok (some (old.stoppedAt (before.clock (before.reads + k))))
  others : ∀ f uid, (f, uid) ∉ written.map DeploymentInstance.key →
    after.service.store.get f uid = before.service.store.get f uid
  untouched : written = [] → after.service.store = before.service.store

namespace Swept

variable {due written : List DeploymentInstance} {s s₁ s' : Site} {result : Except Failure Unit} {i : DeploymentInstance}

/-- Nothing was written. -/
theorem nothing (hall : result = .ok () → due = [])
    (hundisturbed : s.service.faults = [] → s'.stopping = false → result = .ok ())
    (hsaved : s.service.store.Saved fun _ _ => True) (hstore : s'.service.store = s.service.store)
    (hjournal : s'.service.journal = s.service.journal) (hmetrics : s'.metrics = s.metrics) :
    Swept due [] s result s' where
  first := List.nil_prefix
  all h := (hall h).symm
  refused _ := rfl
  undisturbed := hundisturbed
  saved := hstore ▸ hsaved
  journal := hjournal
  counted := congrArg Metrics.stopped hmetrics
  stopped _ _ h := nomatch h
  others _ _ _ := by rw [hstore]
  untouched _ := hstore

theorem failed (h : Failed s result s') (hsaved : s.service.store.Saved fun _ _ => True) : Swept due [] s result s' := by
  obtain ⟨hfaults, ⟨e, rfl⟩, hstore, hjournal, hmetrics⟩ := h
  exact nothing nofun (fun hnil => absurd hnil hfaults) hsaved hstore hjournal hmetrics

/-- One more instance was stopped before. -/
theorem cons (h : Swept due written s₁ result s') (hfirst : Stops i s s₁) (hcalm : s.stopping = false)
    (hi : ∀ j ∈ due, i.uid.text < j.uid.text) : Swept (i :: due) (i :: written) s result s' where
  first := List.cons_prefix_cons.mpr ⟨rfl, h.first⟩
  all hok := congrArg _ (h.all hok)
  refused hstopping := absurd hstopping (by simp [hcalm])
  undisturbed hfaults := h.undisturbed (hfirst.faults hfaults)
  saved := h.saved
  journal := by simp [h.journal, hfirst.journal]
  counted := by
    rw [h.counted, hfirst.counted, List.length_cons]
    omega
  stopped := by
    have hkeys : ∀ j ∈ written, j.key ≠ i.key := fun j hj => DeploymentInstance.key_ne_of_lt (hi j (h.first.subset hj))
    have hnot : i.key ∉ written.map DeploymentInstance.key := by
      intro hmem
      obtain ⟨j, hj, heq⟩ := List.mem_map.mp hmem
      exact hkeys j hj heq
    intro k j hj
    cases k with
    | zero =>
      obtain rfl := Option.some.inj hj
      obtain ⟨old, hold, hnew⟩ := hfirst.stopped
      exact ⟨old, hold, (h.others _ _ hnot).trans hnew⟩
    | succ k =>
      obtain ⟨old, hold, hnew⟩ := h.stopped k j hj
      rw [hfirst.others _ _ (hkeys j (List.mem_of_getElem? hj))] at hold
      rw [hfirst.clock, hfirst.reads, Nat.add_right_comm] at hnew
      exact ⟨old, hold, hnew⟩
  others f uid hne := by
    rw [List.map_cons, List.mem_cons, not_or] at hne
    rw [h.others f uid hne.2, hfirst.others f uid hne.1]
  untouched := nofun

/-- Reading the store before makes no difference. -/
theorem of_read {service : Service} (h : Swept due written { s with service } result s')
    (hstore : service.store = s.service.store) (hjournal : service.journal = s.service.journal)
    (hfaults : s.service.faults = [] → service.faults = []) : Swept due written s result s' where
  first := h.first
  all := h.all
  refused := h.refused
  undisturbed hnil := h.undisturbed (hfaults hnil)
  saved := h.saved
  journal := hjournal ▸ h.journal
  counted := h.counted
  stopped := hstore ▸ h.stopped
  others := hstore ▸ h.others
  untouched := hstore ▸ h.untouched

end Swept

/-! ### The sweep -/

variable {cached : List Pod} {s s' : Site}

/-- A sweep asks whether it is to end: it is cancelled, or it goes on from a site where nobody has asked for this. -/
theorem cancelled_or_goes_on {α : Type} {k : Task α} {result : Except Failure α}
    (h : (checkStopping.bind fun _ => k).MayEnd cached s result s') :
    (result = .error .cancelled ∧ s' = { s with stopping := true }) ∨
      (s.stopping = false ∧ k.MayEnd cached s result s') := by
  obtain ⟨flag, hflag, h⟩ := h
  cases flag with
  | true => exact .inl h
  | false =>
    have hcalm : s.stopping = false := by simpa using hflag
    have hsame : { s with stopping := false } = s := by rw [← hcalm]
    refine .inr ⟨hcalm, ?_⟩
    rw [hsame] at h
    exact h

/-- **What is stopped of the instances that are left**, by induction on them. -/
theorem swept_sweepInstances {live : List String} {instances : List DeploymentInstance} {result : Except Failure Unit}
    (hs : s.service.store.Saved fun _ _ => True)
    (hstored : ∀ i ∈ instances, s.service.store.fetch? i.uid = some i ∧ i.info.stopped = none)
    (hsorted : instances.Pairwise fun i j => i.uid.text < j.uid.text)
    (h : (sweepInstances live instances).MayEnd cached s result s') :
    ∃ written, Swept (instances.filter fun i => !live.contains i.info.id) written s result s' := by
  induction instances generalizing s with
  | nil =>
    obtain ⟨rfl, rfl⟩ := h
    exact ⟨[], .nothing (fun _ => rfl) (fun _ _ => rfl) hs rfl rfl rfl⟩
  | cons i rest ih =>
    obtain ⟨hi, hrest⟩ := List.forall_mem_cons.mp hstored
    obtain ⟨hlt, hsorted⟩ := List.pairwise_cons.mp hsorted
    rcases cancelled_or_goes_on h with ⟨rfl, rfl⟩ | ⟨hcalm, h⟩
    · exact ⟨[], .nothing nofun (fun _ => nofun) hs rfl rfl rfl⟩
    have hrunning : i.isStopped = false := by
      unfold DeploymentInstance.isStopped
      rw [hi.2]
      rfl
    rw [hrunning, Bool.false_or] at h
    cases hlive : live.contains i.info.id with
    | true =>
      rw [hlive, if_pos rfl] at h
      rw [List.filter_cons, hlive, Bool.not_true, if_neg Bool.false_ne_true]
      exact ih hs hrest hsorted h
    | false =>
      rw [hlive, if_neg Bool.false_ne_true] at h
      rw [List.filter_cons, hlive, Bool.not_false, if_pos rfl]
      rcases stops_of_mayEnd hs hi.1 hrunning h with hfailed | ⟨s₁, hfirst, h⟩
      · exact ⟨[], .failed hfailed hs⟩
      · -- the others are stored as before, under uids of their own
        have hkept : ∀ j ∈ rest, s₁.service.store.fetch? j.uid = some j ∧ j.info.stopped = none := by
          intro j hj
          have hother := hfirst.others _ _ (DeploymentInstance.key_ne_of_lt (hlt j hj))
          refine ⟨?_, (hrest j hj).2⟩
          rw [← (hrest j hj).1]
          exact Store.fetch?_congr hother
        obtain ⟨written, hswept⟩ := ih hfirst.saved hkept hsorted h
        exact ⟨i :: written, hswept.cons hfirst hcalm fun j hj => hlt j (List.mem_filter.mp hj).1⟩

theorem decodeAll_shown {f : Family} (s : Store) (es : List (Entity f)) : decodeAll f (es.map s.shown) = done es := by
  induction es with
  | nil => rfl
  | cons e es ih =>
    have hdecode : decode f (s.shown e) = done e := by
      unfold decode
      rw [s.ofRecord?_shown]
    rw [List.map_cons, decodeAll, hdecode, ih]
    rfl

/-- Selecting entities fails, or it shows those that are listed. -/
theorem select_cases {α : Type} {f : Family} {selection : Selection} {es : List (Entity f)}
    {k : List (Entity f) → Task α} {result : Except Failure α}
    (hlist : s.service.store.list f selection = .ok (es.map s.service.store.shown))
    (h : ((select f selection).bind k).MayEnd cached s result s') :
    Failed s result s' ∨ ∃ service : Service, service.store = s.service.store ∧
      service.journal = s.service.journal ∧ (s.service.faults = [] → service.faults = []) ∧
      (k es).MayEnd cached { s with service } result s' := by
  have hselect : (list f selection fun rs => (decodeAll f rs).bind k).MayEnd cached s result s' := h
  simp only [MayEnd] at hselect
  obtain ⟨service, hstore, hcall⟩ := s.service.list_cases f selection
  have hjournal := s.service.journal_list f selection
  have hcalm := fun hnil => Service.list_of_faults_nil (s := s.service) hnil f selection
  rcases hcall with ⟨e, hcall⟩ | ⟨answer, hcall, hanswer⟩ <;> rw [hcall] at hselect hjournal hcalm
  · obtain ⟨rfl, rfl⟩ := hselect
    refine .inl ⟨fun hnil => ?_, ⟨_, rfl⟩, hstore, hjournal, rfl⟩
    obtain ⟨_, hok, -⟩ := hcalm hnil
    rw [hlist] at hok
    cases (Prod.mk.inj hok).1
  · obtain rfl := Except.ok.inj (hlist.symm.trans hanswer)
    simp only [decodeAll_shown] at hselect
    refine .inr ⟨service, hstore, hjournal, fun hnil => ?_, hselect⟩
    obtain ⟨_, hok, -, hfaults⟩ := hcalm hnil
    exact (congrArg (fun p => p.2.faults) hok).trans hfaults

/-- **A sweep stops instances that are due.** -/
theorem exists_swept {result : Except Failure Unit} (hs : s.service.store.Saved fun _ _ => True)
    (h : sweep.MayEnd cached s result s') :
    ∃ due written, Due s.service.store cached due ∧ Swept due written s result s' := by
  obtain ⟨running, hlist, hstored, hsorted, hdue⟩ := hs.exists_running
  refine ⟨running.filter fun i => !(liveUids cached).contains i.info.id, ?_⟩
  rcases cancelled_or_goes_on h with ⟨rfl, rfl⟩ | ⟨-, h⟩
  · exact ⟨[], hdue cached, .nothing nofun (fun _ => nofun) hs rfl rfl rfl⟩
  rcases select_cases hlist h with hfailed | ⟨service, hstore, hjournal, hfaults, h⟩
  · exact ⟨[], hdue cached, .failed hfailed hs⟩
  · have hswept : ∃ written, Swept (running.filter fun i => !(liveUids cached).contains i.info.id) written
        { s with service } result s' := by
      refine swept_sweepInstances ?_ ?_ hsorted h
      · rw [hstore]
        exact hs
      · rw [hstore]
        exact hstored
    obtain ⟨written, hswept⟩ := hswept
    exact ⟨written, hdue cached, hswept.of_read hstore hjournal hfaults⟩

/-- **Then nothing more is due**: what is still running has a live pod. -/
theorem Due.eq_nil {before after : Site} {due due' : List DeploymentInstance} (hdue : Due before.service.store cached due)
    (h : Swept due due before (.ok ()) after) (hdue' : Due after.service.store cached due') : due' = [] := by
  refine List.eq_nil_iff_forall_not_mem.mpr fun i hi => ?_
  obtain ⟨hfetch, hrunning, hlive⟩ := (hdue'.mem_iff i).mp hi
  by_cases hkey : i.key ∈ due.map DeploymentInstance.key
  · -- it was stopped
    obtain ⟨j, hj, heq⟩ := List.mem_map.mp hkey
    obtain ⟨k, hk⟩ := List.getElem?_of_mem hj
    obtain ⟨old, -, hget⟩ := h.stopped k j hk
    rw [show j.uid.text = i.uid.text from (Prod.mk.inj heq).2, h.saved.fetch?_eq_some_iff.mp hfetch] at hget
    have hadmits := i.admits_unset_iff.mpr hrunning
    rw [← after.service.store.admits_shown, Option.some.inj (Except.ok.inj hget)] at hadmits
    simp [Record.stoppedAt, Selection.admits, Selection.holds, Dict.get?_insert_self, Json.ofTime, Json.isNull] at hadmits
  · -- it was running before, so it was due
    have hget := h.others _ _ hkey
    have hfetch' : before.service.store.fetch? i.uid = some i := by
      rw [← hfetch]
      exact (Store.fetch?_congr hget).symm
    exact hkey (List.mem_map.mpr ⟨i, (hdue.mem_iff i).mpr ⟨hfetch', hrunning, hlive⟩, rfl⟩)

/-- **A sweep stops the first of the instances that are due**, all of them when it succeeds, and nothing else; after that
another sweep over the same pods writes nothing. -/
theorem sweep_stops_due {before after : Site} {result : Except Failure Unit}
    (hs : before.service.store.Saved fun _ _ => True) (h : sweep.MayEnd cached before result after) :
    ∃ due written, Due before.service.store cached due ∧ Swept due written before result after ∧
      (result = .ok () → ∀ (again later : Site) (result' : Except Failure Unit),
        again.service.store = after.service.store → sweep.MayEnd cached again result' later →
          later.service.store = again.service.store ∧ later.service.journal = again.service.journal) := by
  obtain ⟨due, written, hdue, hswept⟩ := exists_swept hs h
  refine ⟨due, written, hdue, hswept, fun hok again later result' hstore hagain => ?_⟩
  subst hok
  obtain rfl := hswept.all rfl
  obtain ⟨due', written', hdue', hswept'⟩ := exists_swept (hstore ▸ hswept.saved) hagain
  obtain rfl : due' = [] := hdue.eq_nil hswept (hstore ▸ hdue')
  obtain rfl : written' = [] := List.prefix_nil.mp hswept'.first
  exact ⟨hswept'.untouched rfl, hswept'.journal⟩

/-- The instance of a pod. -/
def instanceOf (pod : String) : DeploymentInstance :=
  .deploymentInstance (.deployment "t1" "a1" "Dev" "4") pod .epoch ⟨"t1/a1/Dev/m1/a"⟩ ⟨"t1/a1/Dev/m1/r"⟩ none

/-- Three instances run, as far as is stored. -/
def threeRunning : Site :=
  .on (.documents (((Documents.empty.set .deploymentInstance (instanceOf "p3").toRecord).set .deploymentInstance
    (instanceOf "p1").toRecord).set .deploymentInstance (instanceOf "p2").toRecord)) fun _ => .epoch

/-- Of their pods one runs, one has failed, and one is not there any more. -/
def remainingPods : List Pod :=
  [⟨{ Metadata.empty with uid := some "p1" }, none, some "Running", []⟩,
    ⟨{ Metadata.empty with uid := some "p2" }, none, some "Failed", []⟩]

/-- The two instances without a live pod are stopped. -/
theorem sweep_stops_two : ∃ due after, sweep.MayEnd remainingPods threeRunning (.ok ()) after ∧
    Due threeRunning.service.store remainingPods due ∧
    due.map DeploymentInstance.key = [(instanceOf "p2").key, (instanceOf "p3").key] ∧
    Swept due due threeRunning (.ok ()) after ∧
    ∀ (again later : Site) (result : Except Failure Unit), again.service.store = after.service.store →
      sweep.MayEnd remainingPods again result later →
        later.service.store = again.service.store ∧ later.service.journal = again.service.journal := by
  have hs : threeRunning.service.store.Saved fun _ _ => True :=
    .save (.save (.save .documents trivial rfl) trivial rfl) trivial rfl
  have hjournal : (run remainingPods sweep threeRunning).2.service.journal =
      [(instanceOf "p3").key, (instanceOf "p2").key] := by decide +kernel
  have hok : (run remainingPods sweep threeRunning).1 = .ok () := by rfl
  have hrun := mayEnd_run remainingPods sweep threeRunning
  rw [hok] at hrun
  obtain ⟨due, written, hdue, hswept, hagain⟩ := sweep_stops_due hs hrun
  obtain rfl := hswept.all rfl
  have hkeys := hswept.journal
  rw [hjournal] at hkeys
  refine ⟨_, _, hrun, hdue, ?_, hswept, hagain rfl⟩
  have hkeys : (written.map DeploymentInstance.key).reverse = [(instanceOf "p3").key, (instanceOf "p2").key] := by
    rw [hkeys]
    exact (List.append_nil _).symm
  exact List.reverse_eq_iff.mp hkeys

end FleetAtlas
