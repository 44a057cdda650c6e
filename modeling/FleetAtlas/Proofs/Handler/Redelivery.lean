import FleetAtlas.Proofs.Instance.StopTime
import FleetAtlas.Proofs.Task.Edits

/-!
# Handlers that are called again

* `Task.Timeless`: a task that never looks at the clock;
* `repeatable_handleNamespace`, …: handlers make compatible edits, as long as the time at which an object was made is
  known or not asked for;
* `Makes`, `makes_stopPod`: the deletion of a pod makes one edit, at the time on the clock;
* `Observed.call_again`: **calls of handlers may be repeated, and made again after they failed**.
-/

namespace FleetAtlas

open FleetAtlas.Task

/-- **The task never looks at the clock.** -/
def Task.Timeless {α : Type} : Task α → Prop
  | done _ | fail _ => True
  | set _ _ next => Timeless next
  | get _ _ next => ∀ answer, Timeless (next answer)
  | list _ _ next => ∀ answer, Timeless (next answer)
  | now _ => False
  | pods next => ∀ pods, Timeless (next pods)
  | stopping next => ∀ flag, Timeless (next flag)
  | counted next => Timeless next

/-! ### Edits of handlers -/

namespace Edit

theorem compatible_nil : Compatible [] := ⟨fun _ he => absurd he List.not_mem_nil, .nil⟩

theorem compatible_puts {es : List Edit} (hput : ∀ e ∈ es, ∃ (f : Family) (x : Entity f), e = .put x)
    (hkeys : (es.map key).Nodup) : Compatible es where
  steady e he := by
    obtain ⟨f, x, rfl⟩ := hput e he
    trivial
  distinct := hkeys

/-- The edit of an observed instance, which carries over the time of the stop that is stored. -/
def observe (observed : DeploymentInstance) : Edit :=
  .revise observed.uid fun stored =>
    some (observed.withStopped (stored.bind fun s => (DeploymentInstance.info s).stopped))

theorem steady_observe (observed : DeploymentInstance) : (observe observed).Steady := by
  intro stored e he
  obtain rfl := Option.some.inj he
  refine ⟨rfl, fun e' hp => .inr ?_⟩
  have hinfo : DeploymentInstance.info e' =
      DeploymentInstance.info (observed.withStopped (stored.bind fun s => (DeploymentInstance.info s).stopped)) := hp
  show some (observed.withStopped (DeploymentInstance.info e').stopped) = _
  rw [hinfo]
  rfl

/-- The edit of an event of restarts, which stays when its count did not grow. -/
def report (e : Event) : Edit := .revise e.uid e.merge

theorem uid_and_count_of_merge {new merged : Event} {stored : Option Event} (h : new.merge stored = some merged) :
    merged.uid = new.uid ∧ (Event.info merged).count = (Event.info new).count := by
  unfold Event.merge at h
  split at h
  · obtain rfl := Option.some.inj h
    exact ⟨rfl, rfl⟩
  · split at h
    · exact nomatch h
    · obtain rfl := Option.some.inj h
      exact ⟨rfl, rfl⟩

theorem steady_report (e : Event) : (report e).Steady := by
  intro stored merged hmerged
  obtain ⟨huid, hcount⟩ := uid_and_count_of_merge hmerged
  refine ⟨huid, fun e' hp => .inl ?_⟩
  have hinfo : Event.info e' = Event.info merged := hp
  have hle : (Event.info e).count ≤ (Event.info e').count := by
    rw [hinfo, hcount]
    exact Int32.le_refl _
  exact if_pos hle

/-- The edit of an instance that is stopped at a time, unless it is stopped already. -/
def stop (uid : Uid .deploymentInstance) (time : Timestamp) : Edit :=
  .revise uid fun stored => stored.bind fun i =>
    if DeploymentInstance.isStopped i then none else some (DeploymentInstance.stop i time)

end Edit

namespace Task

theorem repeatable_done : (done ()).Repeatable := .inr ⟨[], rfl, Edit.compatible_nil⟩

theorem perform_append (xs ys : List Edit) : perform (xs ++ ys) = (perform xs).bind fun _ => perform ys := by
  induction xs with
  | nil => rfl
  | cons e xs ih =>
    show (edit e).bind (fun _ => perform (xs ++ ys)) = ((edit e).bind fun _ => perform xs).bind fun _ => perform ys
    rw [ih, bind_assoc]

theorem perform_singleton (e : Edit) : perform [e] = edit e := bind_done (edit e)

end Task

open Edit

/-- The clock is asked when an object was made only if the object does not say. -/
theorem created_of_timeless {α : Type} {m : Metadata} {k : Timestamp → Task α}
    (h : ((creationTime m).bind k).Timeless) : m.created ≠ none := by
  intro hnone
  unfold creationTime at h
  rw [hnone] at h
  exact h

theorem creationTime_of_created {m : Metadata} {time : Timestamp} (h : m.created = some time) :
    creationTime m = done time := by
  unfold creationTime
  rw [h]

theorem repeatable_handleNamespace (n : Namespace) (deleted : Bool) : (handleNamespace n deleted).Repeatable := by
  unfold handleNamespace
  split
  · exact repeatable_done
  · split
    · exact repeatable_done
    · refine .inr ⟨[.put (.customer _ _), .put (.application _ _ _)], rfl, compatible_puts ?_ (by simp [key])⟩
      simp only [List.forall_mem_cons, List.not_mem_nil, false_imp_iff, implies_true, and_true]
      exact ⟨⟨_, _, rfl⟩, ⟨_, _, rfl⟩⟩

theorem repeatable_store {f : Family} (e : Entity f) : (store e).Repeatable := by
  refine .inr ⟨[.put e], (perform_singleton (.put e)).symm, compatible_puts ?_ (by simp)⟩
  intro e' he'
  exact ⟨f, e, List.mem_singleton.mp he'⟩

theorem repeatable_handleClusterNode (n : ClusterNode) (deleted : Bool) :
    (handleClusterNode n deleted).Repeatable := by
  unfold handleClusterNode
  split
  · exact repeatable_done
  · split
    · exact repeatable_done
    · exact repeatable_store _

theorem repeatable_handleEvent (c : Caches) (e : ClusterEvent) (deleted : Bool) :
    (handleEvent c e deleted).Repeatable := by
  unfold handleEvent
  split
  · exact repeatable_done
  · split
    · exact repeatable_done
    · exact repeatable_store _

/-- The edits of a rollout that was made at a time. -/
def rolloutEdits (o : Rollout) (runtime : Entity .runtimeVersion) (created : Timestamp) : List Edit :=
  let i := o.identity
  let version := Entity.artifactVersion i.tenantId i.microserviceId (Image.artifactName o.headImage) none
  [.put (.environment i.tenantId i.applicationId i.environment), .put (.artifact i.tenantId i.microserviceId),
    .put version, .put runtime,
    .put (.deployment i.tenantId i.applicationId i.environment o.revision o.name created version.uid runtime.uid)]

theorem compatible_rolloutEdits (o : Rollout) (runtime : Entity .runtimeVersion) (created : Timestamp) :
    Compatible (rolloutEdits o runtime created) := by
  refine compatible_puts ?_ (by simp [rolloutEdits, key])
  simp only [rolloutEdits, List.forall_mem_cons, List.not_mem_nil, false_imp_iff, implies_true, and_true]
  exact ⟨⟨_, _, rfl⟩, ⟨_, _, rfl⟩, ⟨_, _, rfl⟩, ⟨_, _, rfl⟩, ⟨_, _, rfl⟩⟩

theorem repeatable_storeRollout {m : Metadata} {time : Timestamp} (h : m.created = some time) (o : Rollout)
    (runtime : Entity .runtimeVersion) : (storeRollout m o runtime).Repeatable := by
  refine .inr ⟨rolloutEdits o runtime time, ?_, compatible_rolloutEdits o runtime time⟩
  unfold storeRollout
  rw [creationTime_of_created h]
  rfl

theorem repeatable_handleReplicaSet {r : ReplicaSet}
    (h : r.metadata.created ≠ none ∨ (handleReplicaSet r false).Timeless) : (handleReplicaSet r false).Repeatable := by
  unfold handleReplicaSet at h ⊢
  rw [if_neg Bool.false_ne_true] at h ⊢
  cases ho : rollout? r with
  | none => exact repeatable_done
  | some o =>
    cases hv : Image.runtimeVersion o.runtimeImage with
    | error e =>
      simp only [hv]
      exact .inl ⟨_, rfl⟩
    | ok runtime =>
      simp only [ho, hv] at h ⊢
      have hcreated : r.metadata.created ≠ none := h.elim id created_of_timeless
      obtain ⟨time, htime⟩ := Option.ne_none_iff_exists'.mp hcreated
      exact repeatable_storeRollout htime o runtime

/-! ### Live pods -/

/-- The events of the restarts of a pod. -/
def restartEdits (p : Pod) (u : Uid .deploymentInstance) (platform : Bool) : List Edit :=
  (((restartsOf p.statuses platform).event? u platform).map report).toList

theorem edit_report (e : Event) : edit (report e) = storeRestarts e := by
  unfold storeRestarts report edit
  refine congrArg (Task.bind _) (funext fun stored => ?_)
  cases e.merge stored <;> rfl

theorem perform_restartEdits (p : Pod) (u : Uid .deploymentInstance) (platform : Bool) :
    perform (restartEdits p u platform) = storeRestarts? ((restartsOf p.statuses platform).event? u platform) := by
  unfold restartEdits
  cases (restartsOf p.statuses platform).event? u platform with
  | none => rfl
  | some e => exact (perform_singleton (report e)).trans (edit_report e)

theorem of_mem_restartEdits {p : Pod} {u : Uid .deploymentInstance} {platform : Bool} {e : Edit}
    (h : e ∈ restartEdits p u platform) : e.Steady ∧ e.key = (.event, (Uid.restarts u platform).text) := by
  obtain ⟨event, hevent, rfl⟩ := Option.map_eq_some_iff.mp (Option.mem_toList.mp h)
  obtain ⟨⟨first, last⟩, -, rfl⟩ := Option.map_eq_some_iff.mp hevent
  exact ⟨steady_report _, rfl⟩

theorem nodup_restartEdits (p : Pod) (u : Uid .deploymentInstance) (platform : Bool) :
    ((restartEdits p u platform).map key).Nodup := by
  unfold restartEdits
  cases ((restartsOf p.statuses platform).event? u platform).map report <;> simp

theorem compatible_restartEdits (p : Pod) (u : Uid .deploymentInstance) :
    Compatible (restartEdits p u true ++ restartEdits p u false) := by
  have hone : ∀ platform, Compatible (restartEdits p u platform) := fun platform =>
    ⟨fun e he => (of_mem_restartEdits he).1, nodup_restartEdits p u platform⟩
  refine (hone true).append (hone false) fun d hd e he hk => ?_
  rw [(of_mem_restartEdits hd).2, (of_mem_restartEdits he).2] at hk
  exact absurd (Uid.restarts_inj (Uid.eq_of_text (Prod.mk.inj hk).2)).2 (by decide)

theorem family_restartEdits {p : Pod} {u : Uid .deploymentInstance} {e : Edit}
    (h : e ∈ restartEdits p u true ++ restartEdits p u false) : e.key.1 = .event := by
  rcases List.mem_append.mp h with h | h
  · rw [(of_mem_restartEdits h).2]
  · rw [(of_mem_restartEdits h).2]

theorem edit_observe_bind {α : Type} (observed : DeploymentInstance) (k : Unit → Task α) :
    (edit (observe observed)).bind k = Task.bind (fetch .deploymentInstance observed.uid) fun stored =>
      Task.bind (store (observed.withStopped (stored.bind fun s => (DeploymentInstance.info s).stopped))) k :=
  bind_assoc _ _ _

/-- The instance that a pod shows which was started at a time. -/
def observedOf (p : Pod) (w : Workload) (prints : Fingerprints) (revision : String) (started : Timestamp) :
    DeploymentInstance :=
  let i := w.identity
  Entity.deploymentInstance (i.deployment revision) (p.metadata.uid.getD "") started
    (Entity.artifactConfiguration i.tenantId i.applicationId i.environment i.microserviceId prints.artifact).uid
    (Entity.runtimeConfiguration i.tenantId i.applicationId i.environment i.microserviceId prints.runtime).uid
    (w.spec.nodeName.map Uid.node)

/-- The edits of a workload, but for the restarts. -/
def instanceEdits (w : Workload) (prints : Fingerprints) (observed : DeploymentInstance) : List Edit :=
  let i := w.identity
  [.put (.runtimeConfiguration i.tenantId i.applicationId i.environment i.microserviceId prints.runtime),
    .put (.artifactConfiguration i.tenantId i.applicationId i.environment i.microserviceId prints.artifact),
    observe observed]

theorem compatible_instanceEdits (w : Workload) (prints : Fingerprints) (observed : DeploymentInstance) :
    Compatible (instanceEdits w prints observed) := by
  refine ⟨?_, by simp [instanceEdits, key, observe]⟩
  simp only [instanceEdits, List.forall_mem_cons, List.not_mem_nil, false_imp_iff, implies_true, and_true]
  exact ⟨trivial, trivial, steady_observe observed⟩

theorem storeWorkload_eq {p : Pod} {time : Timestamp} (h : p.metadata.created = some time) (w : Workload)
    (prints : Fingerprints) (revision : String) :
    storeWorkload p w prints revision = (perform (instanceEdits w prints (observedOf p w prints revision time))).bind
      fun _ => perform (restartEdits p (observedOf p w prints revision time).uid true ++
        restartEdits p (observedOf p w prints revision time).uid false) := by
  rw [perform_append, perform_restartEdits, perform_restartEdits]
  simp only [instanceEdits, perform, bind_assoc, edit_observe_bind]
  unfold storeWorkload
  rw [creationTime_of_created h]
  rfl

theorem repeatable_storeWorkload {p : Pod} {time : Timestamp} (h : p.metadata.created = some time) (w : Workload)
    (prints : Fingerprints) (revision : String) : (storeWorkload p w prints revision).Repeatable := by
  refine .inr ⟨_, (storeWorkload_eq h w prints revision).trans (perform_append _ _).symm, ?_⟩
  have hother : ∀ e ∈ instanceEdits w prints (observedOf p w prints revision time), e.key.1 ≠ .event := by
    simp [instanceEdits, key, observe]
  -- the events are stored after entities of other families
  refine (compatible_instanceEdits w prints _).append (compatible_restartEdits p _) fun d hd e he hk => ?_
  exact hother d hd ((congrArg Prod.fst hk).trans (family_restartEdits he))

theorem repeatable_updatePod {c : Caches} {p : Pod} (h : p.metadata.created ≠ none ∨ (updatePod c p).Timeless) :
    (updatePod c p).Repeatable := by
  unfold updatePod at h ⊢
  cases hw : workload? p with
  | none => exact repeatable_done
  | some w =>
    cases hprints : fingerprints c p.metadata.scopeName w.mounts with
    | error x => simp only [hprints]; exact .inl ⟨_, rfl⟩
    | ok prints =>
      cases howner : podOwner c.replicaSets p with
      | error x => simp only [hprints]; exact .inl ⟨_, rfl⟩
      | ok owner =>
        cases hrevision : owner.revision? with
        | none => simp only [hprints, Task.ofExcept, bind_eq, Task.bind, hrevision]; exact repeatable_done
        | some revision =>
          simp only [hw, hprints, howner, Task.ofExcept, bind_eq, Task.bind, hrevision] at h ⊢
          have hcreated : p.metadata.created ≠ none := h.elim id created_of_timeless
          obtain ⟨time, htime⟩ := Option.ne_none_iff_exists'.mp hcreated
          exact repeatable_storeWorkload htime w prints revision

/-! ### Pods that are gone -/

section Stop

variable {uid : Uid .deploymentInstance} {time : Timestamp} {s s' : Store} {i : DeploymentInstance}

theorem apply_stop (uid : Uid .deploymentInstance) (time : Timestamp) (s : Store) :
    (Edit.stop uid time).apply s = match s.read uid with
      | .error x => .error x
      | .ok none => .ok s
      | .ok (some i) =>
        if DeploymentInstance.isStopped i then .ok s
        else s.set .deploymentInstance (DeploymentInstance.stop i time).toRecord := by
  cases hread : s.read uid with
  | error x => simp only [Edit.stop, apply, hread]
  | ok stored =>
    cases stored with
    | none => simp only [Edit.stop, apply, hread, Option.bind_none]
    | some i =>
      simp only [Edit.stop, apply, hread, Option.bind_some]
      cases hstopped : DeploymentInstance.isStopped i <;> rfl

theorem apply_stop_of_none (h : s.read uid = .ok none) : (Edit.stop uid time).apply s = .ok s := by
  rw [apply_stop, h]

theorem apply_stop_of_isStopped (h : s.read uid = .ok (some i)) (hstopped : i.isStopped = true) :
    (Edit.stop uid time).apply s = .ok s := by
  rw [apply_stop, h]
  exact if_pos hstopped

theorem apply_stop_of_running (h : s.read uid = .ok (some i)) (hrunning : i.isStopped = false) :
    (Edit.stop uid time).apply s = s.set .deploymentInstance (i.withStopped (some time)).toRecord := by
  rw [apply_stop, h, ← DeploymentInstance.stop_of_running hrunning]
  exact if_neg (by rw [hrunning]; exact Bool.false_ne_true)

/-- **What stopping an instance comes to**: nothing when it is not stored or stopped already, else it is stored anew. -/
theorem apply_stop_cases (h : (Edit.stop uid time).apply s = .ok s') :
    (s' = s ∧ ∀ later, (Edit.stop uid later).apply s = .ok s) ∨
      ∃ i, s.read uid = .ok (some i) ∧ DeploymentInstance.isStopped i = false ∧
        s.set .deploymentInstance (DeploymentInstance.withStopped i (some time)).toRecord = .ok s' := by
  cases hread : s.read uid with
  | error x =>
    rw [apply_stop, hread] at h
    exact nomatch h
  | ok stored =>
    cases stored with
    | none =>
      rw [apply_stop_of_none hread] at h
      exact .inl ⟨(Except.ok.inj h).symm, fun _ => apply_stop_of_none hread⟩
    | some i =>
      cases hstopped : DeploymentInstance.isStopped i with
      | true =>
        rw [apply_stop_of_isStopped hread hstopped] at h
        exact .inl ⟨(Except.ok.inj h).symm, fun _ => apply_stop_of_isStopped hread hstopped⟩
      | false =>
        rw [apply_stop_of_running hread hstopped] at h
        exact .inr ⟨i, rfl, hstopped, h⟩

/-- **An instance that was stopped stays so**, at any later time. -/
theorem apply_stop_again (hs : s.Keyed) (h : (Edit.stop uid time).apply s = .ok s') (later : Timestamp) :
    (Edit.stop uid later).apply s' = .ok s' := by
  rcases apply_stop_cases h with ⟨rfl, hsame⟩ | ⟨i, hread, -, hset⟩
  · exact hsame later
  · obtain ⟨i', hread', hp⟩ := Store.read_set_self hset
    have hi : i.uid = uid := hs.read_uid hread
    have huid : (DeploymentInstance.withStopped i (some time)).uid = uid := hi
    have hinfo : DeploymentInstance.info i' = DeploymentInstance.info (DeploymentInstance.withStopped i (some time)) := hp
    have hstopped : DeploymentInstance.isStopped i' = true := by
      unfold DeploymentInstance.isStopped
      rw [hinfo]
      rfl
    rw [huid] at hread'
    exact apply_stop_of_isStopped hread' hstopped

end Stop

/-- **A run that makes one edit**: when it is good, the edit was made; when it failed, nothing was stored; and without
faults it is good if the edit can be made. -/
structure Makes (e : Edit) (site : Site) (run : Except Failure Unit × Site) : Prop where
  apply_of_ok : run.1 = .ok () → e.apply site.service.store = .ok run.2.service.store
  store_of_error : ∀ x, run.1 = .error x → run.2.service.store = site.service.store
  of_apply : site.service.faults = [] → ∀ s', e.apply site.service.store = .ok s' →
    run.1 = .ok () ∧ run.2.service.store = s'

namespace Makes

variable {e : Edit} {site after : Site}

theorem made (h : e.apply site.service.store = .ok after.service.store) : Makes e site (.ok (), after) where
  apply_of_ok _ := h
  store_of_error _ hx := nomatch hx
  of_apply _ _ hs' := ⟨rfl, Except.ok.inj (h.symm.trans hs')⟩

theorem failed {x : Failure} (hstore : after.service.store = site.service.store)
    (hno : site.service.faults = [] → ∀ s', e.apply site.service.store ≠ .ok s') : Makes e site (.error x, after) where
  apply_of_ok h := nomatch h
  store_of_error _ _ := hstore
  of_apply hfaults s' hs' := absurd hs' (hno hfaults s')

end Makes

/-- What is done about the instance of a pod that is gone, once it was looked up. -/
def stopStored : Option DeploymentInstance → Task Unit
  | none => done ()
  | some i => now fun time => if DeploymentInstance.isStopped i then done () else store (DeploymentInstance.stop i time)

theorem stopPod_of_some {c : Caches} {p : Pod} {uid : Uid .deploymentInstance} (huid : instanceOf? c p = some uid) :
    stopPod c p = Task.bind (fetch .deploymentInstance uid) stopStored := by
  unfold stopPod
  rw [huid]
  rfl

theorem makes_stopStored (cached : List Pod) (site : Site) {uid : Uid .deploymentInstance}
    {stored : Option DeploymentInstance} (hread : site.service.store.read uid = .ok stored) :
    Makes (Edit.stop uid site.time) site (run cached (stopStored stored) site) := by
  cases stored with
  | none => exact .made (apply_stop_of_none hread)
  | some i =>
    -- the clock is read, and then the instance is stored unless it is stopped already
    have hclock : run cached (stopStored (some i)) site = run cached (if DeploymentInstance.isStopped i then done () else
        store (DeploymentInstance.stop i site.time)) { site with reads := site.reads + 1 } := rfl
    rw [hclock]
    cases hstopped : DeploymentInstance.isStopped i with
    | true => exact .made (apply_stop_of_isStopped hread hstopped)
    | false =>
      have happly : (Edit.stop uid site.time).apply site.service.store = _ := apply_stop_of_running hread hstopped
      rw [if_neg Bool.false_ne_true, ← bind_done (store _), DeploymentInstance.stop_of_running hstopped]
      rcases answered_store cached (DeploymentInstance.withStopped i (some site.time)) done
        { site with reads := site.reads + 1 } with ⟨_, service, hset, -, hrun⟩ | ⟨x, service, hstore, hno, hrun⟩
      · rw [hrun]
        exact .made (happly.trans hset)
      · rw [hrun]
        refine .failed hstore fun hfaults s' hs' => hno hfaults () s' ?_
        exact happly.symm.trans hs'

/-- **A run for a pod that is gone stops its instance** at the time on the clock. -/
theorem makes_stopPod {c : Caches} {p : Pod} {uid : Uid .deploymentInstance} (huid : instanceOf? c p = some uid)
    (cached : List Pod) (site : Site) : Makes (Edit.stop uid site.time) site (run cached (stopPod c p) site) := by
  rw [stopPod_of_some huid]
  rcases answered_fetch cached uid stopStored site with
    ⟨stored, service, ⟨hread, hstore⟩, hfaults, hrun⟩ | ⟨x, service, hstore, hno, hrun⟩
  · rw [hrun]
    rw [← hstore] at hread
    have h := makes_stopStored cached { site with service } hread
    refine ⟨fun hok => ?_, fun x herror => ?_, fun hnil s' hs' => ?_⟩
    · rw [← hstore]
      exact h.apply_of_ok hok
    · exact (h.store_of_error x herror).trans hstore
    · rw [← hstore] at hs'
      exact h.of_apply (hfaults hnil) s' hs'
  · rw [hrun]
    refine .failed hstore fun hnil s' hs' => ?_
    obtain ⟨stored, hread, -⟩ := apply_revise_ok.mp hs'
    exact hno hnil stored _ ⟨hread, rfl⟩

/-- What comes of one store when an instance is stopped in it, at one time or at another. -/
def Store.SameButStop (s s₁ s₂ : Store) (time₁ time₂ : Timestamp) : Prop :=
  ∃ i : DeploymentInstance, i.isStopped = false ∧
    s.set .deploymentInstance (i.withStopped (some time₁)).toRecord = .ok s₁ ∧
    s.set .deploymentInstance (i.withStopped (some time₂)).toRecord = .ok s₂

theorem exists_sameButStop {s s₁ : Store} {i : DeploymentInstance} {time₁ : Timestamp} (hrunning : i.isStopped = false)
    (h : s.set .deploymentInstance (i.withStopped (some time₁)).toRecord = .ok s₁) (time₂ : Timestamp) :
    ∃ s₂, s.set .deploymentInstance (i.withStopped (some time₂)).toRecord = .ok s₂ ∧
      s.SameButStop s₁ s₂ time₁ time₂ := by
  have htakes : s.Takes .deploymentInstance (i.withStopped (some time₂)).toRecord :=
    Store.Takes.of_links ⟨s₁, h⟩ rfl rfl
  obtain ⟨s₂, h₂⟩ := htakes
  exact ⟨s₂, h₂, i, hrunning, h, h₂⟩

section Deletion

variable {c : Caches} {p : Pod} {cached : List Pod} {site site₁ site₂ : Site}

theorem stopPod_of_none (h : instanceOf? c p = none) : stopPod c p = done () := by
  unfold stopPod
  rw [h]

/-- **A deletion that was handled is handled for good.** -/
theorem stopPod_again (hs : site.service.store.Keyed) (hok : (run cached (stopPod c p) site).1 = .ok ())
    (hstore : site₁.service.store = (run cached (stopPod c p) site).2.service.store)
    (hfaults : site₁.service.faults = []) :
    (run cached (stopPod c p) site₁).1 = .ok () ∧
      (run cached (stopPod c p) site₁).2.service.store = site₁.service.store := by
  cases huid : instanceOf? c p with
  | none =>
    rw [stopPod_of_none huid]
    exact ⟨rfl, rfl⟩
  | some uid =>
    have hagain := apply_stop_again hs ((makes_stopPod huid cached site).apply_of_ok hok) site₁.time
    rw [← hstore] at hagain
    exact (makes_stopPod huid cached site₁).of_apply hfaults _ hagain

/-- **A deletion that could not be handled does no harm**: once it is, all is as if it had been at once, but for the time
of the stop. -/
theorem stopPod_resumed {x : Failure} (herror : (run cached (stopPod c p) site).1 = .error x)
    (hstore : site₁.service.store = (run cached (stopPod c p) site).2.service.store)
    (hok : (run cached (stopPod c p) site₁).1 = .ok ()) (hstore₂ : site₂.service.store = site.service.store)
    (hfaults : site₂.service.faults = []) :
    (run cached (stopPod c p) site₂).1 = .ok () ∧
      ((run cached (stopPod c p) site₂).2.service.store = (run cached (stopPod c p) site₁).2.service.store ∨
        site.service.store.SameButStop (run cached (stopPod c p) site₁).2.service.store
          (run cached (stopPod c p) site₂).2.service.store site₁.time site₂.time) := by
  cases huid : instanceOf? c p with
  | none =>
    rw [stopPod_of_none huid] at herror
    exact nomatch herror
  | some uid =>
    have hleft : site₁.service.store = site.service.store :=
      hstore.trans ((makes_stopPod huid cached site).store_of_error x herror)
    have happly := (makes_stopPod huid cached site₁).apply_of_ok hok
    rw [hleft] at happly
    have hsingle := (makes_stopPod huid cached site₂).of_apply hfaults
    rw [hstore₂] at hsingle
    rcases apply_stop_cases happly with ⟨hsame, hagain⟩ | ⟨i, hread, hrunning, hset⟩
    · obtain ⟨hok₂, hs₂⟩ := hsingle _ (hagain site₂.time)
      exact ⟨hok₂, .inl (hs₂.trans hsame.symm)⟩
    · obtain ⟨s₂, hset₂, hsame⟩ := exists_sameButStop hrunning hset site₂.time
      obtain ⟨hok₂, hs₂⟩ := hsingle s₂ ((apply_stop_of_running hread hrunning).trans hset₂)
      exact ⟨hok₂, .inr (hs₂ ▸ hsame)⟩

end Deletion

/-! ### All handlers -/

namespace Observed

/-- A live object says when it was made, as far as its handler asks for it: only those of replica sets and of pods do. -/
def Dated (k : Observed) (c : Caches) (o : k.Object) (deleted : Bool) : Prop :=
  deleted = false → k = .replicaSets ∨ k = .pods →
    (ClusterObject.metadata o).created ≠ none ∨ (k.handle c o deleted).Timeless

/-- **Calls but for the deletion of a pod make compatible edits.** -/
theorem repeatable_handle {k : Observed} {c : Caches} {o : k.Object} {deleted : Bool} (hdated : k.Dated c o deleted)
    (hk : ¬ (k = .pods ∧ deleted = true)) : (k.handle c o deleted).Repeatable := by
  cases k with
  | namespaces => exact repeatable_handleNamespace o deleted
  | nodes => exact repeatable_handleClusterNode o deleted
  | replicaSets =>
    cases deleted with
    | true => exact repeatable_done
    | false => exact repeatable_handleReplicaSet (hdated rfl (.inl rfl))
  | pods =>
    cases deleted with
    | true => exact absurd ⟨rfl, rfl⟩ hk
    | false => exact repeatable_updatePod (hdated rfl (.inr rfl))
  | events => exact repeatable_handleEvent c o deleted

/-- What a call of a handler comes to. -/
def call (k : Observed) (c : Caches) (o : k.Object) (deleted : Bool) (cached : List Pod) (site : Site) :
    Except Failure Unit × Site :=
  run cached (k.handle c o deleted) site

/-- **Calls of handlers may be made more than once.**  A call that was good is good again and changes nothing.  A call that
failed, at whichever of its calls of storage, and was good when it was made again later, has the outcome of a single call
without faults, but for the time at which the instance of a deleted pod was stopped. -/
theorem call_again (k : Observed) (c : Caches) (o : k.Object) (deleted : Bool) (cached : List Pod) (site : Site)
    (hdated : k.Dated c o deleted) (hkeyed : k = .pods → deleted = true → site.service.store.Keyed) :
    ((k.call c o deleted cached site).1 = .ok () → ∀ site₁ : Site,
      site₁.service.store = (k.call c o deleted cached site).2.service.store → site₁.service.faults = [] →
      (k.call c o deleted cached site₁).1 = .ok () ∧
        (k.call c o deleted cached site₁).2.service.store = site₁.service.store) ∧
    ∀ x, (k.call c o deleted cached site).1 = .error x → ∀ site₁ site₂ : Site,
      site₁.service.store = (k.call c o deleted cached site).2.service.store →
      (k.call c o deleted cached site₁).1 = .ok () →
      site₂.service.store = site.service.store → site₂.service.faults = [] →
      (k.call c o deleted cached site₂).1 = .ok () ∧
        ((k.call c o deleted cached site₂).2.service.store = (k.call c o deleted cached site₁).2.service.store ∨
          (k = .pods ∧ deleted = true ∧
            site.service.store.SameButStop (k.call c o deleted cached site₁).2.service.store
              (k.call c o deleted cached site₂).2.service.store site₁.time site₂.time)) := by
  unfold call
  by_cases hk : k = .pods ∧ deleted = true
  · obtain ⟨rfl, rfl⟩ := hk
    refine ⟨fun hok site₁ hstore hfaults => stopPod_again (hkeyed rfl rfl) hok hstore hfaults, ?_⟩
    intro x herror site₁ site₂ hstore hok hstore₂ hfaults
    obtain ⟨hok₂, hsame | hstop⟩ := stopPod_resumed herror hstore hok hstore₂ hfaults
    · exact ⟨hok₂, .inl hsame⟩
    · exact ⟨hok₂, .inr ⟨rfl, rfl, hstop⟩⟩
  · have ht := repeatable_handle hdated hk
    refine ⟨fun hok site₁ hstore hfaults => ht.run_again hok hstore hfaults, ?_⟩
    intro x herror site₁ site₂ hstore hok hstore₂ hfaults
    obtain ⟨hok₂, hsame⟩ := ht.run_resumed herror hstore hok hstore₂ hfaults
    exact ⟨hok₂, .inl hsame⟩

end Observed

/-- Storage that refuses the next write. -/
def downSite : Site :=
  { Site.on shopStore fun _ => .epoch with service := ⟨shopStore, [⟨.set, none, 0, "down"⟩], []⟩ }

def shopDeletion (site : Site) : Except Failure Unit × Site := Observed.call .pods shopCaches shopPod true [] site

theorem exists_shopDeletion_error : ∃ x, (shopDeletion downSite).1 = .error x := by
  have hnone : (shopDeletion downSite).1.toOption = none := by decide +kernel
  cases hr : (shopDeletion downSite).1 with
  | error x => exact ⟨x, rfl⟩
  | ok _ =>
    rw [hr] at hnone
    exact nomatch hnone

theorem eq_ok_of_toOption {ε α : Type} {x : Except ε α} {a : α} (h : x.toOption = some a) : x = .ok a := by
  cases x with
  | error e => exact nomatch h
  | ok b => exact congrArg Except.ok (Option.some.inj h)

theorem shopDeletion_ok : (shopDeletion (.on shopStore fun _ => .epoch)).1 = .ok () :=
  eq_ok_of_toOption (by decide +kernel)

/-- A deletion that could not be stored can be made again, and could have been made at any time. -/
theorem call_again_deletion :
    (∃ x, (shopDeletion downSite).1 = .error x) ∧ ∀ clock, (shopDeletion (.on shopStore clock)).1 = .ok () := by
  have hleft : (shopDeletion downSite).2.service.store = shopStore := by decide +kernel
  refine ⟨exists_shopDeletion_error, fun clock => ?_⟩
  obtain ⟨x, herror⟩ := exists_shopDeletion_error
  obtain ⟨-, hresumed⟩ := Observed.call_again .pods shopCaches shopPod true [] downSite nofun
    fun _ _ => reached_shopStore.filed.keyed
  exact (hresumed x herror (.on shopStore fun _ => .epoch) (.on shopStore clock) hleft.symm shopDeletion_ok rfl rfl).1

end FleetAtlas
