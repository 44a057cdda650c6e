import FleetAtlas.Proofs.Handler.Independence
import FleetAtlas.Proofs.Task.Journal

/-!
# What is written of instances

* `DeploymentInstance.deployment`: what an instance is an instance of; `Store.fetch?_set_instance`: what is read of one that
  was just stored;
* `InstanceWrites V`: writes of entities, of an instance only if `V` admits it for what is stored;
  `InstanceWrites.exists_of_last`: what is read of an instance after such writes;
* `LiveWrite`, `StopWrite`: the instance of a live pod, which carries over the time of a stop; a running instance as it is
  stored, with a time of its stop;
* `writes_updatePod_instance`, `writes_stopPod_instance`, `writes_sweep_instance`, `Job.writes_instances`: **a live pod is
  written as its own instance, a deletion and a sweep write stops, and no other job writes an instance.**
-/

namespace FleetAtlas

open FleetAtlas.Task

/-- The deployment that an instance is an instance of. -/
def DeploymentInstance.deployment (i : DeploymentInstance) : Uid .deployment := DeploymentInstanceLinks.instanceOf i.links

theorem DeploymentInstance.get?_instanceOf {r : Record} {i : DeploymentInstance}
    (h : Entity.ofRecord? .deploymentInstance r = some i) : r.links.get? "instanceOf" = some i.deployment.text :=
  Entity.get?_links_of_ofRecord? h List.mem_cons_self

/-- **What is read of an instance that was just stored.** -/
theorem Store.fetch?_set_instance {s s' : Store} {i : DeploymentInstance}
    (h : s.set .deploymentInstance i.toRecord = .ok s') : ∃ i' : DeploymentInstance, s'.fetch? i.uid = some i' ∧
      i'.uid = i.uid ∧ i'.info = i.info ∧ i'.deployment = i.deployment := by
  obtain ⟨r, hget, hcovers⟩ := covers_get_set h
  obtain ⟨i', hread, hproperties⟩ := hcovers.exists_ofRecord?
  have hlink : r.links.get? "instanceOf" = some i.deployment.text := hcovers.get?_links List.mem_cons_self
  rw [DeploymentInstance.get?_instanceOf hread] at hlink
  refine ⟨i', by simp only [fetch?, hget, hread], ?_, hproperties, Uid.eq_of_text (Option.some.inj hlink)⟩
  exact Uid.eq_of_text ((uid_of_ofRecord? hread).trans hcovers.uid)

/-! ### Writes -/

/-- Writes of entities, of an instance only if `V` admits it for what is stored. -/
def InstanceWrites (V : Store → DeploymentInstance → Prop) (s : Store) : Family → Record → Prop
  | .deploymentInstance, r => ∃ i : DeploymentInstance, r = i.toRecord ∧ V s i
  | f, r => ∃ e : Entity f, r = e.toRecord

/-- **The instance of a live pod**, named for the revision of the owner and the pod; whether it is stopped is carried
over. -/
structure LiveWrite (c : Caches) (p : Pod) (s : Store) (i : DeploymentInstance) : Prop where
  shown : instanceOf? c p = some i.uid
  id : i.info.id = p.metadata.uid.getD ""
  stopped : i.info.stopped = s.stopTime? i.uid
  deployment : i.uid = .deploymentInstance i.deployment i.info.id

/-- **A stop**: an instance that runs, as it is stored, gets a time of its stop, and nothing else changes. -/
def StopWrite (s : Store) (i : DeploymentInstance) : Prop :=
  ∃ (old : DeploymentInstance) (time : Timestamp),
    s.fetch? i.uid = some old ∧ old.isStopped = false ∧ i = old.withStopped (some time)

variable {V : Store → DeploymentInstance → Prop} {L : List Pod → Prop} {s : Store}

theorem instanceWrites_of_ne {f : Family} (hf : f ≠ .deploymentInstance) (e : Entity f) :
    InstanceWrites V s f e.toRecord := by
  cases f
  case deploymentInstance => exact absurd rfl hf
  all_goals exact ⟨e, rfl⟩

/-- **What is read in the end** of an instance is what was written last. -/
theorem InstanceWrites.exists_of_last {s' s₁ s₂ : Store} {r : Record} {u : Uid .deploymentInstance}
    (h : Trace.Last (InstanceWrites V) s .deploymentInstance u.text s' s₁ r s₂) : ∃ i i' : DeploymentInstance,
      V s₁ i ∧ i.uid = u ∧ s'.fetch? u = some i' ∧ i'.uid = u ∧ i'.info = i.info ∧ i'.deployment = i.deployment := by
  obtain ⟨i, rfl, hi⟩ := h.admitted
  obtain rfl : i.uid = u := Uid.eq_of_text h.uid_eq
  obtain ⟨i', hfetch, hread⟩ := Store.fetch?_set_instance h.set
  exact ⟨i, i', hi, rfl, (Store.fetch?_congr h.get_eq).trans hfetch, hread⟩

/-! ### The handler of pods -/

theorem writes_store_noInstance {f : Family} (hf : f ≠ .deploymentInstance) (e : Entity f) :
    (store e).Writes (InstanceWrites V) L (fun _ _ => True) s :=
  writes_store (instanceWrites_of_ne hf e) fun _ _ => trivial

theorem writes_storeRestarts?_noInstance (e : Option Event) :
    (storeRestarts? e).Writes (InstanceWrites V) L (fun _ _ => True) s := by
  cases e with
  | none => trivial
  | some e =>
    have hfetched : (fetch .event e.uid).Writes (InstanceWrites V) L (fun _ _ => True) s := writes_fetch fun _ _ => trivial
    refine hfetched.bind fun stored s' _ => ?_
    cases Event.merge e stored with
    | none => trivial
    | some merged => exact writes_store_noInstance (by decide) merged

/-- The observed instance carries over the time that was read. -/
theorem writes_storeOver_instance {observed : DeploymentInstance} (a b : Option Event)
    (hV : V s (observed.withStopped (s.stopTime? observed.uid))) :
    (storeOver observed a b).Writes (InstanceWrites V) L (fun _ _ => True) s := by
  have hfetched : (fetch .deploymentInstance observed.uid).Writes (InstanceWrites V) L
      (fun stored s' => s' = s ∧ (stored.bind fun i => (DeploymentInstance.info i).stopped) = s.stopTime? observed.uid) s := by
    refine writes_fetch fun stored hread => ⟨rfl, ?_⟩
    unfold Store.stopTime? Store.info?
    rw [Store.fetch?_of_read hread]
    cases stored <;> rfl
  refine hfetched.bind ?_
  rintro stored s' ⟨rfl, hstopped⟩
  rw [hstopped]
  refine (writes_store (Q := fun _ _ => True) ⟨_, rfl, hV⟩ fun _ _ => trivial).bind fun _ _ _ => ?_
  exact (writes_storeRestarts?_noInstance a).bind fun _ _ _ => writes_storeRestarts?_noInstance b

/-- **A live pod is written as its own instance.** -/
theorem writes_updatePod_instance (c : Caches) (p : Pod) :
    (updatePod c p).Writes (InstanceWrites (LiveWrite c p)) L (fun _ _ => True) s := by
  unfold updatePod
  cases hw : workload? p with
  | none => trivial
  | some w =>
    refine Writes.bind (writes_ofExcept _) fun prints _ _ => ?_
    refine Writes.bind (writes_ofExcept _) fun owner s' howner => ?_
    cases hrevision : owner.revision? with
    | none => trivial
    | some revision =>
      have hshown := instanceOf?_of_workload? hw howner.1
      rw [hrevision] at hshown
      refine (writes_store_noInstance (by decide) _).bind fun _ _ _ => ?_
      refine (writes_store_noInstance (by decide) _).bind fun _ _ _ => ?_
      have hcreated : (creationTime p.metadata).Stores fun _ _ => False := stores_creationTime p.metadata
      refine (hcreated.writes (fun _ _ _ h => h.elim) _).bind fun started s'' _ => ?_
      exact writes_storeOver_instance _ _ ⟨hshown, rfl, rfl, rfl⟩

/-- **A pod that is gone has its instance stopped**, as it is stored. -/
theorem writes_stopPod_instance (c : Caches) (p : Pod) (hs : s.Filed) :
    (stopPod c p).Writes (InstanceWrites StopWrite) L (fun _ _ => True) s := by
  unfold stopPod
  split
  · trivial
  · next u _ =>
    have hfetched : (fetch .deploymentInstance u).Writes (InstanceWrites StopWrite) L
        (fun stored s' => s' = s ∧ s.fetch? u = stored) s :=
      writes_fetch fun _ hread => ⟨rfl, Store.fetch?_of_read hread⟩
    refine hfetched.bind ?_
    rintro stored s' ⟨rfl, hstored⟩
    cases stored with
    | none => trivial
    | some i =>
      intro time
      simp only [Task.bind]
      split
      · trivial
      · next hrunning =>
        have hrunning : DeploymentInstance.isStopped i = false := by simpa using hrunning
        have huid : i.uid = u := hs.fetch?_uid hstored
        rw [DeploymentInstance.stop_of_running hrunning]
        refine writes_store ⟨_, rfl, i, time, ?_, hrunning, rfl⟩ fun _ _ => trivial
        rw [← hstored, ← huid]
        rfl

/-! ### The sweep -/

/-- **What is stopped of the instances that are left**, which are stored as they were read. -/
theorem writes_sweepInstances_instance (live : List String) (instances : List DeploymentInstance)
    (hstored : ∀ i ∈ instances, s.fetch? i.uid = some i)
    (hdistinct : instances.Pairwise fun i j => i.uid.text < j.uid.text) :
    (sweepInstances live instances).Writes (InstanceWrites StopWrite) L (fun _ _ => True) s := by
  induction instances generalizing s with
  | nil => trivial
  | cons i rest ih =>
    obtain ⟨hi, hrest⟩ := List.forall_mem_cons.mp hstored
    obtain ⟨hlt, hdistinct⟩ := List.pairwise_cons.mp hdistinct
    intro flag
    cases flag with
    | true => trivial
    | false =>
      show (if i.isStopped || live.contains i.info.id then sweepInstances live rest else _ : Task Unit).Writes _ _ _ _
      split
      · exact ih hrest hdistinct
      · next hskip =>
        have hrunning : i.isStopped = false := by simp_all
        intro time
        have hstop : (store (i.stop time)).Writes (InstanceWrites StopWrite) L
            (fun _ s' => ∀ j ∈ rest, s'.fetch? j.uid = some j) s := by
          rw [DeploymentInstance.stop_of_running hrunning]
          refine writes_store ⟨_, rfl, i, time, hi, hrunning, rfl⟩ fun s' hset j hj => ?_
          -- the others have uids of their own
          rw [← hrest j hj]
          refine Store.fetch?_set_of_ne hset ?_
          rintro ⟨-, huid⟩
          have hne := hlt j hj
          rw [huid] at hne
          exact LinearKey.irrefl _ hne
        exact hstop.bind fun _ s' hrest' => ih hrest' hdistinct

theorem writes_sweep_instance (hs : s.Filed) : sweep.Writes (InstanceWrites StopWrite) L (fun _ _ => True) s := by
  intro flag
  cases flag with
  | true => trivial
  | false =>
    intro rs hlist
    refine Writes.bind (writes_decodeAll _ rs) ?_
    rintro running s' ⟨rfl, huids, hread⟩ pods -
    obtain ⟨rs', hlist', hmem⟩ := hs.exists_list .deploymentInstance (.unset "stopped")
    obtain rfl : rs' = rs := Except.ok.inj (hlist'.symm.trans hlist)
    refine writes_sweepInstances_instance _ running (fun i hi => ?_) ?_
    · obtain ⟨r, hr, hi⟩ := hread i hi
      have hget := ((hmem r).mp hr).1
      rw [← Store.uid_of_ofRecord? hi] at hget
      simp only [Store.fetch?, hget, hi]
    · have hsorted := List.pairwise_map.mpr (hs.sorted_list hlist)
      rw [← huids] at hsorted
      exact List.pairwise_map.mp hsorted

/-! ### Jobs -/

namespace Job

/-- What a job may write of an instance. -/
def InstanceWrite : Job → Store → DeploymentInstance → Prop
  | call c .pods p deleted => if deleted then StopWrite else LiveWrite c p
  | call .. => fun _ _ => False
  | sweep _ => StopWrite

theorem InstanceWrite.cases {j : Job} {i : DeploymentInstance} (h : j.InstanceWrite s i) :
    StopWrite s i ∨ ∃ c p, j = .call c .pods p false ∧ LiveWrite c p s i := by
  cases j with
  | call c k o deleted =>
    cases k
    case pods =>
      cases deleted with
      | false => exact .inr ⟨c, o, rfl, h⟩
      | true => exact .inl h
    all_goals exact h.elim
  | sweep cached => exact .inl h

/-- **A live pod is written as its own instance, a deletion and a sweep write stops, and no other job writes an
instance.** -/
theorem writes_instances (j : Job) (hs : s.Filed) :
    j.task.Writes (InstanceWrites j.InstanceWrite) (· = j.cached) (fun _ _ => True) s := by
  cases j with
  | call c k o deleted =>
    by_cases hk : k = .pods
    · subst hk
      cases deleted with
      | false => exact writes_updatePod_instance c o
      | true => exact writes_stopPod_instance c o hs
    · refine (Observed.stores_handle c hk o deleted).writes (fun s f e hfootprint => ?_) s
      refine instanceWrites_of_ne ?_ e
      rintro rfl
      exact hk hfootprint.concerns
  | sweep cached => exact writes_sweep_instance hs

end Job

end FleetAtlas
