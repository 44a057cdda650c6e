import FleetAtlas.Proofs.Handler.Redelivery

/-!
# Handlers of different kinds

* `Observed.not_concerns_of_ne`: no uid concerns two kinds; only pods and events share a family, and there the uids start
  differently (`Uid.clusterEvent_ne_restarts`);
* `instanceOf?_of_workload?`, `exists_of_instanceOf?`: what the uid of an instance is made of;
* `within_updatePod`: a live pod is handled within its footprint;
* `within_handle`: no handler has to do with anything but what concerns its kind, whatever is stored and cached;
* `Observed.call_comm`: **objects of different kinds may be handled in either order**.
-/

namespace FleetAtlas

open FleetAtlas.Task

/-! ### What concerns two kinds -/

namespace Observed

/-- **Handlers of different kinds have nothing to do with each other.** -/
theorem not_concerns_of_ne {k l : Observed} (hkl : k ≠ l) {f : Family} {uid : String} (h : k.Concerns f uid) :
    ¬ l.Concerns f uid := by
  intro h'
  cases f
  case event =>
    rcases h with ⟨hk, u, platform, rfl⟩ | ⟨hk, id, rfl⟩
    · rcases h' with ⟨hl, -⟩ | ⟨-, id, huid⟩
      · exact hkl (hk.trans hl.symm)
      · exact Uid.clusterEvent_ne_restarts id u platform huid.symm
    · rcases h' with ⟨-, u, platform, huid⟩ | ⟨hl, -⟩
      · exact Uid.clusterEvent_ne_restarts id u platform huid
      · exact hkl (hk.trans hl.symm)
  all_goals exact hkl (Eq.trans h (Eq.symm h'))

end Observed

/-! ### Pods -/

section Within

variable {P : Family → String → Prop}

theorem within_storeRestarts {e : Event} (h : P .event e.uid.text) : (storeRestarts e).Within P := by
  refine (within_fetch h).bind fun stored => ?_
  cases hmerge : Event.merge e stored with
  | none => trivial
  | some merged =>
    have huid : merged.uid = e.uid := (Edit.uid_and_count_of_merge hmerge).1
    exact within_store (huid ▸ h)

theorem within_storeRestarts? (r : Restarts) {u : Uid .deploymentInstance} {platform : Bool}
    (h : P .event (Uid.restarts u platform).text) : (storeRestarts? (r.event? u platform)).Within P := by
  cases hevent : r.event? u platform with
  | none => trivial
  | some e =>
    obtain ⟨span, -, rfl⟩ := Option.map_eq_some_iff.mp hevent
    exact within_storeRestarts h

end Within

theorem within_storeWorkload (p : Pod) (w : Workload) (prints : Fingerprints) (revision : String) :
    (storeWorkload p w prints revision).Within fun f uid =>
      Observed.Concerns .pods f uid ∧ Writable w.identity.tenantId f uid := by
  have henvironment := w.identity.under_environment
  have hruntime : Under w.identity.tenantId (Uid.runtimeConfiguration w.identity.tenantId w.identity.applicationId
      w.identity.environment w.identity.microserviceId prints.runtime).text :=
    (henvironment.slash _).slash _
  have hartifact : Under w.identity.tenantId (Uid.artifactConfiguration w.identity.tenantId w.identity.applicationId
      w.identity.environment w.identity.microserviceId prints.artifact).text :=
    (henvironment.slash _).slash _
  have hinstance := w.identity.under_instanceUid revision (p.metadata.uid.getD "")
  unfold storeWorkload
  refine (within_store ⟨rfl, .inl hruntime⟩).bind fun _ => ?_
  refine (within_store ⟨rfl, .inl hartifact⟩).bind fun _ => ?_
  refine (stores_creationTime p.metadata).within.bind fun started => ?_
  refine (within_fetch ⟨rfl, .inl hinstance⟩).bind fun stored => ?_
  refine (within_store ⟨rfl, .inl hinstance⟩).bind fun _ => ?_
  refine (within_storeRestarts? _ ⟨.inl ⟨rfl, _, _, rfl⟩, .inl (hinstance.restarts true)⟩).bind fun _ => ?_
  exact within_storeRestarts? _ ⟨.inl ⟨rfl, _, _, rfl⟩, .inl (hinstance.restarts false)⟩

theorem identity_of_workload? {p : Pod} {w : Workload} (h : workload? p = some w) :
    Identity.ofMetadata? p.metadata = some w.identity := by
  simp only [workload?, Option.bind_eq_bind, Option.bind_eq_some_iff] at h
  obtain ⟨i, hi, _, -, _, -, _, -, hsome⟩ := h
  rw [hi, ← Option.some.inj hsome]

/-- The instance of a pod is named for its workload and the revision of its owner. -/
theorem instanceOf?_of_workload? {c : Caches} {p : Pod} {w : Workload} {owner : ReplicaSet} (hw : workload? p = some w)
    (howner : podOwner c.replicaSets p = .ok owner) : instanceOf? c p = owner.revision?.map fun revision =>
      w.identity.instanceUid revision (p.metadata.uid.getD "") := by
  unfold instanceOf?
  rw [identity_of_workload? hw, howner]

/-- **What an instance's uid is made of.** -/
theorem exists_of_instanceOf? {c : Caches} {p : Pod} {u : Uid .deploymentInstance} (h : instanceOf? c p = some u) :
    ∃ identity owner revision, Identity.ofMetadata? p.metadata = some identity ∧
      podOwner c.replicaSets p = .ok owner ∧ owner.revision? = some revision ∧
      u = .deploymentInstance (identity.deployment revision) (p.metadata.uid.getD "") := by
  unfold instanceOf? at h
  split at h
  · next identity owner hidentity howner =>
    obtain ⟨revision, hrevision, rfl⟩ := Option.map_eq_some_iff.mp h
    exact ⟨identity, owner, revision, hidentity, howner, hrevision, rfl⟩
  · exact nomatch h

theorem within_updatePod (c : Caches) (p : Pod) : (updatePod c p).Within (Observed.Footprint c .pods p) := by
  unfold updatePod
  cases hw : workload? p with
  | none => trivial
  | some w =>
    refine (within_ofExcept _).bind fun prints => ?_
    refine (within_ofExcept _).bind fun owner => ?_
    split
    · trivial
    · refine (within_storeWorkload _ _ _ _).mono ?_
      rintro f uid ⟨hconcerns, hwritable⟩
      refine ⟨hconcerns, fun tenant htenant => ?_⟩
      rw [← tenantId_of_identity htenant (identity_of_workload? hw)]
      exact hwritable

/-- The instance that is stopped is stored under the uid that it was read with, whatever that is. -/
theorem within_stopPod (c : Caches) (p : Pod) : (stopPod c p).Within (Observed.Concerns .pods) := by
  unfold stopPod
  split
  · trivial
  · refine (within_fetch rfl).bind fun stored => ?_
    cases stored with
    | none => trivial
    | some i =>
      intro time
      simp only [Task.bind]
      split
      · trivial
      · exact within_store rfl

/-! ### Either order -/

namespace Observed

/-- **A handler has to do with what concerns its kind, and with nothing else.** -/
theorem within_handle (c : Caches) (k : Observed) (o : k.Object) (deleted : Bool) :
    (k.handle c o deleted).Within k.Concerns := by
  by_cases hk : k = pods
  · subst hk
    cases deleted with
    | false => exact (within_updatePod c o).mono fun _ _ hfootprint => hfootprint.concerns
    | true => exact within_stopPod c o
  · exact (stores_handle c hk o deleted).within.mono fun _ _ hfootprint => hfootprint.concerns

/-- **Objects of different kinds may be handled in either order.**  As long as no call of storage fails and the clock
stands still, each call has the result that it has without the other, and the same is stored in the end. -/
theorem call_comm {k l : Observed} (hkl : k ≠ l) (c : Caches) (o : k.Object) (p : l.Object) (deleted gone : Bool)
    (cached : List Pod) (site : Site) (hfaults : site.service.faults = [])
    (hclock : ∀ n, site.clock n = site.clock 0) :
    (k.call c o deleted cached (l.call c p gone cached site).2).1 = (k.call c o deleted cached site).1 ∧
      (l.call c p gone cached (k.call c o deleted cached site).2).1 = (l.call c p gone cached site).1 ∧
      (k.call c o deleted cached (l.call c p gone cached site).2).2.service.store =
        (l.call c p gone cached (k.call c o deleted cached site).2).2.service.store := by
  have hcalm : site.Calm ⟨cached, site.clock 0, site.stopping⟩ := ⟨hfaults, hclock, rfl⟩
  obtain ⟨hresult, hstore, hafter⟩ := run_calm (k.handle c o deleted) hcalm
  obtain ⟨hresult', hstore', hafter'⟩ := run_calm (l.handle c p gone) hcalm
  have hsecond := run_calm (l.handle c p gone) hafter
  have hsecond' := run_calm (k.handle c o deleted) hafter'
  rw [hstore] at hsecond
  rw [hstore'] at hsecond'
  obtain ⟨h₁, h₂, h₃⟩ := outcome_comm (within_handle c k o deleted) (within_handle c l p gone)
    (fun _ _ => not_concerns_of_ne hkl) site.service.store
  unfold call
  exact ⟨(hsecond'.1.trans h₁).trans hresult.symm, (hsecond.1.trans h₂).trans hresult'.symm,
    (hsecond'.2.1.trans h₃).trans hsecond.2.1.symm⟩

end Observed

/-! ### A namespace and a replica set in it -/

def shopMarks : Dict String String :=
  .ofList [("dolittle.io/tenant-id", "t"), ("dolittle.io/application-id", "a"), ("dolittle.io/microservice-id", "m")]

def shopNamespace : Namespace where
  metadata := { Metadata.empty with name := some "prod", annotations := shopMarks, labels := .ofList [("tenant", "T")] }

/-- A replica set of the shop that says which images it runs. -/
def imagedReplicaSet : ReplicaSet where
  metadata := { Metadata.empty with
    name := some "shop", scope := some "prod"
    annotations := shopMarks.insert "deployment.kubernetes.io/revision" "4"
    labels := .ofList [("environment", "Dev"), ("microservice", "Shop")] }
  template := some {
    containers := [⟨runtimeContainer, some "dolittle/runtime:7.8.1", []⟩, ⟨headContainer, some "shop:1", []⟩]
    volumes := []
    nodeName := none }

/-- A graph without nodes, where no time passes. -/
def graphSite : Site := .on (.graph .empty) fun _ => .epoch

def namespaceCall (site : Site) : Except Failure Unit × Site :=
  Observed.call .namespaces shopCaches shopNamespace false [] site

def replicaSetCall (site : Site) : Except Failure Unit × Site :=
  Observed.call .replicaSets shopCaches imagedReplicaSet false [] site

/-- The one call makes stubs of what the other stores, if it comes first. -/
theorem call_comm_rollout :
    Observed.namespaces ≠ .replicaSets ∧ (graphSite.service.faults = [] ∧ ∀ n, graphSite.clock n = graphSite.clock 0) ∧
      (replicaSetCall graphSite).2.service.store ≠ (namespaceCall (replicaSetCall graphSite).2).2.service.store ∧
      (namespaceCall (replicaSetCall graphSite).2).2.service.store =
        (replicaSetCall (namespaceCall graphSite).2).2.service.store := by
  have hne : Observed.namespaces ≠ .replicaSets := by decide
  have hcalm : graphSite.service.faults = [] ∧ ∀ n, graphSite.clock n = graphSite.clock 0 := ⟨rfl, fun _ => rfl⟩
  obtain ⟨-, -, hstore⟩ := Observed.call_comm hne shopCaches shopNamespace imagedReplicaSet false false [] graphSite
    hcalm.1 hcalm.2
  exact ⟨hne, hcalm, by decide +kernel, hstore⟩

end FleetAtlas
