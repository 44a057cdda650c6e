import FleetAtlas.Fleet.Observed
import FleetAtlas.Proofs.Entity.Uid
import FleetAtlas.Proofs.Task.Stores

/-!
# Where handlers store

* `Observed.Concerns`: the uids that the handler of a kind reads and writes;
* `Under tenant uid`: a uid is the id of a tenant, or starts with it and a slash; `Belongs tenant f uid`: what is stored for
  a tenant;
* `Observed.tenant?`: the tenant that an object says it belongs to;
* `Observed.Footprint`: where a call for an object stores;
* `Observed.stores_handle`: **a handler other than that of pods does nothing but store entities there**.

What handlers keep, what they spare and in which order they may run comes from their footprints.
-/

namespace FleetAtlas

open FleetAtlas.Task

/-! ### Kinds -/

namespace Observed

/-- The handler of a kind reads and writes what is stored under a uid. -/
def Concerns (k : Observed) : Family → String → Prop
  | .node, _ => k = nodes
  | .customer, _ | .application, _ => k = namespaces
  | .environment, _ | .artifact, _ | .artifactVersion, _ | .runtimeVersion, _ | .deployment, _ => k = replicaSets
  | .artifactConfiguration, _ | .runtimeConfiguration, _ | .deploymentInstance, _ => k = pods
  | .event, uid => (k = pods ∧ ∃ u platform, uid = (Uid.restarts u platform).text) ∨
    (k = events ∧ ∃ id, uid = (Uid.clusterEvent id).text)

end Observed

/-! ### Tenants -/

/-- A uid is the id of a tenant, or it starts with this and a slash. -/
def Under (tenant uid : String) : Prop := uid = tenant ∨ tenant.toList ++ ['/'] <+: uid.toList

instance (tenant uid : String) : Decidable (Under tenant uid) :=
  inferInstanceAs (Decidable (uid = tenant ∨ tenant.toList ++ ['/'] <+: uid.toList))

/-- What is stored for a tenant; of the events, those of the restarts of its instances. -/
def Belongs (tenant : String) : Family → String → Prop
  | .node, _ | .runtimeVersion, _ => False
  | .event, uid => "restart/".toList ++ tenant.toList ++ ['/'] <+: uid.toList
  | .customer, uid | .application, uid | .environment, uid | .artifact, uid | .artifactVersion, uid | .deployment, uid
  | .artifactConfiguration, uid | .runtimeConfiguration, uid | .deploymentInstance, uid => Under tenant uid

instance (tenant : String) : (f : Family) → (uid : String) → Decidable (Belongs tenant f uid)
  | .node, _ | .runtimeVersion, _ => inferInstanceAs (Decidable False)
  | .event, uid => inferInstanceAs (Decidable ("restart/".toList ++ tenant.toList ++ ['/'] <+: uid.toList))
  | .customer, uid | .application, uid | .environment, uid | .artifact, uid | .artifactVersion, uid | .deployment, uid
  | .artifactConfiguration, uid | .runtimeConfiguration, uid | .deploymentInstance, uid =>
    inferInstanceAs (Decidable (Under tenant uid))

/-- What a call for an object of a tenant may write: what belongs to the tenant, a version of the runtime, or an event that
the cluster reported. -/
def Writable (tenant : String) (f : Family) (uid : String) : Prop :=
  Belongs tenant f uid ∨ f = .runtimeVersion ∨ (f = .event ∧ ∃ id, uid = (Uid.clusterEvent id).text)

section Under

variable {tenant uid : String}

theorem under_self (tenant : String) : Under tenant tenant := .inl rfl

theorem Under.slash (h : Under tenant uid) (part : String) : Under tenant (uid ++ "/" ++ part) := by
  have hchars : (uid ++ "/" ++ part).toList = uid.toList ++ ['/'] ++ part.toList := by simp
  right
  rw [hchars]
  rcases h with rfl | h
  · exact List.prefix_append _ _
  · have hlong : uid.toList <+: uid.toList ++ ['/'] ++ part.toList := by
      rw [List.append_assoc]
      exact List.prefix_append _ _
    exact h.trans hlong

theorem Under.restarts {u : Uid .deploymentInstance} (h : Under tenant u.text) (platform : Bool) :
    Belongs tenant .event (Uid.restarts u platform).text := by
  show "restart/".toList ++ tenant.toList ++ ['/'] <+: _
  rw [Uid.toList_restarts, List.append_assoc, List.prefix_append_right_inj]
  rcases h with hself | hprefix
  · rw [hself]
    exact List.prefix_append _ _
  · rw [List.append_assoc]
    exact hprefix.trans (List.prefix_append _ _)

/-- The uids of a microservice start with the id of its tenant. -/
theorem Identity.under_environment (i : Identity) :
    Under i.tenantId (Uid.environment i.tenantId i.applicationId i.environment).text :=
  ((under_self i.tenantId).slash i.applicationId).slash i.environment

theorem Identity.under_instanceUid (i : Identity) (revision podUid : String) :
    Under i.tenantId (i.instanceUid revision podUid).text :=
  (i.under_environment.slash revision).slash podUid

end Under

/-- The tenant that an object says it belongs to: its own, or that of the cached pod that an event is about. -/
def Observed.tenant? (c : Caches) : (k : Observed) → k.Object → Option String
  | .namespaces, (n : Namespace) => n.metadata.annotation? tenantIdAnnotation
  | .nodes, _ => none
  | .replicaSets, (r : ReplicaSet) => r.metadata.annotation? tenantIdAnnotation
  | .pods, (p : Pod) => p.metadata.annotation? tenantIdAnnotation
  | .events, (e : ClusterEvent) =>
    (c.pods.lookup (e.involved.scope.getD "") (e.involved.name.getD "")).bind fun p =>
      p.metadata.annotation? tenantIdAnnotation

theorem tenantId_of_tenancy {m : Metadata} {tenant : String} {t : Tenancy}
    (htenant : m.annotation? tenantIdAnnotation = some tenant) (h : Tenancy.ofMetadata? m = some t) :
    t.tenantId = tenant := by
  obtain ⟨tenantId, hid, h⟩ := Option.bind_eq_some_iff.mp h
  obtain ⟨applicationId, -, h⟩ := Option.bind_eq_some_iff.mp h
  obtain rfl := Option.some.inj h
  exact Option.some.inj (hid.symm.trans htenant)

/-- **What an identity is read off.** -/
theorem Identity.marks {m : Metadata} {i : Identity} (h : Identity.ofMetadata? m = some i) :
    m.annotation? tenantIdAnnotation = some i.tenantId ∧
      m.annotation? applicationIdAnnotation = some i.applicationId ∧ m.label? environmentLabel = some i.environment := by
  simp only [Identity.ofMetadata?, Tenancy.ofMetadata?, Option.bind_eq_bind, Option.bind_eq_some_iff] at h
  obtain ⟨_, ⟨tenantId, htenant, applicationId, happlication, hplace⟩, environment, henvironment, _, -, hsome⟩ := h
  obtain rfl := Option.some.inj hplace
  obtain rfl := Option.some.inj hsome
  exact ⟨htenant, happlication, henvironment⟩

theorem tenantId_of_identity {m : Metadata} {tenant : String} {i : Identity}
    (htenant : m.annotation? tenantIdAnnotation = some tenant) (h : Identity.ofMetadata? m = some i) :
    i.tenantId = tenant :=
  Option.some.inj ((Identity.marks h).1.symm.trans htenant)

/-! ### Handlers -/

/-- **Where a call for an object stores**: what concerns its kind and may be written for its tenant. -/
structure Observed.Footprint (c : Caches) (k : Observed) (o : k.Object) (f : Family) (uid : String) : Prop where
  concerns : k.Concerns f uid
  writable : ∀ tenant, k.tenant? c o = some tenant → Writable tenant f uid

theorem stores_creationTime {P : Family → String → Prop} (m : Metadata) : (creationTime m).Stores P := by
  unfold creationTime
  cases m.created with
  | none => exact fun _ => trivial
  | some time => trivial

theorem stores_handleNamespace (c : Caches) (n : Namespace) (deleted : Bool) :
    (handleNamespace n deleted).Stores (Observed.Footprint c .namespaces n) := by
  unfold handleNamespace
  split
  · trivial
  · cases ht : Tenancy.ofMetadata? n.metadata with
    | none => trivial
    | some t =>
      have hcustomer : Under t.tenantId (Uid.customer t.tenantId).text := under_self t.tenantId
      have happlication : Under t.tenantId (Uid.application t.tenantId t.applicationId).text :=
        hcustomer.slash t.applicationId
      have hwritable : ∀ {f uid}, Belongs t.tenantId f uid →
          ∀ tenant, n.metadata.annotation? tenantIdAnnotation = some tenant → Writable tenant f uid := by
        intro f uid h tenant hid
        rw [← tenantId_of_tenancy hid ht]
        exact .inl h
      exact (stores_store ⟨rfl, hwritable hcustomer⟩).bind fun _ => stores_store ⟨rfl, hwritable happlication⟩

theorem stores_handleClusterNode (c : Caches) (n : ClusterNode) (deleted : Bool) :
    (handleClusterNode n deleted).Stores (Observed.Footprint c .nodes n) := by
  unfold handleClusterNode
  split
  · trivial
  · split
    · trivial
    · exact stores_store ⟨rfl, nofun⟩

theorem stores_storeRollout (m : Metadata) (o : Rollout) (runtime : Entity .runtimeVersion) :
    (storeRollout m o runtime).Stores fun f uid =>
      Observed.Concerns .replicaSets f uid ∧ Writable o.identity.tenantId f uid := by
  have henvironment := o.identity.under_environment
  have hartifact : Under o.identity.tenantId (Uid.artifact o.identity.tenantId o.identity.microserviceId).text :=
    (under_self _).slash _
  have hversion : Under o.identity.tenantId (Uid.artifactVersion o.identity.tenantId o.identity.microserviceId
      (Image.artifactName o.headImage)).text := hartifact.slash _
  have hdeployment : Under o.identity.tenantId (o.identity.deployment o.revision).text := henvironment.slash o.revision
  unfold storeRollout
  refine (stores_store ⟨rfl, .inl henvironment⟩).bind fun _ => ?_
  refine (stores_store ⟨rfl, .inl hartifact⟩).bind fun _ => ?_
  refine (stores_store ⟨rfl, .inl hversion⟩).bind fun _ => ?_
  refine (stores_store ⟨rfl, .inr (.inl rfl)⟩).bind fun _ => ?_
  exact (stores_creationTime m).bind fun _ => stores_store ⟨rfl, .inl hdeployment⟩

theorem identity_of_rollout? {r : ReplicaSet} {o : Rollout} (h : rollout? r = some o) :
    Identity.ofMetadata? r.metadata = some o.identity := by
  simp only [rollout?, Option.bind_eq_bind, Option.bind_eq_some_iff] at h
  obtain ⟨i, hi, _, -, _, -, _, -, _, -, _, -, _, -, hsome⟩ := h
  rw [hi, ← Option.some.inj hsome]

theorem revision?_of_rollout? {r : ReplicaSet} {o : Rollout} (h : rollout? r = some o) :
    r.revision? = some o.revision := by
  simp only [rollout?, Option.bind_eq_bind, Option.bind_eq_some_iff] at h
  obtain ⟨_, -, _, -, revision, hrevision, _, -, _, -, _, -, _, -, hsome⟩ := h
  rw [hrevision, ← Option.some.inj hsome]

theorem stores_handleReplicaSet (c : Caches) (r : ReplicaSet) (deleted : Bool) :
    (handleReplicaSet r deleted).Stores (Observed.Footprint c .replicaSets r) := by
  unfold handleReplicaSet
  split
  · trivial
  · split
    · trivial
    · rename_i o ho
      split
      · trivial
      · refine (stores_storeRollout _ _ _).mono ?_
        rintro f uid ⟨hconcerns, hwritable⟩
        refine ⟨hconcerns, fun tenant htenant => ?_⟩
        rw [← tenantId_of_identity htenant (identity_of_rollout? ho)]
        exact hwritable

/-- **The event of an event of the cluster** is about the pod's instance, and comes from waiting before the next try. -/
theorem exists_of_eventEntity? {c : Caches} {e : ClusterEvent} {entity : Event} (h : eventEntity? c e = some entity) :
    ∃ u kind first, involvedInstance? c e = some u ∧ e.reason = some "BackOff" ∧
      backOffKind? (e.message.getD "") = some kind ∧ (e.first <|> e.time) = some first ∧
      entity = .event (.clusterEvent (e.metadata.uid.getD "")) kind (e.count.getD 1) first (e.last.getD first)
        (hasPart runtimeContainer.toList (e.involved.fieldPath.getD "").toList) u := by
  obtain ⟨u, hu, h⟩ := Option.bind_eq_some_iff.mp h
  split at h
  · next hreason =>
    obtain ⟨kind, hkind, h⟩ := Option.bind_eq_some_iff.mp h
    obtain ⟨first, hfirst, h⟩ := Option.bind_eq_some_iff.mp h
    exact ⟨u, kind, first, hu, hreason, hkind, hfirst, (Option.some.inj h).symm⟩
  · exact nomatch h

/-- It is stored under the uid that the cluster gave the event. -/
theorem uid_of_eventEntity? {c : Caches} {e : ClusterEvent} {entity : Event} (h : eventEntity? c e = some entity) :
    entity.uid = .clusterEvent (e.metadata.uid.getD "") := by
  obtain ⟨_, _, _, -, -, -, -, rfl⟩ := exists_of_eventEntity? h
  rfl

/-- It belongs to no tenant. -/
theorem stores_handleEvent (c : Caches) (e : ClusterEvent) (deleted : Bool) :
    (handleEvent c e deleted).Stores (Observed.Footprint c .events e) := by
  unfold handleEvent
  split
  · trivial
  · cases hentity : eventEntity? c e with
    | none => trivial
    | some entity =>
      have huid : ∃ id, entity.uid.text = (Uid.clusterEvent id).text :=
        ⟨_, congrArg Uid.text (uid_of_eventEntity? hentity)⟩
      exact stores_store ⟨.inr ⟨rfl, huid⟩, fun _ _ => .inr (.inr ⟨rfl, huid⟩)⟩

/-- **The other handlers do nothing but store**, and each within the footprint of the call. -/
theorem Observed.stores_handle (c : Caches) {k : Observed} (hk : k ≠ pods) (o : k.Object) (deleted : Bool) :
    (k.handle c o deleted).Stores (k.Footprint c o) := by
  cases k with
  | namespaces => exact stores_handleNamespace c o deleted
  | nodes => exact stores_handleClusterNode c o deleted
  | replicaSets => exact stores_handleReplicaSet c o deleted
  | pods => exact absurd rfl hk
  | events => exact stores_handleEvent c o deleted

end FleetAtlas
