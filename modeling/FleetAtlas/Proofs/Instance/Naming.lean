import FleetAtlas.Proofs.Handler.RestartCounts
import FleetAtlas.Proofs.Instance.Writes

/-!
# One name for an instance

The uid of an instance is made in four places, each from what it has at hand: for a live pod and for one that is gone, from
the pod and its cached owner; for an event, from the cached pod; and the uid of a deployment, with which it starts, from a
replica set.

* `NamedAlike`: a pod and caches that name the same instance as others; `SamePlace`: metadata of one place of the fleet;
* `Store.link?`: what a stored record links to; `Store.Places s u d`: an instance is stored, as one of a deployment;
  `Store.Stops s u s'`: an instance is stopped, and no other record has changed;
* `places_of_wrote`, `stops_instance`, `link?_of_wrote_event`, `deployment_of_wrote`: what each of the places does;
* `Job.LaterBy.places`: an instance stays one of its deployment;
* `Observed.call_names_instance`: **all of them name the same instance.**
-/

namespace FleetAtlas

open FleetAtlas.Task

/-! ### Names -/

/-- Another pod, or the same at another moment, is named alike: it has the identity, the uid and the cached owner. -/
structure NamedAlike (c : Caches) (p : Pod) (c' : Caches) (p' : Pod) : Prop where
  identity : Identity.ofMetadata? p'.metadata = Identity.ofMetadata? p.metadata
  uid : p'.metadata.uid = p.metadata.uid
  owner : podOwner c'.replicaSets p' = podOwner c.replicaSets p

theorem NamedAlike.instanceOf?_eq {c c' : Caches} {p p' : Pod} (h : NamedAlike c p c' p') :
    instanceOf? c' p' = instanceOf? c p := by
  unfold instanceOf?
  rw [h.identity, h.uid, h.owner]

/-- A cluster event involves a pod, as it is cached. -/
def ClusterEvent.Involves (e : ClusterEvent) (c : Caches) (p : Pod) : Prop :=
  c.pods.lookup (e.involved.scope.getD "") (e.involved.name.getD "") = some p

/-- Metadata of one tenant, application and environment. -/
structure SamePlace (m m' : Metadata) : Prop where
  tenant : m'.annotation? tenantIdAnnotation = m.annotation? tenantIdAnnotation
  application : m'.annotation? applicationIdAnnotation = m.annotation? applicationIdAnnotation
  environment : m'.label? environmentLabel = m.label? environmentLabel

theorem SamePlace.deployment_eq {m m' : Metadata} {i i' : Identity} (h : SamePlace m m')
    (hi : Identity.ofMetadata? m = some i) (hi' : Identity.ofMetadata? m' = some i') (revision : String) :
    i'.deployment revision = i.deployment revision := by
  obtain ⟨htenant, happlication, henvironment⟩ := Identity.marks hi
  obtain ⟨htenant', happlication', henvironment'⟩ := Identity.marks hi'
  rw [h.tenant, htenant] at htenant'
  rw [h.application, happlication] at happlication'
  rw [h.environment, henvironment] at henvironment'
  unfold Identity.deployment
  rw [Option.some.inj htenant', Option.some.inj happlication', Option.some.inj henvironment']

/-! ### Links -/

/-- What a stored record links to under a name. -/
def Store.link? (s : Store) (f : Family) (uid name : String) : Option String :=
  match s.get f uid with
  | .ok (some r) => r.links.get? name
  | _ => none

/-- An instance is stored, as one of a deployment. -/
def Store.Places (s : Store) (u : Uid .deploymentInstance) (d : Uid .deployment) : Prop :=
  ∃ i : DeploymentInstance, s.fetch? u = some i ∧ i.uid = u ∧ i.deployment = d

section Places

variable {s s' : Store} {u : Uid .deploymentInstance} {d : Uid .deployment}

theorem Store.Places.link?_eq (h : s.Places u d) : s.link? .deploymentInstance u.text "instanceOf" = some d.text := by
  obtain ⟨i, hfetch, -, rfl⟩ := h
  obtain ⟨r, hget, hr⟩ := Store.exists_get_of_fetch? hfetch
  unfold Store.link?
  rw [hget]
  exact DeploymentInstance.get?_instanceOf hr

theorem Store.Places.set_self {i : DeploymentInstance} (h : s.set .deploymentInstance i.toRecord = .ok s') :
    s'.Places i.uid i.deployment := by
  obtain ⟨i', hfetch, huid, -, hdeployment⟩ := Store.fetch?_set_instance h
  exact ⟨i', hfetch, huid, hdeployment⟩

theorem Store.Places.set_of_ne {f : Family} {r : Record} (hs : s.Places u d) (h : s.set f r = .ok s')
    (hne : ¬ (f = .deploymentInstance ∧ r.uid = u.text)) : s'.Places u d := by
  obtain ⟨i, hfetch, hi⟩ := hs
  refine ⟨i, ?_, hi⟩
  rw [Store.fetch?_set_of_ne h fun e => hne ⟨e.1.symm, e.2.symm⟩]
  exact hfetch

/-- **An instance that is stored stays there.** -/
theorem stable_places (u : Uid .deploymentInstance) : Stable RestartWrite fun s => ∃ d, s.Places u d := by
  rintro s s' f r ⟨d, hs⟩ hW hset
  by_cases hkey : f = .deploymentInstance ∧ r.uid = u.text
  · obtain ⟨rfl, huid⟩ := hkey
    obtain ⟨i, rfl⟩ := (restartWrite_iff_of_ne (by decide)).mp hW
    obtain rfl : i.uid = u := Uid.eq_of_text huid
    exact ⟨_, .set_self hset⟩
  · exact ⟨d, hs.set_of_ne hset hkey⟩

end Places

/-! ### Each of the places -/

section Calls

variable {c : Caches} {p : Pod} {cached : List Pod} {site : Site} {u : Uid .deploymentInstance}

/-- **A live pod is stored as its instance**, as one of the deployment that the uid starts with. -/
theorem places_of_wrote (h : Wrote site (run cached (updatePod c p) site).2 .deploymentInstance u.text) :
    instanceOf? c p = some u ∧ ∃ d, u = .deploymentInstance d (p.metadata.uid.getD "") ∧
      (run cached (updatePod c p) site).2.service.store.Places u d := by
  have hwrites : (updatePod c p).Writes (InstanceWrites (LiveWrite c p)) (fun _ => True) (fun _ _ => True)
      site.service.store := writes_updatePod_instance c p
  obtain ⟨s₁, r, s₂, hlast⟩ := hwrites.exists_last trivial h
  obtain ⟨i, i', hi, rfl, hfetch, huid, -, hdeployment⟩ := InstanceWrites.exists_of_last hlast
  refine ⟨hi.shown, i.deployment, ?_, i', hfetch, huid, hdeployment⟩
  rw [← hi.id]
  exact hi.deployment

/-- Of two stores, the later one shows a stopped instance, and else the same records. -/
structure Store.Stops (s : Store) (u : Uid .deploymentInstance) (s' : Store) : Prop where
  stopped : (s'.stopTime? u).isSome
  others : ∀ f uid, ¬ (f = .deploymentInstance ∧ uid = u.text) → s'.get f uid = s.get f uid

/-- **A pod that is gone has its instance stopped**, if that is stored, and nothing else changes. -/
theorem stops_instance {d : Uid .deployment} (hu : instanceOf? c p = some u) (hstored : site.service.store.Places u d)
    (hok : (run cached (stopPod c p) site).1 = .ok ()) :
    site.service.store.Stops u (run cached (stopPod c p) site).2.service.store := by
  have happly := (makes_stopPod hu cached site).apply_of_ok hok
  obtain ⟨i, hfetch, rfl, -⟩ := hstored
  have hread := Store.read_of_fetch? hfetch
  cases hstopped : i.isStopped with
  | true =>
    rw [apply_stop_of_isStopped hread hstopped] at happly
    rw [← Except.ok.inj happly]
    refine ⟨?_, fun _ _ _ => rfl⟩
    rw [Store.stopTime?_of_fetch? hfetch]
    exact hstopped
  | false =>
    rw [apply_stop_of_running hread hstopped] at happly
    obtain ⟨i', hfetch', -, hinfo, -⟩ := Store.fetch?_set_instance happly
    refine ⟨?_, fun f uid hne => Store.get_set_of_ne happly hne⟩
    have hstop := Store.stopTime?_of_fetch? hfetch'
    rw [hinfo] at hstop
    exact congrArg Option.isSome hstop

/-- The event of a cluster event is about the instance of the cached pod. -/
theorem instanceOf?_of_eventEntity? {e : ClusterEvent} {entity : Event} (h : eventEntity? c e = some entity)
    (hp : e.Involves c p) :
    instanceOf? c p = some (EventLinks.happenedTo entity.links) := by
  obtain ⟨u, _, _, hu, -, -, -, rfl⟩ := exists_of_eventEntity? h
  show _ = some u
  unfold involvedInstance? at hu
  split at hu
  · obtain ⟨p', hp', hu⟩ := Option.bind_eq_some_iff.mp hu
    obtain rfl := Option.some.inj (hp'.symm.trans hp)
    obtain ⟨_, -, hu⟩ := Option.bind_eq_some_iff.mp hu
    obtain ⟨_, -, hu⟩ := Option.bind_eq_some_iff.mp hu
    obtain ⟨_, -, hu⟩ := Option.bind_eq_some_iff.mp hu
    exact hu
  · exact nomatch hu

/-- A write of the event of a cluster event. -/
def EventWrite (c : Caches) (e : ClusterEvent) : Store → Family → Record → Prop
  | _, .event, r => ∃ entity, eventEntity? c e = some entity ∧ r = entity.toRecord
  | _, _, _ => False

theorem writes_handleEvent (c : Caches) (e : ClusterEvent) (deleted : Bool) (s : Store) :
    (handleEvent c e deleted).Writes (EventWrite c e) (fun _ => True) (fun _ _ => True) s := by
  unfold handleEvent
  split
  · trivial
  · split
    · trivial
    · next entity hentity => exact writes_store ⟨entity, hentity, rfl⟩ fun _ _ => trivial

/-- **What is stored for an event of a cached pod** links to the instance of that pod. -/
theorem link?_of_wrote_event {e : ClusterEvent} {deleted : Bool} {uid : String} (hu : instanceOf? c p = some u)
    (hp : e.Involves c p)
    (h : Wrote site (run cached (handleEvent c e deleted) site).2 .event uid) :
    (run cached (handleEvent c e deleted) site).2.service.store.link? .event uid "happenedTo" = some u.text := by
  obtain ⟨s₁, r, s₂, hlast⟩ := (writes_handleEvent c e deleted site.service.store).exists_last trivial h
  obtain ⟨entity, hentity, rfl⟩ := hlast.admitted
  obtain rfl := hlast.uid_eq
  obtain ⟨r, hget, hcovers⟩ := Store.covers_get_set hlast.set
  have hinstance := Option.some.inj (hu.symm.trans (instanceOf?_of_eventEntity? hentity hp))
  rw [hinstance]
  unfold Store.link?
  rw [hlast.get_eq, show s₂.get .event entity.toRecord.uid = .ok (some r) from hget]
  exact hcovers.get?_links List.mem_cons_self

theorem stores_deployment (r : ReplicaSet) (deleted : Bool) : (handleReplicaSet r deleted).Stores fun f uid =>
    f = .deployment → ∃ o, rollout? r = some o ∧ uid = (o.identity.deployment o.revision).text := by
  unfold handleReplicaSet
  split
  · trivial
  · split
    · trivial
    · next o ho =>
      split
      · trivial
      · unfold storeRollout
        refine (stores_store nofun).bind fun _ => ?_
        refine (stores_store nofun).bind fun _ => ?_
        refine (stores_store nofun).bind fun _ => ?_
        refine (stores_store nofun).bind fun _ => ?_
        exact (stores_creationTime r.metadata).bind fun _ => stores_store fun _ => ⟨o, ho, rfl⟩

/-- **The deployment of a replica set** is the one that the uids of instances of its pods start with. -/
theorem deployment_of_wrote {d : Uid .deployment} {owner : ReplicaSet} {deleted : Bool} {uid : String}
    (hu : instanceOf? c p = some u) (hd : u = .deploymentInstance d (p.metadata.uid.getD ""))
    (howner : podOwner c.replicaSets p = .ok owner) (hplace : SamePlace p.metadata owner.metadata)
    (h : Wrote site (run cached (handleReplicaSet owner deleted) site).2 .deployment uid) : d.text = uid := by
  have hwrites : (handleReplicaSet owner deleted).Writes (fun _ f r => f = .deployment → ∃ o,
      rollout? owner = some o ∧ r.uid = (o.identity.deployment o.revision).text) (fun _ => True) (fun _ _ => True)
      site.service.store := (stores_deployment owner deleted).writes (fun _ _ _ he => he) _
  obtain ⟨s₁, r, s₂, hlast⟩ := hwrites.exists_last trivial h
  obtain ⟨o, ho, huid⟩ := hlast.admitted rfl
  obtain ⟨identity, owner', revision, hidentity, howner', hrevision, rfl⟩ := exists_of_instanceOf? hu
  obtain rfl := Except.ok.inj (howner'.symm.trans howner)
  obtain rfl := Option.some.inj (hrevision.symm.trans (revision?_of_rollout? ho))
  rw [← hlast.uid_eq, huid, hplace.deployment_eq hidentity (identity_of_rollout? ho),
    Uid.deploymentInstance_inj_left hd]

end Calls

/-! ### Later -/

namespace Job

/-- Of the live pods that a job is called for, those with this instance have this uid. -/
def ShowsOnly (u : Uid .deploymentInstance) (pod : String) (j : Job) : Prop :=
  ∀ c p, j = .call c .pods p false → instanceOf? c p = some u → p.metadata.uid.getD "" = pod

/-- What is stored after some more jobs, all of which satisfy `P`. -/
def LaterBy (P : Job → Prop) : Store → Store → Prop := Relation.ReflTransGen fun s s' => ∃ j, P j ∧ j.Leads s s'

variable {s s' : Store} {d : Uid .deployment} {pod : String}

/-- A write of an instance leaves it one of the deployment that its uid starts with. -/
theorem stable_placed {j : Job} (hj : j.ShowsOnly (.deploymentInstance d pod) pod) :
    Stable (InstanceWrites j.InstanceWrite) fun s => s.Places (.deploymentInstance d pod) d := by
  intro s s' f r hs hW hset
  by_cases hkey : f = .deploymentInstance ∧ r.uid = (Uid.deploymentInstance d pod).text
  · obtain ⟨rfl, huid⟩ := hkey
    obtain ⟨i, rfl, hi⟩ := hW
    have huid : i.uid = .deploymentInstance d pod := Uid.eq_of_text huid
    have hplaces := Store.Places.set_self hset
    suffices hdeployment : i.deployment = d by rwa [huid, hdeployment] at hplaces
    rcases hi.cases with ⟨old, time, hold, -, rfl⟩ | ⟨c, p, hcall, hlive⟩
    · obtain ⟨i', hfetch, -, rfl⟩ := hs
      rw [huid, hfetch] at hold
      rw [Option.some.inj hold]
      rfl
    · have hpod := hj c p hcall (huid ▸ hlive.shown)
      have hname := hlive.deployment
      rw [huid, hlive.id, hpod] at hname
      exact (Uid.deploymentInstance_inj_left hname).symm
  · exact hs.set_of_ne hset hkey

/-- **An instance stays one of its deployment**, unless a pod with another uid is shown under its name. -/
theorem LaterBy.places (h : LaterBy (ShowsOnly (.deploymentInstance d pod) pod) s s') (hs : s.Filed)
    (hplaces : s.Places (.deploymentInstance d pod) d) : s'.Places (.deploymentInstance d pod) d := by
  have hboth : s'.Filed ∧ s'.Places (.deploymentInstance d pod) d := by
    induction h with
    | refl => exact ⟨hs, hplaces⟩
    | tail _ hj ih =>
      obtain ⟨j, hshows, _, hsteps⟩ := hj
      exact ⟨hsteps.filed ih.1, ((j.writes_instances ih.1).leads (stable_placed hshows) hsteps ih.2).1⟩
  exact hboth.2

end Job

/-! ### All of them -/

/-- **All name the same instance.**  Let a call for a live pod have stored an instance, whatever was stored before.  While
the pod has its identity and its owner is cached as it was: the call for its deletion looks for this instance, and if it is
good, however much later, the instance is stopped and no other record has changed; and what is stored for an event of the
pod links to this instance, if the pod is cached.  A deployment that is stored for the owner as it was cached, at any time,
if the owner is of the same place, is what the instance is an instance of, then and later on, unless a pod with another uid
is shown under the same name. -/
theorem Observed.call_names_instance {c : Caches} {p : Pod} {cached : List Pod} {site : Site}
    {u : Uid .deploymentInstance}
    (h : Wrote site (Observed.call .pods c p false cached site).2 .deploymentInstance u.text) :
    (∀ c' p', NamedAlike c p c' p' →
      (∃ next, Observed.handle c' .pods p' true = .get .deploymentInstance u.text next) ∧
      (∀ cached' site', Job.Later (Observed.call .pods c p false cached site).2.service.store site'.service.store →
        (Observed.call .pods c' p' true cached' site').1 = .ok () →
        site'.service.store.Stops u (Observed.call .pods c' p' true cached' site').2.service.store) ∧
      ∀ (e : ClusterEvent) deleted cached' site' uid,
        e.Involves c' p' → Wrote site' (Observed.call .events c' e deleted cached' site').2 .event uid →
        (Observed.call .events c' e deleted cached' site').2.service.store.link? .event uid "happenedTo" = some u.text) ∧
    ∀ owner, podOwner c.replicaSets p = .ok owner → SamePlace p.metadata owner.metadata →
      ∀ c' deleted cached' site' uid,
        Wrote site' (Observed.call .replicaSets c' owner deleted cached' site').2 .deployment uid →
        (Observed.call .pods c p false cached site).2.service.store.link? .deploymentInstance u.text "instanceOf" =
          some uid ∧
        (site.service.store.Filed → ∀ s,
          Job.LaterBy (Job.ShowsOnly u (p.metadata.uid.getD "")) (Observed.call .pods c p false cached site).2.service.store s →
          s.link? .deploymentInstance u.text "instanceOf" = some uid) := by
  obtain ⟨hu, d, hd, hplaces⟩ := places_of_wrote h
  constructor
  · intro c' p' halike
    have hu' := halike.instanceOf?_eq.trans hu
    refine ⟨?_, fun cached' site' hlater hok => ?_, fun e deleted cached' site' uid hp hwrote => ?_⟩
    · exact ⟨_, stopPod_of_some hu'⟩
    · obtain ⟨d', hstored⟩ := hlater.stable (stable_places u) ⟨d, hplaces⟩
      exact stops_instance hu' hstored hok
    · exact link?_of_wrote_event hu' hp hwrote
  · intro owner howner hplace c' deleted cached' site' uid hwrote
    obtain rfl := deployment_of_wrote hu hd howner hplace hwrote
    refine ⟨hplaces.link?_eq, fun hs s hlater => ?_⟩
    have hfiled : (Observed.call .pods c p false cached site).2.service.store.Filed := by
      obtain ⟨_, hsteps⟩ := leads_run (L := fun _ => True) trivial (handlePod c p false) site
      exact hsteps.filed hs
    subst hd
    exact (hlater.places hfiled hplaces).link?_eq

/-! ### The pod of the shop -/

/-- The replica set of the shop with its images, and its pod. -/
def servedCaches : Caches := { shopCaches with replicaSets := .ofList [imagedReplicaSet], pods := .ofList [shopPod] }

/-- The pod does not start. -/
def shopBackOff : ClusterEvent where
  metadata := { Metadata.empty with uid := some "e" }
  involved := ⟨some "Pod", some "prod", some "shop-x", none⟩
  reason := some "BackOff"
  message := some "Back-off restarting failed container"
  count := none
  first := some .epoch
  last := none
  time := none

/-- Nothing is stored, and no time passes. -/
def emptySite : Site := .on (.documents .empty) fun _ => .epoch

/-- The pod is shown; its event and its owner are handled before, elsewhere or later; then the pod is gone. -/
def shownSite : Site := (Observed.call .pods servedCaches shopPod false [] emptySite).2

def reportedSite : Site := (Observed.call .events servedCaches shopBackOff false [] emptySite).2

def rolledOutSite : Site := (Observed.call .replicaSets servedCaches imagedReplicaSet false [] emptySite).2

def goneCall : Except Failure Unit × Site := Observed.call .pods servedCaches shopPod true [] shownSite

theorem Observed.call_names_shop :
    Wrote emptySite shownSite .deploymentInstance shopInstance.text ∧ goneCall.1 = .ok () ∧
      shownSite.service.store.Stops shopInstance goneCall.2.service.store ∧
      reportedSite.service.store.link? .event "kubernetes/e" "happenedTo" = some shopInstance.text ∧
      shownSite.service.store.link? .deploymentInstance shopInstance.text "instanceOf" = some "t/a/Dev/4" := by
  have hshown : Wrote emptySite shownSite .deploymentInstance shopInstance.text := .of_mem rfl (by decide +kernel)
  have hreported : Wrote emptySite reportedSite .event "kubernetes/e" := .of_mem rfl (by decide +kernel)
  have hrolledOut : Wrote emptySite rolledOutSite .deployment "t/a/Dev/4" := .of_mem rfl (by decide +kernel)
  have hgone : goneCall.1 = .ok () := eq_ok_of_toOption (by decide +kernel)
  have hreplicaSet : podOwner servedCaches.replicaSets shopPod = .ok imagedReplicaSet :=
    eq_ok_of_toOption (by decide +kernel)
  have hplace : SamePlace shopPod.metadata imagedReplicaSet.metadata :=
    ⟨by decide +kernel, by decide +kernel, by decide +kernel⟩
  have hinvolves : shopBackOff.Involves servedCaches shopPod := by
    unfold ClusterEvent.Involves
    decide +kernel
  obtain ⟨hpod, howner⟩ := Observed.call_names_instance hshown
  obtain ⟨-, hstops, hlinks⟩ := hpod servedCaches shopPod ⟨rfl, rfl, rfl⟩
  refine ⟨hshown, hgone, ?_, ?_, ?_⟩
  · unfold goneCall at hgone ⊢
    exact hstops [] shownSite .refl hgone
  · exact hlinks shopBackOff false [] emptySite "kubernetes/e" hinvolves hreported
  · exact (howner imagedReplicaSet hreplicaSet hplace servedCaches false [] emptySite "t/a/Dev/4" hrolledOut).1

end FleetAtlas
