import FleetAtlas.Proofs.Instance.Handlers
import Mathlib.Logic.Relation

/-!
# Who stops an instance

* `Job`: a call of a handler, or a sweep; `Job.Leads`: what is stored after it, or after it failed or was cancelled midway;
* `Job.Reached`: what is stored after any jobs, one after the other; `Job.Later`: after some more;
* `Job.MayStop`: the jobs that may stop an instance: the deletion of its pod, a sweep that finds no live pod of its id;
* `Job.Reached.stopTime?_set_once`: **no other job sets the time of a stop, and none changes it later.**
-/

namespace FleetAtlas

open FleetAtlas.Task

/-- A call of a handler for an object that is there or was deleted, or a sweep over the pods that are cached. -/
inductive Job where
  | call (caches : Caches) (kind : Observed) (object : kind.Object) (deleted : Bool)
  | sweep (cached : List Pod)

namespace Job

def task : Job → Task Unit
  | call c k o deleted => k.handle c o deleted
  | sweep _ => FleetAtlas.sweep

/-- The pods that a job is shown. -/
def cached : Job → List Pod
  | call .. => []
  | sweep cached => cached

/-- What is stored after a job, or after any part of it: a call of storage may fail, and a sweep may be cancelled. -/
def Leads (j : Job) (s s' : Store) : Prop := ∃ t, Task.Leads (· = j.cached) j.task s t s'

theorem leads_run (j : Job) (site : Site) :
    j.Leads site.service.store (run j.cached j.task site).2.service.store :=
  Task.leads_run (L := (· = j.cached)) rfl j.task site

/-- What is stored after jobs that found nothing stored, one after the other. -/
inductive Reached : Store → Prop
  | documents : Reached (.documents .empty)
  | graph : Reached (.graph .empty)
  | next {s s' : Store} {j : Job} : Reached s → j.Leads s s' → Reached s'

/-- What is stored after some more jobs. -/
def Later : Store → Store → Prop := Relation.ReflTransGen fun s s' => ∃ j : Job, j.Leads s s'

/-- The jobs that may stop an instance: the deletion of the pod that it is the instance of, as far as the owner of the
pod is cached, and a sweep that finds no live pod with the id of the instance. -/
def MayStop (s : Store) (u : Uid .deploymentInstance) : Job → Prop
  | call c .pods o deleted => deleted = true ∧ instanceOf? c o = some u
  | call .. => False
  | sweep cached => ∃ p, s.info? u = some p ∧ ∀ pod ∈ cached, pod.isLive = true → pod.metadata.uid ≠ some p.id

/-! ### Steps -/

theorem Reached.filed {s : Store} (h : Reached s) : s.Filed := by
  induction h with
  | documents => exact Store.Built.documents.filed
  | graph => exact Store.Built.graph.filed
  | @next s s' j _ hj ih =>
    obtain ⟨t, hsteps⟩ := hj
    exact hsteps.filed ih

variable {s s' : Store} {u : Uid .deploymentInstance}

theorem keeps_of_stopped (j : Job) (t : Timestamp) :
    j.task.Keeps (Shows u (Stopped (some t))) (· = j.cached) fun _ => True := by
  cases j with
  | call c k o deleted =>
    by_cases hk : k = .pods
    · subst hk
      exact keeps_handlePod_of_stopped c o deleted
    · exact keeps_of_spares (spares_handle c hk o deleted)
  | sweep cached => exact keeps_sweep_of_stopped

/-- **A stop is kept by every job.** -/
theorem Leads.keeps_stop {j : Job} (h : j.Leads s s') (hs : s.Filed) {t : Timestamp} (ht : s.stopTime? u = some t) :
    s'.Filed ∧ s'.stopTime? u = some t := by
  obtain ⟨_, hsteps⟩ := h
  exact ((keeps_of_stopped j t).leads ⟨hs, ht⟩ hsteps).1

/-- **A job that may not stop an instance leaves it running.** -/
theorem Leads.keeps_running {j : Job} (h : j.Leads s s') (hs : s.Filed) (hj : ¬ j.MayStop s u)
    (ht : s.stopTime? u = none) : s'.stopTime? u = none := by
  obtain ⟨_, hsteps⟩ := h
  cases j with
  | call c k o deleted =>
    have hkeeps : (k.handle c o deleted).Keeps (Shows u (Stopped none)) (· = []) fun _ => True := by
      by_cases hk : k = .pods
      · subst hk
        cases deleted with
        | false => exact keeps_updatePod c o
        | true => exact keeps_stopPod c o fun _ hu => hj ⟨rfl, hu⟩
      · exact keeps_of_spares (spares_handle c hk o deleted)
    exact (hkeeps.leads ⟨hs, ht⟩ hsteps).1.2
  | sweep cached =>
    have hkeeps : FleetAtlas.sweep.Keeps (Shows u (· = s.info? u)) (· = cached) fun _ => True := by
      refine keeps_sweep fun {p} hp _ pods hpods => ?_
      subst hpods
      refine Classical.byContradiction fun hlive => ?_
      refine hj ⟨p, hp.symm, fun pod hpod hl hid => hlive ?_⟩
      exact List.mem_filterMap.mpr ⟨pod, List.mem_filter.mpr ⟨hpod, hl⟩, hid⟩
    obtain ⟨-, hinfo⟩ := (hkeeps.leads ⟨hs, rfl⟩ hsteps).1
    unfold Store.stopTime?
    rw [hinfo]
    exact ht

/-! ### Runs -/

theorem Later.keeps_stop (h : Later s s') (hs : s.Filed) {t : Timestamp} (ht : s.stopTime? u = some t) :
    s'.Filed ∧ s'.stopTime? u = some t := by
  induction h with
  | refl => exact ⟨hs, ht⟩
  | tail _ hj ih =>
    obtain ⟨j, hj⟩ := hj
    exact hj.keeps_stop ih.1 ih.2

/-- **Only the deletion of its pod, or a sweep that finds no live pod of its id, sets the time at which an instance was
stopped**, and nothing changes or clears this time later. -/
theorem Reached.stopTime?_set_once (hs : Reached s) {j : Job} (hj : j.Leads s s') (u : Uid .deploymentInstance) :
    (s.stopTime? u = none → s'.stopTime? u ≠ none → j.MayStop s u) ∧
      ∀ t, s.stopTime? u = some t → ∀ s'', Later s s'' → s''.stopTime? u = some t := by
  refine ⟨fun hnone hset => ?_, fun t ht s'' hlater => (hlater.keeps_stop hs.filed ht).2⟩
  exact Classical.byContradiction fun hmay => hset (hj.keeps_running hs.filed hmay hnone)

end Job

/-! ### The deletion of a pod -/

/-- A replica set of a revision. -/
def shopReplicaSet : ReplicaSet where
  metadata := { Metadata.empty with
    name := some "shop", scope := some "prod"
    annotations := .ofList [("deployment.kubernetes.io/revision", "4")] }
  template := none

/-- A pod of this replica set. -/
def shopPod : Pod where
  metadata := { Metadata.empty with
    name := some "shop-x", scope := some "prod", uid := some "p"
    annotations := .ofList
      [("dolittle.io/tenant-id", "t"), ("dolittle.io/application-id", "a"), ("dolittle.io/microservice-id", "m")]
    labels := .ofList [("environment", "Dev")]
    owners := [⟨"ReplicaSet", "shop"⟩] }
  spec := some {
    containers := [⟨runtimeContainer, none, []⟩,
      ⟨headContainer, none, [⟨some "x-env-variables", none⟩, ⟨none, some "x-secret-env-variables"⟩]⟩]
    volumes := [⟨"tenants-config", some "c"⟩, ⟨"dolittle-config", some "c"⟩, ⟨"config-files", some "c"⟩]
    nodeName := none }
  phase := none
  statuses := []

/-- The replica set and the configuration of the pod. -/
def shopCaches : Caches where
  configMaps := .ofList [⟨{ Metadata.empty with name := some "c", scope := some "prod" }, ∅, ∅⟩,
    ⟨{ Metadata.empty with name := some "x-env-variables", scope := some "prod" }, ∅, ∅⟩]
  secrets := .ofList [⟨{ Metadata.empty with name := some "x-secret-env-variables", scope := some "prod" }, ∅⟩]
  replicaSets := .ofList [shopReplicaSet]
  pods := .empty

/-- The instance of the pod. -/
def shopInstance : Uid .deploymentInstance := .deploymentInstance (.deployment "t" "a" "Dev" "4") "p"

/-- What is stored after a job that finds nothing to fail on. -/
def Job.after (j : Job) (s : Store) : Store := (run j.cached j.task (.on s fun _ => .epoch)).2.service.store

theorem Job.leads_after (j : Job) (s : Store) : j.Leads s (j.after s) := j.leads_run (.on s fun _ => .epoch)

/-- What is stored when the instance of the pod runs. -/
@[irreducible] def shopStore : Store := (Job.call shopCaches .pods shopPod false).after (.documents .empty)

theorem reached_shopStore : Job.Reached shopStore := by
  unfold shopStore
  exact .next .documents (Job.leads_after _ _)

/-- What is stored when the pod is gone. -/
@[irreducible] def stoppedStore : Store := (Job.call shopCaches .pods shopPod true).after shopStore

theorem leads_stoppedStore : (Job.call shopCaches .pods shopPod true).Leads shopStore stoppedStore := by
  unfold stoppedStore
  exact Job.leads_after _ _

theorem stopTime?_stoppedStore : stoppedStore.stopTime? shopInstance = some .epoch := by decide +kernel

theorem stopTime?_set_deletion :
    (Job.call shopCaches .pods shopPod true).MayStop shopStore shopInstance ∧
      ∀ s, Job.Later stoppedStore s → s.stopTime? shopInstance = some .epoch := by
  have hnone : shopStore.stopTime? shopInstance = none := by decide +kernel
  have hset := stopTime?_stoppedStore
  have hreached : Job.Reached stoppedStore := .next reached_shopStore leads_stoppedStore
  constructor
  · exact (reached_shopStore.stopTime?_set_once leads_stoppedStore shopInstance).1 hnone (by simp [hset])
  · exact (hreached.stopTime?_set_once (Job.leads_after (.sweep []) stoppedStore) shopInstance).2 _ hset

end FleetAtlas
