import FleetAtlas.Proofs.Instance.Writes

/-!
# Which instances a pod backs

* `Store.Runs s u pod`: the instance `u` is stored with the pod as its id and without a time of its stop;
  `Store.AtMostOne s pod`: no two instances run for the pod;
* `Turn`: a job with what it found; `Turn.Follow`: jobs that are run one after the other, on what the one before has left;
* `Turn.Shows`: a live call has stored the pod as an instance; `Turn.runs_cases`, `runs_of_shows`, `runs_of_ne`: **what one
  job does to the instances that run for a pod**;
* `Turn.Rehomes`: a live call has stored the pod as another instance than the one that runs for it;
* `Turn.Settled`: a live call finds the pod with a given identity, and its owner at a given revision;
* `Turn.at_most_one_iff`: **at most one instance ever runs for a pod exactly if no call rehomes it**;
* `Turn.exists_two_running`: **a pod can be rehomed**, by another revision of its owner, and then no sweep stops the
  instance that it had, as long as it is live.
-/

namespace FleetAtlas

open FleetAtlas.Task

/-- An instance runs for a pod: the pod is its id, and it has no time of its stop. -/
def Store.Runs (s : Store) (u : Uid .deploymentInstance) (pod : String) : Prop :=
  ∃ p, s.info? u = some p ∧ p.id = pod ∧ p.stopped = none

instance (s : Store) (u : Uid .deploymentInstance) (pod : String) : Decidable (s.Runs u pod) :=
  inferInstanceAs (Decidable (∃ p ∈ s.info? u, p.id = pod ∧ p.stopped = none))

/-- No two instances run for a pod. -/
def Store.AtMostOne (s : Store) (pod : String) : Prop := ∀ u v, s.Runs u pod → s.Runs v pod → u = v

/-- A job, and what it finds. -/
structure Turn where
  job : Job
  before : Site

/-- A job that stores an instance without a time of its stop is a call for a live pod. -/
theorem Job.InstanceWrite.exists_live {j : Job} {s : Store} {i : DeploymentInstance} (h : j.InstanceWrite s i)
    (hrunning : i.info.stopped = none) : ∃ c p, j = .call c .pods p false ∧ LiveWrite c p s i := by
  rcases h.cases with ⟨old, time, -, -, rfl⟩ | hlive
  · exact nomatch hrunning
  · exact hlive

namespace Turn

/-- What the job comes to, and what it leaves. -/
def outcome (t : Turn) : Except Failure Unit × Site := run t.job.cached t.job.task t.before

def after (t : Turn) : Site := t.outcome.2

/-- **Jobs one after the other**: each finds what the one before has left; calls of storage may fail. -/
def Follow : Store → List Turn → Prop
  | _, [] => True
  | s, t :: turns => t.before.service.store = s ∧ Follow t.after.service.store turns

/-- A live call for the pod has stored the instance. -/
def Shows (t : Turn) (u : Uid .deploymentInstance) (pod : String) : Prop :=
  ∃ c p, t.job = .call c .pods p false ∧ p.metadata.uid.getD "" = pod ∧
    Wrote t.before t.after .deploymentInstance u.text

/-- **A live call has rehomed a pod**: it has stored an instance that was not stopped, while another one was running for
the pod. -/
def Rehomes (t : Turn) (pod : String) : Prop :=
  ∃ u v, t.Shows u pod ∧ t.before.service.store.stopTime? u = none ∧ v ≠ u ∧ t.before.service.store.Runs v pod

variable {t : Turn} {u v : Uid .deploymentInstance} {pod : String}

/-! ### One job -/

theorem filed_after (hs : t.before.service.store.Filed) : t.after.service.store.Filed := by
  obtain ⟨_, hsteps⟩ := t.job.leads_run t.before
  exact hsteps.filed hs

/-- An instance that a job has stored was admitted when it was stored last. -/
structure Stored (t : Turn) (i : DeploymentInstance) (s : Store) : Prop where
  wrote : Wrote t.before t.after .deploymentInstance i.uid.text
  earlier : ∃ writes, Trace (InstanceWrites t.job.InstanceWrite) t.before.service.store writes s
  admitted : t.job.InstanceWrite s i
  info?_eq : t.after.service.store.info? i.uid = some i.info

/-- **An instance was stored by the job, or it is as it was.** -/
theorem stored_or_same (hs : t.before.service.store.Filed) (u : Uid .deploymentInstance) :
    (∃ i s, i.uid = u ∧ t.Stored i s) ∨ (¬ Wrote t.before t.after .deploymentInstance u.text ∧
      t.after.service.store.info? u = t.before.service.store.info? u) := by
  rcases (t.job.writes_instances hs).wrote_or_same rfl .deploymentInstance u.text with
    ⟨hwrote, s₁, r, s₂, hlast⟩ | ⟨hnot, hget⟩
  · obtain ⟨i, i', hi, rfl, hfetch, -, hinfo, -⟩ := InstanceWrites.exists_of_last hlast
    refine .inl ⟨i, s₁, rfl, hwrote, hlast.earlier, hi, ?_⟩
    rw [← hinfo]
    exact Store.info?_of_fetch? hfetch
  · exact .inr ⟨hnot, congrArg (Option.map _) (Store.fetch?_congr hget)⟩

/-- **A stop is carried over** by a live pod. -/
theorem stopTime?_of_earlier {c : Caches} {p : Pod} {s s' : Store} {writes : List (Family × Record)}
    (h : Trace (InstanceWrites (LiveWrite c p)) s writes s') (u : Uid .deploymentInstance) :
    s'.stopTime? u = s.stopTime? u := by
  have hstable : Stable (InstanceWrites (LiveWrite c p)) fun s₁ => s₁.stopTime? u = s.stopTime? u := by
    intro s₁ s₂ f r hs hW hset
    by_cases hkey : f = .deploymentInstance ∧ r.uid = u.text
    · obtain ⟨rfl, huid⟩ := hkey
      obtain ⟨i, rfl, hi⟩ := hW
      obtain rfl : i.uid = u := Uid.eq_of_text huid
      obtain ⟨i', hfetch, -, hinfo, -⟩ := Store.fetch?_set_instance hset
      rw [← hs, ← hi.stopped, ← hinfo]
      exact Store.stopTime?_of_fetch? hfetch
    · rw [← hs]
      unfold Store.stopTime? Store.info?
      rw [Store.fetch?_set_of_ne hset]
      rintro ⟨rfl, huid⟩
      exact hkey ⟨rfl, huid.symm⟩
  exact h.stable hstable rfl

/-- What a live call has stored is the instance of its pod. -/
theorem Stored.live {i : DeploymentInstance} {s : Store} {c : Caches} {p : Pod} (h : t.Stored i s)
    (hjob : t.job = .call c .pods p false) :
    instanceOf? c p = some i.uid ∧ i.info.id = p.metadata.uid.getD "" ∧
      i.info.stopped = t.before.service.store.stopTime? i.uid := by
  have hlive : t.job.InstanceWrite = LiveWrite c p := by
    rw [hjob]
    rfl
  have hadmitted := h.admitted
  obtain ⟨writes, hearlier⟩ := h.earlier
  rw [hlive] at hadmitted hearlier
  refine ⟨hadmitted.shown, hadmitted.id, ?_⟩
  rw [hadmitted.stopped, stopTime?_of_earlier hearlier]

theorem Shows.stored (h : t.Shows u pod) (hs : t.before.service.store.Filed) : ∃ c p i s,
    t.job = .call c .pods p false ∧ p.metadata.uid.getD "" = pod ∧ i.uid = u ∧ t.Stored i s := by
  obtain ⟨c, p, hjob, hpod, hwrote⟩ := h
  rcases stored_or_same hs u with ⟨i, s, huid, hstored⟩ | ⟨hnot, -⟩
  · exact ⟨c, p, i, s, hjob, hpod, huid, hstored⟩
  · exact absurd hwrote hnot

/-- **An instance that runs for a pod** ran for it before, or a live call for the pod has stored it, not stopped. -/
theorem runs_cases (hs : t.before.service.store.Filed) (h : t.after.service.store.Runs u pod) :
    t.before.service.store.Runs u pod ∨ t.Shows u pod ∧ t.before.service.store.stopTime? u = none := by
  obtain ⟨q, hq, hid, hrunning⟩ := h
  rcases stored_or_same hs u with ⟨i, s, rfl, hstored⟩ | ⟨-, hsame⟩
  · obtain rfl : i.info = q := Option.some.inj (hstored.info?_eq.symm.trans hq)
    obtain ⟨c, p, hjob, hlive⟩ := hstored.admitted.exists_live hrunning
    obtain ⟨-, -, hstopped⟩ := hstored.live hjob
    exact .inr ⟨⟨c, p, hjob, hlive.id.symm.trans hid, hstored.wrote⟩, hstopped.symm.trans hrunning⟩
  · exact .inl ⟨q, hsame.symm.trans hq, hid, hrunning⟩

/-- The instance that a live call has stored runs for its pod, unless it is stopped. -/
theorem runs_of_shows (hs : t.before.service.store.Filed) (h : t.Shows u pod)
    (hrunning : t.before.service.store.stopTime? u = none) : t.after.service.store.Runs u pod := by
  obtain ⟨c, p, i, s, hjob, hpod, rfl, hstored⟩ := h.stored hs
  obtain ⟨-, hid, hstopped⟩ := hstored.live hjob
  exact ⟨i.info, hstored.info?_eq, hid.trans hpod, hstopped.trans hrunning⟩

/-- A live call stores one instance. -/
theorem Shows.unique (hs : t.before.service.store.Filed) (hu : t.Shows u pod) {pod' : String} (hv : t.Shows v pod') :
    u = v := by
  obtain ⟨c, p, i, s, hjob, -, rfl, hi⟩ := hu.stored hs
  obtain ⟨c', p', j, s', -, -, rfl, hj⟩ := hv.stored hs
  exact Option.some.inj ((hi.live hjob).1.symm.trans (hj.live hjob).1)

/-- **The other instances run on** while a live call stores one. -/
theorem runs_of_ne (hs : t.before.service.store.Filed) (hu : t.Shows u pod) (hne : v ≠ u) {pod' : String}
    (h : t.before.service.store.Runs v pod') : t.after.service.store.Runs v pod' := by
  rcases stored_or_same hs v with ⟨i, s, rfl, hstored⟩ | ⟨-, hsame⟩
  · have hv : t.Shows i.uid pod := by
      obtain ⟨c, p, hjob, hpod, -⟩ := hu
      exact ⟨c, p, hjob, hpod, hstored.wrote⟩
    exact absurd (hv.unique hs hu) hne
  · obtain ⟨q, hq, hid, hrunning⟩ := h
    exact ⟨q, hsame.trans hq, hid, hrunning⟩

/-- **One job**: at most one instance goes on running for a pod exactly if the job does not rehome it. -/
theorem atMostOne_after_iff (hs : t.before.service.store.Filed) (hone : t.before.service.store.AtMostOne pod) :
    t.after.service.store.AtMostOne pod ↔ ¬ t.Rehomes pod := by
  constructor
  · rintro hafter ⟨u, v, hshows, hnone, hne, hruns⟩
    have hu := runs_of_shows hs hshows hnone
    have hv := runs_of_ne hs hshows hne hruns
    exact hne (hafter v u hv hu)
  · intro hno u v hu hv
    refine Classical.byContradiction fun hne => ?_
    rcases runs_cases hs hu with hu | ⟨hshows, hnone⟩
    · rcases runs_cases hs hv with hv | ⟨hshows, hnone⟩
      · exact hne (hone u v hu hv)
      · exact hno ⟨v, u, hshows, hnone, hne, hu⟩
    · rcases runs_cases hs hv with hv | ⟨hshows', -⟩
      · exact hno ⟨u, v, hshows, hnone, fun e => hne e.symm, hv⟩
      · exact hne (hshows.unique hs hshows')

/-! ### Jobs one after the other -/

theorem atMostOne_iff_not_rehomes {s : Store} {turns : List Turn} (hs : s.Filed) (hone : s.AtMostOne pod)
    (h : Follow s turns) :
    (∀ t ∈ turns, t.after.service.store.AtMostOne pod) ↔ ∀ t ∈ turns, ¬ t.Rehomes pod := by
  induction turns generalizing s with
  | nil => simp
  | cons t turns ih =>
    obtain ⟨rfl, hrest⟩ := h
    have hstep := atMostOne_after_iff hs hone
    simp only [List.forall_mem_cons]
    constructor
    · rintro ⟨hfirst, hall⟩
      exact ⟨hstep.mp hfirst, (ih (filed_after hs) hfirst hrest).mp hall⟩
    · rintro ⟨hfirst, hall⟩
      have hfirst := hstep.mpr hfirst
      exact ⟨hfirst, (ih (filed_after hs) hfirst hrest).mpr hall⟩

/-- Calls that store the pod as one and the same instance do not rehome it. -/
theorem atMostOne_of_shows {s : Store} {turns : List Turn} (hs : s.Filed) (h : Follow s turns)
    (hstart : ∀ v, s.Runs v pod → v = u) (hshows : ∀ t ∈ turns, ∀ v, t.Shows v pod → v = u) :
    ∀ t ∈ turns, t.after.service.store.AtMostOne pod := by
  induction turns generalizing s with
  | nil => exact fun _ ht => absurd ht List.not_mem_nil
  | cons t turns ih =>
    obtain ⟨rfl, hrest⟩ := h
    rw [List.forall_mem_cons] at hshows ⊢
    obtain ⟨hshows, hlater⟩ := hshows
    have hafter : ∀ v, t.after.service.store.Runs v pod → v = u := by
      intro v hv
      rcases runs_cases hs hv with hv | ⟨hv, -⟩
      · exact hstart v hv
      · exact hshows v hv
    have hfirst : t.after.service.store.AtMostOne pod := fun v w hv hw => (hafter v hv).trans (hafter w hw).symm
    exact ⟨hfirst, ih (filed_after hs) hrest hafter hlater⟩

theorem Follow.filed_before {s : Store} {turns : List Turn} (h : Follow s turns) (hs : s.Filed) :
    ∀ t ∈ turns, t.before.service.store.Filed := by
  induction turns generalizing s with
  | nil => exact fun _ ht => absurd ht List.not_mem_nil
  | cons t turns ih =>
    obtain ⟨rfl, hrest⟩ := h
    exact List.forall_mem_cons.mpr ⟨hs, ih hrest (filed_after hs)⟩

/-- A live call for the pod finds it with the identity, and its owner at the revision, if it finds any. -/
def Settled (t : Turn) (pod : String) (identity : Identity) (revision : String) : Prop :=
  ∀ c p, t.job = .call c .pods p false → p.metadata.uid.getD "" = pod →
    (∀ found, Identity.ofMetadata? p.metadata = some found → found = identity) ∧
    ∀ owner found, podOwner c.replicaSets p = .ok owner → owner.revision? = some found → found = revision

theorem Settled.eq_of_shows {identity : Identity} {revision : String} (h : t.Settled pod identity revision)
    (hs : t.before.service.store.Filed) (hv : t.Shows v pod) : v = identity.instanceUid revision pod := by
  obtain ⟨c, p, i, s, hjob, hpod, rfl, hstored⟩ := hv.stored hs
  obtain ⟨identity', owner, revision', hidentity, howner, hrevision, huid⟩ :=
    exists_of_instanceOf? (hstored.live hjob).1
  obtain ⟨hsame, hrolled⟩ := h c p hjob hpod
  rw [huid, hpod, hsame identity' hidentity, hrolled owner revision' howner hrevision, Identity.instanceUid]

/-- **At most one instance ever runs for a pod exactly if no call rehomes it**; and no call does if all of them store the pod
as the same instance, as they do while the identity of the pod and the revision of its owner stay the same. -/
theorem at_most_one_iff {s : Store} {turns : List Turn} (hs : s.Filed) (hone : s.AtMostOne pod) (h : Follow s turns) :
    ((∀ t ∈ turns, t.after.service.store.AtMostOne pod) ↔ ∀ t ∈ turns, ¬ t.Rehomes pod) ∧
      (∀ u, (∀ v, s.Runs v pod → v = u) → (∀ t ∈ turns, ∀ v, t.Shows v pod → v = u) →
        ∀ t ∈ turns, t.after.service.store.AtMostOne pod) ∧
      ∀ identity revision, (∀ t ∈ turns, t.Settled pod identity revision) →
        (∀ t ∈ turns, ∀ v, t.Shows v pod → v = identity.instanceUid revision pod) := by
  refine ⟨atMostOne_iff_not_rehomes hs hone h, fun u => atMostOne_of_shows hs h, fun identity revision hsettled => ?_⟩
  exact fun t ht v hv => (hsettled t ht).eq_of_shows (h.filed_before hs t ht) hv

end Turn

/-! ### A pod whose owner is rolled out again -/

/-- The replica set of the shop, rolled out for another revision. -/
def revisedReplicaSet : ReplicaSet where
  metadata := { shopReplicaSet.metadata with annotations := .ofList [("deployment.kubernetes.io/revision", "5")] }
  template := none

def revisedCaches : Caches := { shopCaches with replicaSets := .ofList [revisedReplicaSet] }

def revisedInstance : Uid .deploymentInstance := .deploymentInstance (.deployment "t" "a" "Dev" "5") "p"

/-- What is stored once the pod was shown under both revisions. -/
@[irreducible] def rehomedStore : Store := (Job.call revisedCaches .pods shopPod false).after shopStore

/-- The pod is shown, it is shown again after its owner has changed, and a sweep finds it live. -/
def firstTurn : Turn := ⟨.call shopCaches .pods shopPod false, .on (.documents .empty) fun _ => .epoch⟩

def revisedTurn : Turn := ⟨.call revisedCaches .pods shopPod false, .on shopStore fun _ => .epoch⟩

def sweepTurn : Turn := ⟨.sweep [shopPod], .on rehomedStore fun _ => .epoch⟩

namespace Turn

theorem follow_sweepTurn : Follow (.documents .empty) [firstTurn, revisedTurn, sweepTurn] := by
  refine ⟨rfl, ?_, ?_, trivial⟩
  · show shopStore = _
    unfold shopStore
    rfl
  · show rehomedStore = _
    unfold rehomedStore
    rfl

theorem not_atMostOne_sweepTurn : ¬ sweepTurn.after.service.store.AtMostOne "p" := by
  have hfirst : sweepTurn.after.service.store.Runs shopInstance "p" := by decide +kernel
  have hsecond : sweepTurn.after.service.store.Runs revisedInstance "p" := by decide +kernel
  exact fun hone => absurd (hone _ _ hfirst hsecond) (by decide)

/-- **A pod can be rehomed**: then two instances run for it, also after a sweep, and every job was good. -/
theorem exists_two_running : Follow (.documents .empty) [firstTurn, revisedTurn, sweepTurn] ∧
    (∀ t ∈ [firstTurn, revisedTurn, sweepTurn], t.outcome.1 = .ok ()) ∧
    ¬ ∀ t ∈ [firstTurn, revisedTurn, sweepTurn], t.after.service.store.AtMostOne "p" := by
  have hok : ∀ t ∈ [firstTurn, revisedTurn, sweepTurn], t.outcome.1.toOption = some () := by decide +kernel
  refine ⟨follow_sweepTurn, fun t ht => eq_ok_of_toOption (hok t ht), fun hall => ?_⟩
  exact not_atMostOne_sweepTurn (hall sweepTurn (.tail _ (.tail _ List.mem_cons_self)))

/-- The first of these calls finds nothing to rehome; one of the others has rehomed the pod. -/
theorem at_most_one_shop : firstTurn.after.service.store.AtMostOne "p" ∧
    Follow (.documents .empty) [firstTurn, revisedTurn, sweepTurn] ∧
    ∃ t ∈ [firstTurn, revisedTurn, sweepTurn], t.Rehomes "p" := by
  have hempty : Store.Filed (.documents .empty) := Store.Built.documents.filed
  have hnone : ∀ v, ¬ Store.Runs (.documents .empty) v "p" := by
    rintro v ⟨q, hq, -⟩
    exact nomatch hq
  have hone : Store.AtMostOne (.documents .empty) "p" := fun u v hu => absurd hu (hnone u)
  have hfirst : Follow (.documents .empty) [firstTurn] := ⟨rfl, trivial⟩
  refine ⟨?_, follow_sweepTurn, ?_⟩
  · refine (at_most_one_iff hempty hone hfirst).1.mpr (fun t ht => ?_) firstTurn List.mem_cons_self
    obtain rfl := List.mem_singleton.mp ht
    rintro ⟨u, v, -, -, -, hv⟩
    exact hnone v hv
  · refine Classical.byContradiction fun hno => ?_
    have hall := (at_most_one_iff hempty hone follow_sweepTurn).1.mpr fun t ht hre => hno ⟨t, ht, hre⟩
    exact not_atMostOne_sweepTurn (hall sweepTurn (.tail _ (.tail _ List.mem_cons_self)))

end Turn

end FleetAtlas
