import FleetAtlas.Proofs.Handler.Redelivery
import Mathlib.Logic.Function.Iterate

/-!
# What handlers object to

* `Task.OnlyStorageFails`: whatever its calls are answered, a task fails because of storage or not at all;
* `Task.Attempts`: a run comes to the write of a record, be it done or refused;
* `Observed.objection?`: what is wrong with an object that is there, as the object and the caches tell;
* `Observed.handleReplicaSet_cases`, `Observed.updatePod_cases`: what handlers make of the two kinds that they object to;
* `Observed.handle_of_objection?`, `Observed.onlyStorageFails_handle`: **a handler says at once what is wrong, and nothing
  but storage stops it later**;
* `Observed.error_before_writes`: so an error of another kind comes before any write, and whatever is stored.
-/

namespace FleetAtlas

open FleetAtlas.Task

/-! ### Tasks that only storage stops -/

namespace Task

variable {α β : Type}

/-- **The task fails because of storage or not at all**, whatever its calls are answered. -/
def OnlyStorageFails : Task α → Prop
  | done _ => True
  | fail e => ∃ x, e = .storage x
  | set _ _ next => OnlyStorageFails next
  | get _ _ next => ∀ answer, OnlyStorageFails (next answer)
  | list _ _ next => ∀ answer, OnlyStorageFails (next answer)
  | now next => ∀ time, OnlyStorageFails (next time)
  | pods next => ∀ pods, OnlyStorageFails (next pods)
  | stopping next => ∀ flag, OnlyStorageFails (next flag)
  | counted next => OnlyStorageFails next

namespace OnlyStorageFails

theorem bind {t : Task α} {k : α → Task β} (h : t.OnlyStorageFails) (hk : ∀ a, (k a).OnlyStorageFails) :
    (t.bind k).OnlyStorageFails := by
  induction t with
  | done a => exact hk a
  | fail e => exact h
  | set f r next ih => exact ih h
  | get f uid next ih => exact fun answer => ih answer (h answer)
  | list f selection next ih => exact fun answer => ih answer (h answer)
  | now next ih => exact fun time => ih time (h time)
  | pods next ih => exact fun pods => ih pods (h pods)
  | stopping next ih => exact fun flag => ih flag (h flag)
  | counted next ih => exact ih h

theorem store {f : Family} (e : Entity f) : (store e).OnlyStorageFails := trivial

/-- A record that does not decode is a failure of storage, too. -/
theorem decode (f : Family) (r : Record) : (decode f r).OnlyStorageFails := by
  unfold Task.decode
  split
  · trivial
  · exact ⟨.malformed, rfl⟩

theorem fetch (f : Family) (uid : Uid f) : (fetch f uid).OnlyStorageFails := by
  intro answer
  cases answer with
  | none => trivial
  | some r => exact (decode f r).bind fun _ => trivial

theorem creationTime (m : Metadata) : (creationTime m).OnlyStorageFails := by
  unfold FleetAtlas.creationTime
  cases m.created with
  | none => exact fun _ => trivial
  | some time => trivial

/-- **So does a run of it**, whichever of its calls fail. -/
theorem error_of_run {t : Task α} (h : t.OnlyStorageFails) {cached : List Pod} {site : Site} {e : Failure}
    (herror : (run cached t site).1 = .error e) : ∃ x, e = .storage x := by
  induction t generalizing site with
  | done a => exact nomatch herror
  | fail e' =>
    obtain rfl : e' = e := Except.error.inj herror
    exact h
  | set f r next ih =>
    rcases site.service.set_cases f r with ⟨x, s', hset, -⟩ | ⟨s', hset, -⟩ <;> rw [run, hset] at herror
    · exact ⟨x, (Except.error.inj herror).symm⟩
    · exact ih h herror
  | get f uid next ih =>
    obtain ⟨s', -, ⟨x, hget⟩ | ⟨answer, hget, -⟩⟩ := site.service.get_cases f uid <;> rw [run, hget] at herror
    · exact ⟨x, (Except.error.inj herror).symm⟩
    · exact ih answer (h answer) herror
  | list f selection next ih =>
    obtain ⟨s', -, ⟨x, hlist⟩ | ⟨answer, hlist, -⟩⟩ := site.service.list_cases f selection <;>
      rw [run, hlist] at herror
    · exact ⟨x, (Except.error.inj herror).symm⟩
    · exact ih answer (h answer) herror
  | now next ih => exact ih _ (h _) herror
  | pods next ih => exact ih _ (h _) herror
  | stopping next ih => exact ih _ (h _) herror
  | counted next ih => exact ih h herror

end OnlyStorageFails

/-- The run of a task comes to the write of a record, be it done or refused. -/
def Attempts (cached : List Pod) (t : Task α) (site : Site) (f : Family) (r : Record) : Prop :=
  ∃ steps next, ((fun p => step cached p.1 p.2)^[steps] (t, site)).1 = set f r next

/-- A task that has failed makes no more calls. -/
theorem not_attempts_fail {cached : List Pod} {e : Failure} {site : Site} {f : Family} {r : Record} :
    ¬ Attempts (α := α) cached (fail e) site f r := by
  rintro ⟨steps, next, h⟩
  have hstays : (fun p : Task α × Site => step cached p.1 p.2)^[steps] (fail e, site) = (fail e, site) :=
    Function.iterate_fixed rfl steps
  rw [hstays] at h
  exact nomatch h

end Task

/-! ### What handlers do once they have begun -/

theorem onlyStorageFails_storeRollout (m : Metadata) (o : Rollout) (runtime : Entity .runtimeVersion) :
    (storeRollout m o runtime).OnlyStorageFails := by
  unfold storeRollout
  refine (OnlyStorageFails.store _).bind fun _ => ?_
  refine (OnlyStorageFails.store _).bind fun _ => ?_
  refine (OnlyStorageFails.store _).bind fun _ => ?_
  refine (OnlyStorageFails.store _).bind fun _ => ?_
  exact (OnlyStorageFails.creationTime m).bind fun _ => .store _

theorem onlyStorageFails_storeRestarts? (e : Option Event) : (storeRestarts? e).OnlyStorageFails := by
  cases e with
  | none => trivial
  | some e =>
    refine (OnlyStorageFails.fetch _ _).bind fun stored => ?_
    cases e.merge stored with
    | none => trivial
    | some merged => exact .store merged

theorem onlyStorageFails_storeWorkload (p : Pod) (w : Workload) (prints : Fingerprints) (revision : String) :
    (storeWorkload p w prints revision).OnlyStorageFails := by
  unfold storeWorkload
  refine (OnlyStorageFails.store _).bind fun _ => ?_
  refine (OnlyStorageFails.store _).bind fun _ => ?_
  refine (OnlyStorageFails.creationTime _).bind fun started => ?_
  refine (OnlyStorageFails.fetch _ _).bind fun stored => ?_
  refine (OnlyStorageFails.store _).bind fun _ => ?_
  exact (onlyStorageFails_storeRestarts? _).bind fun _ => onlyStorageFails_storeRestarts? _

theorem onlyStorageFails_stopPod (c : Caches) (p : Pod) : (stopPod c p).OnlyStorageFails := by
  unfold stopPod
  cases instanceOf? c p with
  | none => trivial
  | some uid =>
    refine (OnlyStorageFails.fetch _ _).bind fun stored => ?_
    cases stored with
    | none => trivial
    | some i =>
      intro time
      show OnlyStorageFails (if DeploymentInstance.isStopped i then done () else _)
      split
      · trivial
      · exact .store _

/-! ### What they object to before -/

namespace Observed

/-- What is wrong with an object that is there, as the object and the caches tell. -/
def objection? (c : Caches) : (k : Observed) → k.Object → Option Failure
  | .replicaSets, (r : ReplicaSet) =>
    match rollout? r with
    | none => none
    | some o =>
      match Image.runtimeVersion? o.runtimeImage with
      | none => some (.unparsableRuntime o.runtimeImage)
      | some _ => none
  | .pods, (p : Pod) =>
    match workload? p with
    | none => none
    | some w =>
      match fingerprints c p.metadata.scopeName w.mounts, podOwner c.replicaSets p with
      | .error e, _ | .ok _, .error e => some e
      | .ok _, .ok _ => none
  | .namespaces, _ | .nodes, _ | .events, _ => none

variable {k : Observed} {c : Caches} {o : k.Object}

/-- A replica set that is there is left out, or objected to, or stored. -/
theorem handleReplicaSet_cases (c : Caches) (r : ReplicaSet) :
    (Observed.replicaSets.objection? c r = none ∧ handleReplicaSet r false = done ()) ∨
    (∃ e, Observed.replicaSets.objection? c r = some e ∧ handleReplicaSet r false = fail e) ∨
    ∃ rollout runtime, Observed.replicaSets.objection? c r = none ∧
      handleReplicaSet r false = storeRollout r.metadata rollout runtime := by
  unfold handleReplicaSet
  cases hrollout : rollout? r with
  | none => exact .inl ⟨by simp only [objection?, hrollout], rfl⟩
  | some rollout =>
    right
    cases himage : Image.runtimeVersion? rollout.runtimeImage with
    | none =>
      refine .inl ⟨.unparsableRuntime rollout.runtimeImage, by simp only [objection?, hrollout, himage], ?_⟩
      simp only [Bool.false_eq_true, if_false, Image.runtimeVersion, himage]
    | some runtime =>
      refine .inr ⟨rollout, runtime, by simp only [objection?, hrollout, himage], ?_⟩
      simp only [Bool.false_eq_true, if_false, Image.runtimeVersion, himage]

/-- A pod that is there is left out, or objected to, or stored. -/
theorem updatePod_cases (c : Caches) (p : Pod) :
    (Observed.pods.objection? c p = none ∧ updatePod c p = done ()) ∨
    (∃ e, Observed.pods.objection? c p = some e ∧ updatePod c p = fail e) ∨
    ∃ w prints revision, Observed.pods.objection? c p = none ∧
      updatePod c p = storeWorkload p w prints revision := by
  unfold updatePod
  cases hw : workload? p with
  | none => exact .inl ⟨by simp only [objection?, hw], rfl⟩
  | some w =>
    cases hprints : fingerprints c p.metadata.scopeName w.mounts with
    | error e =>
      refine .inr (.inl ⟨e, by simp only [objection?, hw, hprints], ?_⟩)
      simp only [hprints]
      rfl
    | ok prints =>
      cases howner : podOwner c.replicaSets p with
      | error e =>
        refine .inr (.inl ⟨e, by simp only [objection?, hw, hprints, howner], ?_⟩)
        simp only [hprints]
        rfl
      | ok owner =>
        have hnone : Observed.pods.objection? c p = none := by simp only [objection?, hw, hprints, howner]
        cases hrevision : owner.revision? with
        | none =>
          refine .inl ⟨hnone, ?_⟩
          simp only [hprints, Task.ofExcept, bind_eq, Task.bind, hrevision]
        | some revision =>
          refine .inr (.inr ⟨w, prints, revision, hnone, ?_⟩)
          simp only [hprints, Task.ofExcept, bind_eq, Task.bind, hrevision]

/-- **A handler says at once what is wrong**: it makes no call before. -/
theorem handle_of_objection? {e : Failure} (h : k.objection? c o = some e) : k.handle c o false = fail e := by
  cases k with
  | namespaces => exact nomatch h
  | nodes => exact nomatch h
  | events => exact nomatch h
  | replicaSets =>
    show handleReplicaSet o false = fail e
    obtain ⟨hnone, -⟩ | ⟨e', hsome, hfail⟩ | ⟨_, _, hnone, -⟩ := handleReplicaSet_cases c o
    · exact nomatch hnone.symm.trans h
    · rw [hfail, Option.some.inj (hsome.symm.trans h)]
    · exact nomatch hnone.symm.trans h
  | pods =>
    show updatePod c o = fail e
    obtain ⟨hnone, -⟩ | ⟨e', hsome, hfail⟩ | ⟨_, _, _, hnone, -⟩ := updatePod_cases c o
    · exact nomatch hnone.symm.trans h
    · rw [hfail, Option.some.inj (hsome.symm.trans h)]
    · exact nomatch hnone.symm.trans h

/-- **Nothing but storage stops it later**, and nothing else stops the handling of a deletion. -/
theorem onlyStorageFails_handle {deleted : Bool} (h : deleted = true ∨ k.objection? c o = none) :
    (k.handle c o deleted).OnlyStorageFails := by
  cases k with
  | namespaces =>
    show (handleNamespace o deleted).OnlyStorageFails
    unfold handleNamespace
    split
    · trivial
    · split
      · trivial
      · exact (OnlyStorageFails.store _).bind fun _ => .store _
  | nodes =>
    show (handleClusterNode o deleted).OnlyStorageFails
    unfold handleClusterNode
    split
    · trivial
    · split
      · trivial
      · exact .store _
  | replicaSets =>
    show (handleReplicaSet o deleted).OnlyStorageFails
    cases deleted with
    | true => trivial
    | false =>
      have hnone := h.resolve_left Bool.false_ne_true
      obtain ⟨-, hdone⟩ | ⟨e, hsome, -⟩ | ⟨rollout, runtime, -, hstore⟩ := handleReplicaSet_cases c o
      · rw [hdone]
        trivial
      · exact nomatch hnone.symm.trans hsome
      · rw [hstore]
        exact onlyStorageFails_storeRollout _ _ _
  | pods =>
    show (handlePod c o deleted).OnlyStorageFails
    cases deleted with
    | true => exact onlyStorageFails_stopPod c o
    | false =>
      have hnone := h.resolve_left Bool.false_ne_true
      show (updatePod c o).OnlyStorageFails
      obtain ⟨-, hdone⟩ | ⟨e, hsome, -⟩ | ⟨w, prints, revision, -, hstore⟩ := updatePod_cases c o
      · rw [hdone]
        trivial
      · exact nomatch hnone.symm.trans hsome
      · rw [hstore]
        exact onlyStorageFails_storeWorkload _ _ _ _
  | events =>
    show (handleEvent c o deleted).OnlyStorageFails
    unfold handleEvent
    split
    · trivial
    · split
      · trivial
      · exact .store _

/-- **Errors that are not of storage come before the first write.**  A call that ends in one is about an object that is
there, and has not come to any write, be it done or refused; nothing at all has changed; and the same call ends in the same
error whatever is stored, whichever calls of storage fail, and whatever the clock shows. -/
theorem error_before_writes {deleted : Bool} {cached : List Pod} {site : Site} {e : Failure}
    (herror : (k.call c o deleted cached site).1 = .error e) (he : ∀ x, e ≠ .storage x) :
    deleted = false ∧ k.objection? c o = some e ∧
      (∀ f r, ¬ (k.handle c o deleted).Attempts cached site f r) ∧
      (k.call c o deleted cached site).2 = site ∧
      ∀ (cached' : List Pod) (site' : Site), (k.call c o deleted cached' site').1 = .error e := by
  have hobjects : ¬ (deleted = true ∨ k.objection? c o = none) := by
    intro h
    obtain ⟨x, hx⟩ := (onlyStorageFails_handle h).error_of_run herror
    exact he x hx
  obtain ⟨hlive, hsome⟩ := not_or.mp hobjects
  obtain ⟨x, hx⟩ := Option.ne_none_iff_exists'.mp hsome
  obtain rfl := Bool.eq_false_iff.mpr hlive
  have hfail := handle_of_objection? hx
  unfold call at herror ⊢
  rw [hfail] at herror ⊢
  obtain rfl : x = e := Except.error.inj herror
  exact ⟨rfl, hx, fun _ _ => not_attempts_fail, rfl, fun _ _ => rfl⟩

/-- Caches in which the secret of the shop is missing. -/
def secretlessCaches : Caches := { shopCaches with secrets := .empty }

def secretMissing : Failure := .missingConfiguration "Secret prod/x-secret-env-variables"

/-- The pod of the shop is refused as long as its secret is missing, before storage could refuse the write of its
configuration. -/
theorem error_before_writes_shop :
    (Observed.call .pods secretlessCaches shopPod false [] downSite).1 = .error secretMissing ∧
      (∀ x, secretMissing ≠ .storage x) ∧
      (∀ f r, ¬ (Observed.handle secretlessCaches .pods shopPod false).Attempts [] downSite f r) ∧
      ∀ cached site, (Observed.call .pods secretlessCaches shopPod false cached site).1 = .error secretMissing := by
  have hobjection : Observed.objection? secretlessCaches .pods shopPod = some secretMissing := by decide +kernel
  have herror : (Observed.call .pods secretlessCaches shopPod false [] downSite).1 = .error secretMissing := by
    unfold call
    rw [handle_of_objection? hobjection]
    rfl
  have hkind : ∀ x, secretMissing ≠ .storage x := nofun
  obtain ⟨-, -, hwrites, -, hagain⟩ := error_before_writes herror hkind
  exact ⟨herror, hkind, hwrites, hagain⟩

end Observed

end FleetAtlas
