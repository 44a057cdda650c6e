import FleetAtlas.Proofs.Handler.Independence
import FleetAtlas.Proofs.Storage.Frame

/-!
# Tenants that are kept apart

* `belongs_unique`: **no record belongs to two tenants** whose ids have no slash;
* `keeps_handle_of_tenant`: a handler writes what belongs to the tenant of its object, and what belongs to none;
* `Observed.call_isolated`: **so nothing of another tenant changes**.

Only the id of the tenant stands between slashes that can be told: what follows it in a uid may have slashes of its own.
-/

namespace FleetAtlas

open FleetAtlas.Task

/-! ### What belongs to two tenants -/

section Under

variable {tenant A B uid : String}

/-- The id of the tenant is what comes before the first slash. -/
theorem takeWhile_of_prefix {tenant cs : List Char} (hslash : '/' ∉ tenant) (h : tenant ++ ['/'] <+: cs) :
    cs.takeWhile (· ≠ '/') = tenant := by
  obtain ⟨rest, rfl⟩ := h
  rw [List.append_assoc]
  exact Text.takeWhile_append (Text.ne_mark_of_notMem hslash) (Text.halts_mark '/' rest)

theorem Under.takeWhile (hslash : '/' ∉ tenant.toList) (h : Under tenant uid) :
    uid.toList.takeWhile (· ≠ '/') = tenant.toList := by
  rcases h with rfl | h
  · have htake : (uid.toList ++ []).takeWhile (· ≠ '/') = uid.toList :=
      Text.takeWhile_append (Text.ne_mark_of_notMem hslash) Text.halts_nil
    simpa using htake
  · exact takeWhile_of_prefix hslash h

/-- **No record belongs to two tenants.** -/
theorem belongs_unique (hA : '/' ∉ A.toList) (hB : '/' ∉ B.toList) {f : Family} (h : Belongs A f uid)
    (h' : Belongs B f uid) : A = B := by
  have hunder : Under A uid → Under B uid → A = B := by
    intro h h'
    exact String.toList_inj.mp ((h.takeWhile hA).symm.trans (h'.takeWhile hB))
  cases f
  case node => exact h.elim
  case runtimeVersion => exact h.elim
  case event =>
    -- what follows the mark of restarts decides
    obtain ⟨rest, hrest⟩ := h
    have hpart : ∀ {t : String}, Belongs t .event uid → t.toList ++ ['/'] <+: A.toList ++ ['/'] ++ rest := by
      intro t ht
      have hchars : uid.toList = "restart/".toList ++ (A.toList ++ ['/'] ++ rest) := by
        rw [← hrest]
        simp
      have hprefix : "restart/".toList ++ t.toList ++ ['/'] <+: uid.toList := ht
      rw [hchars, List.append_assoc, List.prefix_append_right_inj] at hprefix
      exact hprefix
    have hhead := takeWhile_of_prefix hA (hpart ⟨rest, hrest⟩)
    have hhead' := takeWhile_of_prefix hB (hpart h')
    exact String.toList_inj.mp (hhead.symm.trans hhead')
  all_goals exact hunder h h'

/-- **What is written for one tenant belongs to no other.** -/
theorem Writable.not_belongs (hAB : A ≠ B) (hA : '/' ∉ A.toList) (hB : '/' ∉ B.toList) {f : Family}
    (h : Writable A f uid) : ¬ Belongs B f uid := by
  intro hother
  rcases h with h | rfl | ⟨rfl, id, rfl⟩
  · exact hAB (belongs_unique hA hB h hother)
  · exact hother
  · obtain ⟨rest, hrest⟩ := hother
    simp [Uid.clusterEvent] at hrest

end Under

/-! ### Handlers -/

section Keeps

variable {s₀ : Store} {L : List Pod → Prop} {tenant : String}

/-- The instance of a pod that is gone belongs to the tenant of the pod. -/
theorem keeps_stopPod_of_tenant (c : Caches) (p : Pod)
    (htenant : p.metadata.annotation? tenantIdAnnotation = some tenant) :
    (stopPod c p).Keeps (s₀.Alike (Writable tenant)) L fun _ => True := by
  unfold stopPod
  cases hu : instanceOf? c p with
  | none => trivial
  | some u =>
    have hunder : Under tenant u.text := by
      obtain ⟨identity, owner, revision, hidentity, -, -, rfl⟩ := exists_of_instanceOf? hu
      obtain rfl := tenantId_of_identity htenant hidentity
      exact identity.under_instanceUid revision _
    refine (keeps_fetch _ _).bind fun stored hstored => ?_
    cases stored with
    | none => trivial
    | some i =>
      intro time
      simp only [Task.bind]
      split
      · trivial
      · -- the instance that is written is the one that was found under the uid
        obtain ⟨s, hs, hi⟩ := hstored
        have huid : (DeploymentInstance.stop i time).uid = u := by
          rw [DeploymentInstance.uid_stop]
          exact hs.filed.fetch?_uid hi
        refine keeps_store fun _ _ hs hset => hs.set (.inl ?_) hset
        show Under tenant (DeploymentInstance.stop i time).uid.text
        rw [huid]
        exact hunder

/-- **A handler writes what belongs to the tenant of its object, and what belongs to none.** -/
theorem Observed.keeps_handle_of_tenant (c : Caches) (k : Observed) (o : k.Object) (htenant : k.tenant? c o = some tenant)
    (deleted : Bool) : (k.handle c o deleted).Keeps (s₀.Alike (Writable tenant)) L fun _ => True := by
  have hkept : ∀ {s s' f r}, k.Footprint c o f r.uid → s₀.Alike (Writable tenant) s → s.set f r = .ok s' →
      s₀.Alike (Writable tenant) s' := by
    intro s s' f r hfootprint hs hset
    exact hs.set (hfootprint.writable tenant htenant) hset
  by_cases hk : k = pods
  · subst hk
    cases deleted with
    | false => exact (within_updatePod c o).keeps hkept
    | true => exact keeps_stopPod_of_tenant c o htenant
  · exact (stores_handle c hk o deleted).within.keeps hkept

end Keeps

namespace Observed

/-- **A call for an object of one tenant changes nothing of another.**  Whatever is cached, and whichever call of storage
fails: every look-up of what belongs to the other tenant, and every list as far as it shows this, is as before. -/
theorem call_isolated {A B : String} (hAB : A ≠ B) (hA : '/' ∉ A.toList) (hB : '/' ∉ B.toList) (c : Caches)
    (k : Observed) (o : k.Object) (htenant : k.tenant? c o = some A) (deleted : Bool) (cached : List Pod) (site : Site)
    (hbuilt : site.service.store.Built) :
    (∀ f uid, Belongs B f uid →
      (k.call c o deleted cached site).2.service.store.get f uid = site.service.store.get f uid) ∧
      ∀ f selection,
        ((k.call c o deleted cached site).2.service.store.list f selection).map (List.filter (Belongs B f ·.uid)) =
          (site.service.store.list f selection).map (List.filter (Belongs B f ·.uid)) := by
  have hfiled := hbuilt.filed
  obtain ⟨t, hsteps⟩ := leads_run (L := (· = cached)) rfl (k.handle c o deleted) site
  have halike : site.service.store.Alike (Writable A) (k.call c o deleted cached site).2.service.store :=
    ((keeps_handle_of_tenant c k o htenant deleted).leads (.refl hfiled) hsteps).1
  have hother : ∀ {f uid}, Belongs B f uid → ¬ Writable A f uid := fun h hw => hw.not_belongs hAB hA hB h
  constructor
  · intro f uid h
    exact halike.get_eq f uid (hother h)
  · intro f selection
    exact halike.list_eq hfiled (fun r hr => hother (of_decide_eq_true hr)) selection

end Observed

/-! ### A neighbour of the shop -/

/-- The record of another customer. -/
def neighbour : Record := (Entity.customer "u" "Neighbour").toRecord

/-- A graph that holds this record. -/
def neighbourStore : Store := ((Store.graph .empty).set .customer neighbour).toOption.getD (.graph .empty)

theorem built_neighbourStore : neighbourStore.Built := by
  have hset : (Store.graph .empty).set .customer neighbour = .ok neighbourStore := rfl
  exact .set .graph hset

/-- No instance can be stored there. -/
def neighbourSite : Site where
  service := ⟨neighbourStore, [⟨.set, some .deploymentInstance, 0, "down"⟩], []⟩
  clock := fun _ => .epoch
  reads := 0
  stopping := false
  metrics := .zero

def neighbourCall : Except Failure Unit × Site := Observed.call .pods shopCaches shopPod false [] neighbourSite

/-- The call stores configurations before it fails, and the record of the neighbour stays. -/
theorem call_isolated_neighbour :
    ("t" ≠ "u" ∧ '/' ∉ "t".toList ∧ '/' ∉ "u".toList) ∧ Observed.tenant? shopCaches .pods shopPod = some "t" ∧
      neighbourStore.Built ∧ neighbourCall.1 = .error (.storage (.other "down")) ∧
      neighbourCall.2.service.store ≠ neighbourStore ∧
      neighbourCall.2.service.store.get .customer "u" = .ok (some neighbour) := by
  have hids : "t" ≠ "u" ∧ '/' ∉ "t".toList ∧ '/' ∉ "u".toList := by decide
  have htenant : Observed.tenant? shopCaches .pods shopPod = some "t" := by decide +kernel
  have hfailed : neighbourCall.1 = .error (.storage (.other "down")) := rfl
  have hchanged : neighbourCall.2.service.store ≠ neighbourStore := by decide +kernel
  have hstored : neighbourStore.get .customer "u" = .ok (some neighbour) := rfl
  obtain ⟨hget, -⟩ := Observed.call_isolated hids.1 hids.2.1 hids.2.2 shopCaches .pods shopPod htenant false []
    neighbourSite built_neighbourStore
  have hbelongs : Belongs "u" .customer "u" := under_self "u"
  exact ⟨hids, htenant, built_neighbourStore, hfailed, hchanged, (hget .customer "u" hbelongs).trans hstored⟩

end FleetAtlas
