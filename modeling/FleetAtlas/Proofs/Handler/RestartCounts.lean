import FleetAtlas.Proofs.Handler.Independence
import FleetAtlas.Proofs.Handler.RestartGroups
import FleetAtlas.Proofs.Storage.Saved
import FleetAtlas.Proofs.Task.Writes

/-!
# Counts of restarts

* `Uid.IsRestarts`: the uids of events of restarts, `Event.IsRestart`: what such an event has to be;
* `EventProperties.Covers`: one count and its span go beyond another;
* `RestartWrite`: the writes that jobs make, of an event of restarts only if it counts more than the stored one;
  `RestartWrite.fetch?_cases`: what such a write does to a stored event;
* `Job.writes_restarts`: **every job makes such writes**; `writes_updatePod`: after an update that was good, what the pod
  counts is stored;
* `Job.Reached.restarts_monotonic`: **so counts of restarts only grow**.
-/

namespace FleetAtlas

open FleetAtlas.Task

/-! ### Events of restarts -/

/-- The uid of an event of restarts. -/
def Uid.IsRestarts (u : Uid .event) : Prop := "restart/".toList <+: u.text.toList

theorem Uid.isRestarts_restarts (v : Uid .deploymentInstance) (platform : Bool) : (Uid.restarts v platform).IsRestarts := by
  unfold IsRestarts
  rw [Uid.toList_restarts]
  exact List.prefix_append _ _

theorem Uid.not_isRestarts_clusterEvent (id : String) : ¬ (Uid.clusterEvent id).IsRestarts := by
  rintro ⟨rest, hrest⟩
  simp [Uid.clusterEvent] at hrest

/-- One event counts at least what another one counts, over a span that holds the other span. -/
structure EventProperties.Covers (new old : EventProperties) : Prop where
  count : old.count ≤ new.count
  first : new.firstTime ≤ old.firstTime
  last : old.lastTime ≤ new.lastTime

namespace EventProperties.Covers

variable {p q r : EventProperties}

theorem refl (p : EventProperties) : p.Covers p := ⟨Int32.le_refl _, Timestamp.le_refl _, Timestamp.le_refl _⟩

theorem trans (h : p.Covers q) (h' : q.Covers r) : p.Covers r where
  count := Int32.le_trans h'.count h.count
  first := Timestamp.le_trans h.first h'.first
  last := Timestamp.le_trans h'.last h.last

end EventProperties.Covers

namespace Event

/-- An event of restarts does not end before it begins. -/
structure IsRestart (e : Event) : Prop where
  kind : e.kind = EventKind.restart.name
  span : e.info.firstTime ≤ e.info.lastTime

/-- **What is merged** counts more than what was stored and covers it. -/
theorem merge_covers {new merged : Event} {stored : Option Event} (h : new.merge stored = some merged)
    (hnew : new.IsRestart) : merged.IsRestart ∧
      ∀ old, stored = some old → old.info.count < merged.info.count ∧ merged.info.Covers old.info := by
  cases stored with
  | none =>
    obtain rfl : new = merged := Option.some.inj h
    exact ⟨hnew, fun _ hold => nomatch hold⟩
  | some old =>
    simp only [merge] at h
    split at h
    · exact nomatch h
    · next hcount =>
      have hlt : old.info.count < new.info.count := Int32.not_le.mp hcount
      obtain rfl := Option.some.inj h
      constructor
      · refine ⟨hnew.kind, ?_⟩
        have hfirst := Timestamp.earlier_le_left new.info.firstTime old.info.firstTime
        have hlast := Timestamp.le_later_left new.info.lastTime old.info.lastTime
        exact Timestamp.le_trans hfirst (Timestamp.le_trans hnew.span hlast)
      · intro stored hstored
        obtain rfl := Option.some.inj hstored
        exact ⟨hlt, Int32.le_of_lt hlt, Timestamp.earlier_le_right _ _, Timestamp.le_later_right _ _⟩

end Event

/-! ### What a pod counts -/

/-- The span does not end before it begins. -/
def Restarts.Ordered (r : Restarts) : Prop := ∀ first last, r.span = some (first, last) → first ≤ last

theorem ordered_restartsOf (statuses : List ContainerStatus) (platform : Bool) :
    (restartsOf statuses platform).Ordered := by
  intro first last hspan
  have htotals := totals_restartsOf statuses platform
  exact (htotals.first _ hspan).2 (htotals.last _ hspan).1

theorem Restarts.event?_eq_some {statuses : List ContainerStatus} {platform : Bool} {v : Uid .deploymentInstance}
    {e : Event} (h : (restartsOf statuses platform).event? v platform = some e) :
    e.uid = .restarts v platform ∧ e.IsRestart := by
  obtain ⟨⟨first, last⟩, hspan, rfl⟩ := Option.map_eq_some_iff.mp h
  exact ⟨rfl, rfl, ordered_restartsOf statuses platform first last hspan⟩

/-! ### Writes of restarts -/

/-- A write of an entity; if that is an event of restarts, it counts more than the one that is stored, and covers it. -/
def RestartWrite (s : Store) : Family → Record → Prop
  | .event, r => ∃ e : Event, r = e.toRecord ∧ (e.uid.IsRestarts → e.IsRestart ∧
      ∀ old : Event, s.fetch? e.uid = some old → old.info.count < e.info.count ∧ e.info.Covers old.info)
  | f, r => ∃ e : Entity f, r = e.toRecord

/-- An event that is stored under a uid of restarts is of their kind. -/
def OfRestartKind : (f : Family) → Entity f → Prop
  | .event, e => e.uid.IsRestarts → e.kind = EventKind.restart.name
  | _, _ => True

theorem restartWrite_iff_of_ne {s : Store} {f : Family} {r : Record} (hf : f ≠ .event) :
    RestartWrite s f r ↔ ∃ e : Entity f, r = e.toRecord := by
  cases f
  case event => exact absurd rfl hf
  all_goals exact Iff.rfl

theorem ofRestartKind_of_ne {f : Family} (hf : f ≠ .event) (e : Entity f) : OfRestartKind f e := by
  cases f
  case event => exact absurd rfl hf
  all_goals trivial

/-- What is stored counts at least what an event counts. -/
def Reported (e : Event) (s : Store) : Prop := ∃ e' : Event, s.fetch? e.uid = some e' ∧ e.info.count ≤ e'.info.count

section Stable

variable {s s' : Store} {f : Family} {r : Record} {u : Uid .event}

/-- **What a write does to an event of restarts**: nothing, or it counts more and covers what was stored. -/
theorem RestartWrite.fetch?_cases (h : RestartWrite s f r) (hset : s.set f r = .ok s') (hu : u.IsRestarts) :
    s'.fetch? u = s.fetch? u ∨ ∃ e : Event, s'.fetch? u = some e ∧ e.info.firstTime ≤ e.info.lastTime ∧
      ∀ old : Event, s.fetch? u = some old → old.info.count < e.info.count ∧ e.info.Covers old.info := by
  by_cases hkey : f = .event ∧ r.uid = u.text
  · obtain ⟨rfl, huid⟩ := hkey
    obtain ⟨e, rfl, he⟩ := h
    obtain rfl : e.uid = u := Uid.eq_of_text huid
    obtain ⟨hrestart, hcovers⟩ := he hu
    obtain ⟨e', hfetch, hproperties⟩ := Store.fetch?_set_self hset
    have hinfo : Event.info e' = Event.info e := hproperties
    refine .inr ⟨e', hfetch, ?_, fun old hold => ?_⟩
    · rw [hinfo]
      exact hrestart.span
    · rw [hinfo]
      exact hcovers old hold
  · refine .inl (Store.fetch?_set_of_ne hset ?_)
    rintro ⟨rfl, huid⟩
    exact hkey ⟨rfl, huid.symm⟩

theorem stable_saved : Stable RestartWrite (·.Saved OfRestartKind) := by
  intro s s' f r hs hW hset
  by_cases hf : f = .event
  · subst hf
    obtain ⟨e, rfl, he⟩ := hW
    have hkind : OfRestartKind .event e := fun hu => (he hu).1.kind
    exact .save hs hkind hset
  · obtain ⟨e, rfl⟩ := (restartWrite_iff_of_ne hf).mp hW
    exact .save hs (ofRestartKind_of_ne hf e) hset

theorem stable_span (hu : u.IsRestarts) :
    Stable RestartWrite fun s => ∀ e : Event, s.fetch? u = some e → e.info.firstTime ≤ e.info.lastTime := by
  intro s s' f r hs hW hset e he
  rcases hW.fetch?_cases hset hu with hsame | ⟨e', he', hspan, -⟩
  · exact hs e (hsame ▸ he)
  · obtain rfl := Option.some.inj (he'.symm.trans he)
    exact hspan

theorem stable_covers (hu : u.IsRestarts) (p : EventProperties) :
    Stable RestartWrite fun s => ∃ e : Event, s.fetch? u = some e ∧ e.info.Covers p := by
  rintro s s' f r ⟨e, he, hcovers⟩ hW hset
  rcases hW.fetch?_cases hset hu with hsame | ⟨e', he', -, hmore⟩
  · exact ⟨e, hsame.trans he, hcovers⟩
  · exact ⟨e', he', (hmore e he).2.trans hcovers⟩

theorem stable_reported {e : Event} (hu : e.uid.IsRestarts) : Stable RestartWrite (Reported e) := by
  rintro s s' f r ⟨e₀, he₀, hcount⟩ hW hset
  rcases hW.fetch?_cases hset hu with hsame | ⟨e', he', -, hmore⟩
  · exact ⟨e₀, hsame.trans he₀, hcount⟩
  · exact ⟨e', he', Int32.le_trans hcount (hmore e₀ he₀).2.count⟩

theorem stable_reports (statuses : List ContainerStatus) (v : Uid .deploymentInstance) (platform : Bool) :
    Stable RestartWrite fun s => ∀ e, (restartsOf statuses platform).event? v platform = some e → Reported e s := by
  intro s s' f r hs hW hset e he
  obtain ⟨huid, -⟩ := Restarts.event?_eq_some he
  have hu : e.uid.IsRestarts := huid ▸ Uid.isRestarts_restarts v platform
  exact stable_reported hu (hs e he) hW hset

end Stable

/-! ### Handlers and sweeps -/

section Writes

variable {L : List Pod → Prop} {s : Store}

theorem writes_store_of_ne {f : Family} (hf : f ≠ .event) (e : Entity f) :
    (store e).Writes RestartWrite L (fun _ _ => True) s := by
  have hwrite : RestartWrite s f e.toRecord := (restartWrite_iff_of_ne hf).mpr ⟨e, rfl⟩
  exact writes_store hwrite fun _ _ => trivial

theorem writes_creationTime {W : Store → Family → Record → Prop} (m : Metadata) :
    (creationTime m).Writes W L (fun _ _ => True) s := by
  have hnothing : (creationTime m).Stores fun _ _ => False := stores_creationTime m
  exact hnothing.writes (fun _ _ _ h => h.elim) s

/-- **Only the handler of pods stores events of restarts.** -/
theorem writes_handle (c : Caches) {k : Observed} (hk : k ≠ .pods) (o : k.Object) (deleted : Bool) :
    (k.handle c o deleted).Writes RestartWrite L (fun _ _ => True) s := by
  refine (Observed.stores_handle c hk o deleted).writes (fun s f e hfootprint => ?_) s
  by_cases hf : f = .event
  · subst hf
    refine ⟨e, rfl, fun hu => ?_⟩
    rcases hfootprint.concerns with ⟨hpods, -⟩ | ⟨-, id, hid⟩
    · exact absurd hpods hk
    · have huid : e.uid = .clusterEvent id := Uid.eq_of_text hid
      exact absurd (huid ▸ hu) (Uid.not_isRestarts_clusterEvent id)
  · exact (restartWrite_iff_of_ne hf).mpr ⟨e, rfl⟩

/-- **An event of restarts** is stored over the one that was read, if it counts more; else that one counts enough. -/
theorem writes_storeRestarts {e : Event} (he : e.IsRestart) :
    (storeRestarts e).Writes RestartWrite L (fun _ s' => Reported e s') s := by
  have hfetched : (fetch .event e.uid).Writes RestartWrite L (fun stored s' => s'.fetch? e.uid = stored) s :=
    writes_fetch fun _ hread => Store.fetch?_of_read hread
  refine hfetched.bind fun stored s' hstored => ?_
  cases hmerge : Event.merge e stored with
  | none =>
    -- nothing is written: what is stored counts as much
    cases stored with
    | none => exact nomatch hmerge
    | some old =>
      simp only [Event.merge] at hmerge
      split at hmerge
      · next hcount => exact ⟨old, hstored, hcount⟩
      · exact nomatch hmerge
  | some merged =>
    obtain ⟨huid, hcount⟩ := Edit.uid_and_count_of_merge hmerge
    obtain ⟨hrestart, hcovers⟩ := Event.merge_covers hmerge he
    refine writes_store ⟨merged, rfl, fun _ => ⟨hrestart, fun old hold => ?_⟩⟩ fun s'' hset => ?_
    · rw [huid, hstored] at hold
      exact hcovers old hold
    · obtain ⟨e', hfetch, hproperties⟩ := Store.fetch?_set_self hset
      have hinfo : Event.info e' = Event.info merged := hproperties
      rw [huid] at hfetch
      refine ⟨e', hfetch, ?_⟩
      rw [hinfo, hcount]
      exact Int32.le_refl _

theorem writes_storeRestarts? (statuses : List ContainerStatus) (v : Uid .deploymentInstance) (platform : Bool) :
    (storeRestarts? ((restartsOf statuses platform).event? v platform)).Writes RestartWrite L
      (fun _ s' => ∀ e, (restartsOf statuses platform).event? v platform = some e → Reported e s') s := by
  cases hevent : (restartsOf statuses platform).event? v platform with
  | none => exact fun _ he => nomatch he
  | some e =>
    have he := (Restarts.event?_eq_some hevent).2
    refine Writes.mono (writes_storeRestarts he) fun _ s' hreported e' he' => ?_
    obtain rfl := Option.some.inj he'
    exact hreported

/-- What is stored for the platform's container still counts enough after the write for the customer's containers. -/
theorem writes_reports (statuses : List ContainerStatus) (v : Uid .deploymentInstance) :
    ((storeRestarts? ((restartsOf statuses true).event? v true)).bind fun _ =>
      storeRestarts? ((restartsOf statuses false).event? v false)).Writes RestartWrite L
      (fun _ s' => ∀ platform e, (restartsOf statuses platform).event? v platform = some e → Reported e s') s := by
  refine Writes.bind (writes_storeRestarts? statuses v true) fun _ s₁ hplatform => ?_
  have hcustomer : (storeRestarts? ((restartsOf statuses false).event? v false)).Writes RestartWrite L _ s₁ :=
    Writes.stable (stable_reports statuses v true) (writes_storeRestarts? statuses v false) hplatform
  refine hcustomer.mono ?_
  rintro _ s₂ ⟨hcustomer, hplatform⟩ platform e he
  cases platform with
  | true => exact hplatform e he
  | false => exact hcustomer e he

theorem writes_storeWorkload (p : Pod) (w : Workload) (prints : Fingerprints) (revision : String) :
    (storeWorkload p w prints revision).Writes RestartWrite L (fun _ s' => ∀ platform e,
      (restartsOf p.statuses platform).event? (w.identity.instanceUid revision (p.metadata.uid.getD "")) platform = some e →
        Reported e s') s := by
  unfold storeWorkload
  refine (writes_store_of_ne (by decide) _).bind fun _ _ _ => ?_
  refine (writes_store_of_ne (by decide) _).bind fun _ _ _ => ?_
  refine (writes_creationTime p.metadata).bind fun started _ _ => ?_
  have hfetched : ∀ (v : Uid .deploymentInstance) s', (fetch _ v).Writes RestartWrite L (fun _ _ => True) s' :=
    fun _ _ => writes_fetch fun _ _ => trivial
  refine (hfetched _ _).bind fun stored _ _ => ?_
  refine (writes_store_of_ne (by decide) _).bind fun _ s₁ _ => ?_
  exact writes_reports p.statuses _

theorem writes_updatePod (c : Caches) (p : Pod) :
    (updatePod c p).Writes RestartWrite L (fun _ s' => (workload? p).isSome → ∀ v, instanceOf? c p = some v →
      ∀ platform e, (restartsOf p.statuses platform).event? v platform = some e → Reported e s') s := by
  unfold updatePod
  cases hw : workload? p with
  | none => exact nofun
  | some w =>
    refine Writes.bind (writes_ofExcept _) fun prints _ _ => ?_
    refine Writes.bind (writes_ofExcept _) fun owner s' howner => ?_
    have hinstance := instanceOf?_of_workload? hw howner.1
    cases hrevision : owner.revision? with
    | none =>
      intro _ v hv
      rw [hinstance, hrevision] at hv
      exact nomatch hv
    | some revision =>
      refine Writes.mono (writes_storeWorkload p w prints revision) fun _ s'' hreported _ v hv => ?_
      rw [hinstance, hrevision] at hv
      obtain rfl := Option.some.inj hv
      exact hreported

theorem writes_stopPod (c : Caches) (p : Pod) : (stopPod c p).Writes RestartWrite L (fun _ _ => True) s := by
  unfold stopPod
  split
  · trivial
  · next v _ =>
    have hfetched : (fetch _ v).Writes RestartWrite L (fun _ _ => True) s := writes_fetch fun _ _ => trivial
    refine hfetched.bind fun stored s' _ => ?_
    cases stored with
    | none => trivial
    | some i =>
      intro time
      simp only [Task.bind]
      split
      · trivial
      · exact writes_store_of_ne (by decide) _

theorem writes_sweepInstances (live : List String) (instances : List DeploymentInstance) :
    (sweepInstances live instances).Writes RestartWrite L (fun _ _ => True) s := by
  induction instances generalizing s with
  | nil => trivial
  | cons i rest ih =>
    intro flag
    cases flag with
    | true => trivial
    | false =>
      show (if i.isStopped || live.contains i.info.id then sweepInstances live rest else _ : Task Unit).Writes _ _ _ _
      split
      · exact ih
      · intro time
        exact (writes_store_of_ne (by decide) (i.stop time)).bind fun _ _ _ => ih

theorem writes_sweep : sweep.Writes RestartWrite L (fun _ _ => True) s := by
  intro flag
  cases flag with
  | true => trivial
  | false =>
    intro rs _
    refine Writes.bind (writes_decodeAll _ rs) fun running _ _ => ?_
    intro pods _
    exact writes_sweepInstances _ running

end Writes

/-! ### Jobs -/

namespace Job

/-- **Every job writes an event of restarts only if it counts more.** -/
theorem writes_restarts (j : Job) (s : Store) : j.task.Writes RestartWrite (· = j.cached) (fun _ _ => True) s := by
  cases j with
  | call c k o deleted =>
    by_cases hk : k = .pods
    · subst hk
      cases deleted with
      | false => exact (writes_updatePod c o).mono fun _ _ _ => trivial
      | true => exact writes_stopPod c o
    · exact writes_handle c hk o deleted
  | sweep cached => exact writes_sweep

variable {I : Store → Prop} {s s' : Store} {u : Uid .event}

theorem Leads.stable (hI : Stable RestartWrite I) {j : Job} (h : j.Leads s s') (hs : I s) : I s' := by
  obtain ⟨t, hsteps⟩ := h
  exact ((j.writes_restarts s).leads hI hsteps hs).1

theorem Later.stable (hI : Stable RestartWrite I) (h : Later s s') (hs : I s) : I s' := by
  induction h with
  | refl => exact hs
  | tail _ hj ih =>
    obtain ⟨j, hj⟩ := hj
    exact hj.stable hI ih

theorem Reached.stable (hI : Stable RestartWrite I) (hdocuments : I (.documents .empty)) (hgraph : I (.graph .empty))
    (h : Reached s) : I s := by
  induction h with
  | documents => exact hdocuments
  | graph => exact hgraph
  | next _ hj ih => exact hj.stable hI ih

theorem Later.reached (h : Later s s') (hs : Reached s) : Reached s' := by
  induction h with
  | refl => exact hs
  | tail _ hj ih =>
    obtain ⟨j, hj⟩ := hj
    exact ih.next hj

/-- **What is stored of restarts** is an event of their kind, over a span in order. -/
theorem Reached.isRestart (h : Reached s) (hu : u.IsRestarts) {e : Event} (he : s.fetch? u = some e) : e.IsRestart := by
  have hsaved : s.Saved OfRestartKind := h.stable stable_saved .documents .graph
  have hspan := h.stable (stable_span hu) (fun _ hnone => nomatch hnone) (fun _ hnone => nomatch hnone) e he
  have huid : e.uid = u := h.filed.fetch?_uid he
  have hshown := hsaved.fetch?_eq_some_iff.mp (huid ▸ he)
  obtain ⟨e₀, hkind, huid₀, heq⟩ := hsaved.exists_kind hshown (s.ofRecord?_shown e)
  obtain rfl : e₀.uid = u := Uid.eq_of_text (huid₀.trans (congrArg Uid.text huid))
  exact ⟨heq.trans (hkind hu), hspan⟩

/-- **Counts of restarts only grow.**  A record under a uid of restarts is an event of restarts for good, whose count and
span only grow; whenever it is overwritten, its count grows; and an update of a pod that was good and that was not passed
over leaves every count as large as that of the pod. -/
theorem Reached.restarts_monotonic (hs : Reached s) :
    (∀ u : Uid .event, u.IsRestarts → ∀ r, s.get .event u.text = .ok (some r) →
      ∃ e : Event, s.fetch? u = some e ∧ e.IsRestart ∧
        ∀ s', Later s s' → ∃ e' : Event, s'.fetch? u = some e' ∧ e'.IsRestart ∧ e'.info.Covers e.info) ∧
      (∀ (j : Job) (r : Record) (next : Task Unit) (s₁ s₂ : Store) (u : Uid .event), u.IsRestarts →
        Task.Leads (· = j.cached) j.task s (.set .event r next) s₁ → r.uid = u.text → s₁.set .event r = .ok s₂ →
          ∃ e' : Event, s₂.fetch? u = some e' ∧ ∀ e : Event, s₁.fetch? u = some e → e.info.count < e'.info.count) ∧
      ∀ (c : Caches) (p : Pod) (cached : List Pod) (site : Site), site.service.store = s →
        (Observed.call .pods c p false cached site).1 = .ok () → (workload? p).isSome →
          ∀ v, instanceOf? c p = some v → ∀ platform e, (restartsOf p.statuses platform).event? v platform = some e →
            Reported e (Observed.call .pods c p false cached site).2.service.store := by
  refine ⟨fun u hu r hget => ?_, fun j r next s₁ s₂ u hu hsteps huid hset => ?_, ?_⟩
  · have hsaved : s.Saved OfRestartKind := hs.stable stable_saved .documents .graph
    obtain ⟨e, huid, rfl, -⟩ := hsaved.exists_shown hget
    obtain rfl : e.uid = u := Uid.eq_of_text huid
    have he : s.fetch? e.uid = some e := hsaved.fetch?_eq_some_iff.mpr hget
    refine ⟨e, he, hs.isRestart hu he, fun s' hlater => ?_⟩
    obtain ⟨e', he', hcovers⟩ := hlater.stable (stable_covers hu (Event.info e)) ⟨e, he, .refl _⟩
    exact ⟨e', he', (hlater.reached hs).isRestart hu he', hcovers⟩
  · have hsaved : s.Saved OfRestartKind := hs.stable stable_saved .documents .graph
    obtain ⟨-, hwrite, -⟩ := (j.writes_restarts s).leads stable_saved hsteps hsaved
    obtain ⟨e, rfl, he⟩ := hwrite
    obtain rfl : e.uid = u := Uid.eq_of_text huid
    obtain ⟨e', hfetch, hproperties⟩ := Store.fetch?_set_self hset
    have hinfo : Event.info e' = Event.info e := hproperties
    refine ⟨e', hfetch, fun old hold => ?_⟩
    rw [hinfo]
    exact ((he hu).2 old hold).1
  · rintro c p cached site rfl hok hworkload v hv platform e he
    have hupdate : (updatePod c p).Writes RestartWrite (· = cached) _ site.service.store := writes_updatePod c p
    exact hupdate.of_run rfl hok hworkload v hv platform e he

end Job

/-! ### A pod that restarts -/

/-- The pod of the shop, whose container of the customer was restarted. -/
def restartedPod (count : Int32) : Pod :=
  { shopPod with statuses := [⟨headContainer, count, some ⟨some .epoch⟩, none⟩] }

/-- What is stored after the second restart. -/
@[irreducible] def restartedStore : Store := (Job.call shopCaches .pods (restartedPod 2) false).after (.documents .empty)

theorem reached_restartedStore : Job.Reached restartedStore := by
  unfold restartedStore
  exact .next .documents (Job.leads_after _ _)

/-- The event of these restarts. -/
def shopRestarts : Uid .event := .restarts shopInstance false

/-- What a pod says that counts six restarts. -/
def sixRestarts : Event := .event shopRestarts .restart 6 .epoch .epoch false shopInstance

/-- What comes of an update on a store. -/
def podUpdate (s : Store) (p : Pod) : Except Failure Unit × Site :=
  Observed.call .pods shopCaches p false [] (.on s fun _ => .epoch)

theorem count_restartedStore : (restartedStore.fetch? shopRestarts).map (fun e => (Event.info e).count) = some 2 := by
  decide +kernel

/-- Two restarts stay counted, and the sixth one is counted when the pod shows it. -/
theorem restarts_monotonic_shop :
    Job.Reached restartedStore ∧ (podUpdate restartedStore (restartedPod 6)).1 = .ok () ∧
      (∀ s, Job.Later restartedStore s → ∃ e : Event, s.fetch? shopRestarts = some e ∧ 2 ≤ e.info.count) ∧
      Reported sixRestarts (podUpdate restartedStore (restartedPod 6)).2.service.store := by
  have hok : (podUpdate restartedStore (restartedPod 6)).1 = .ok () := eq_ok_of_toOption (by decide +kernel)
  have hworkload : (workload? (restartedPod 6)).isSome := by decide +kernel
  have hinstance : instanceOf? shopCaches (restartedPod 6) = some shopInstance := by decide +kernel
  have hevent : (restartsOf (restartedPod 6).statuses false).event? shopInstance false = some sixRestarts := by
    decide +kernel
  obtain ⟨hgrow, -, hupdate⟩ := reached_restartedStore.restarts_monotonic
  refine ⟨reached_restartedStore, hok, fun s hlater => ?_, ?_⟩
  · obtain ⟨stored, hstored, hcount⟩ := Option.map_eq_some_iff.mp count_restartedStore
    obtain ⟨r, hget, -⟩ := Store.exists_get_of_fetch? hstored
    obtain ⟨e, he, -, hcovers⟩ := hgrow shopRestarts (Uid.isRestarts_restarts _ _) r hget
    obtain rfl := Option.some.inj (hstored.symm.trans he)
    obtain ⟨e', he', -, hmore⟩ := hcovers s hlater
    exact ⟨e', he', hcount ▸ hmore.count⟩
  · exact hupdate shopCaches (restartedPod 6) [] _ rfl hok hworkload shopInstance hinstance false sixRestarts hevent

/-- A pod that has no volumes with configuration. -/
def unmountedPod (count : Int32) : Pod :=
  { restartedPod count with spec := shopPod.spec.map fun spec => { spec with volumes := [] } }

/-- **An update may be passed over**: without these volumes a pod is none of the fleet's, and nothing is stored though its
container was restarted. -/
theorem restarts_passed_over :
    Job.Reached (.documents .empty) ∧ (podUpdate (.documents .empty) (unmountedPod 6)).1 = .ok () ∧
      instanceOf? shopCaches (unmountedPod 6) = some shopInstance ∧
      (restartsOf (unmountedPod 6).statuses false).event? shopInstance false = some sixRestarts ∧
      ¬ Reported sixRestarts (podUpdate (.documents .empty) (unmountedPod 6)).2.service.store := by
  have hok : (podUpdate (.documents .empty) (unmountedPod 6)).1 = .ok () := eq_ok_of_toOption (by decide +kernel)
  have hinstance : instanceOf? shopCaches (unmountedPod 6) = some shopInstance := by decide +kernel
  have hevent : (restartsOf (unmountedPod 6).statuses false).event? shopInstance false = some sixRestarts := by
    decide +kernel
  have hnone : (podUpdate (.documents .empty) (unmountedPod 6)).2.service.store.fetch? shopRestarts = none := by
    decide +kernel
  refine ⟨.documents, hok, hinstance, hevent, ?_⟩
  rintro ⟨e, he, -⟩
  exact nomatch hnone.symm.trans he

end FleetAtlas
