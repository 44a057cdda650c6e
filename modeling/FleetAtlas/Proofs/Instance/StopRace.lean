import FleetAtlas.Proofs.Instance.StopTime

/-!
# Stops under concurrent writers

* `Workers`: the handler of pods and the sweep on one store, taking turns at each call of storage; `Workers.Reached`,
  `Workers.Later`;
* `Task.Overwrites s u t`: the task is about to write another time of the stop of `u` than `t`, before it reads again;
* `Task.Careful u`: after whatever the task reads next, it keeps every stop of `u`;
* `Workers.Reached.stop_kept_iff`: **a stop is kept by all that follows if and only if no worker is about to overwrite it**;
* `Workers.exists_cleared`: **a stop can be cleared**, by the write of a pod that was read before the sweep.

Both workers write the whole record, so what one of them read before the other's write is what it brings back.
-/

namespace FleetAtlas

namespace Task

variable {α β : Type} {u : Uid .deploymentInstance} {time : Timestamp}

/-! ### Writes that are under way -/

/-- The task is about to write another time of the stop of the instance, before it reads again, and storage takes all
that it writes until then. -/
def Overwrites (s : Store) (u : Uid .deploymentInstance) (time : Timestamp) : Task α → Prop
  | done _ | fail _ | get .. | list .. => False
  | set f r next => s.Takes f r ∧
    ((∃ i : DeploymentInstance, f = .deploymentInstance ∧ r = i.toRecord ∧ i.uid = u ∧ i.info.stopped ≠ some time) ∨
      Overwrites s u time next)
  | now next => ∃ reading, Overwrites s u time (next reading)
  | pods next => ∃ cached, Overwrites s u time (next cached)
  | stopping next => ∃ flag, Overwrites s u time (next flag)
  | counted next => Overwrites s u time next

/-- What is about to be written does not depend on what is stored, but for the model. -/
theorem overwrites_congr {s s' : Store} (h : ∀ f r, s.Takes f r ↔ s'.Takes f r) (t : Task α) :
    t.Overwrites s u time ↔ t.Overwrites s' u time := by
  induction t with
  | set f r next ih => exact and_congr (h f r) (or_congr_right ih)
  | now next ih => exact exists_congr ih
  | pods next ih => exact exists_congr ih
  | stopping next ih => exact exists_congr ih
  | counted next ih => exact ih
  | _ => exact Iff.rfl

theorem takes_step (cached : List Pod) (t : Task α) (site : Site) (f : Family) (r : Record) :
    (step cached t site).2.service.store.Takes f r ↔ site.service.store.Takes f r := by
  cases t with
  | set g q next =>
    rcases site.service.set_cases g q with ⟨e, s', hset, hstore⟩ | ⟨s', hset, hstore⟩ <;>
      simp only [step, resume, hset]
    · rw [hstore]
    · exact Store.takes_set hstore
  | get g uid next =>
    obtain ⟨s', hstore, ⟨e, hget⟩ | ⟨answer, hget, -⟩⟩ := site.service.get_cases g uid <;>
      simp only [step, resume, hget, hstore]
  | list g selection next =>
    obtain ⟨s', hstore, ⟨e, hlist⟩ | ⟨answer, hlist, -⟩⟩ := site.service.list_cases g selection <;>
      simp only [step, resume, hlist, hstore]
  | _ => exact Iff.rfl

/-- **A task that keeps a stop is not about to overwrite it.** -/
theorem Keeps.not_overwrites {t : Task α} {Q : α → Prop} {L : List Pod → Prop} (hl : ∀ cached, L cached)
    (h : t.Keeps (Shows u (Stopped (some time))) L Q) {s : Store} (hs : Shows u (Stopped (some time)) s) :
    ¬ t.Overwrites s u time := by
  induction t generalizing s with
  | done a => exact id
  | fail e => exact id
  | get f uid next => exact id
  | list f selection next => exact id
  | set f r next ih =>
    rintro ⟨⟨s', hset⟩, hwrite⟩
    obtain ⟨hs', hnext⟩ := h s s' hs hset
    rcases hwrite with ⟨i, rfl, rfl, rfl, hne⟩ | hnext'
    · obtain ⟨i', hfetch, hp⟩ := Store.fetch?_set_self hset
      refine hne ?_
      rw [← hs'.2]
      unfold Store.info?
      rw [hfetch]
      exact (congrArg (fun p => p.stopped) hp).symm
    · exact ih hnext hs' ((overwrites_congr (fun g q => (Store.takes_set hset).symm) next).mp hnext')
  | now next ih => exact fun ⟨reading, ho⟩ => ih reading (h reading) hs ho
  | pods next ih => exact fun ⟨cached, ho⟩ => ih cached (h cached (hl cached)) hs ho
  | stopping next ih => exact fun ⟨flag, ho⟩ => ih flag (h flag) hs ho
  | counted next ih => exact fun ho => ih h hs ho

/-- **A write that is under way can be carried out.** -/
theorem Overwrites.exists_leads {t : Task α} {s : Store} (h : t.Overwrites s u time) :
    ∃ t' s', Leads (fun _ => True) t s t' s' ∧ s'.stopTime? u ≠ some time := by
  induction t generalizing s with
  | done a => exact absurd h id
  | fail e => exact absurd h id
  | get f uid next => exact absurd h id
  | list f selection next => exact absurd h id
  | set f r next ih =>
    obtain ⟨⟨s', hset⟩, hwrite⟩ := h
    have hfirst : ∀ {t' s''}, Leads (fun _ => True) next s' t' s'' → Leads (fun _ => True) (.set f r next) s t' s'' := by
      intro t' s'' hrest
      refine .step [] trivial (.on s fun _ => .epoch) ?_
      simp only [step, Site.on, Service.on, Service.set, Service.expose, Fault.strike_nil, hset, resume]
      exact hrest
    rcases hwrite with ⟨i, rfl, rfl, rfl, hne⟩ | hnext
    · obtain ⟨i', hfetch, hp⟩ := Store.fetch?_set_self hset
      refine ⟨next, s', hfirst .refl, fun e => hne ?_⟩
      rw [← e]
      unfold Store.stopTime? Store.info?
      rw [hfetch]
      exact (congrArg (fun p => p.stopped) hp).symm
    · obtain ⟨t', s'', hrest, hne⟩ := ih ((overwrites_congr (fun g q => (Store.takes_set hset).symm) next).mp hnext)
      exact ⟨t', s'', hfirst hrest, hne⟩
  | now next ih =>
    obtain ⟨reading, hnext⟩ := h
    obtain ⟨t', s', hrest, hne⟩ := ih reading hnext
    exact ⟨t', s', .step [] trivial (.on s fun _ => reading) hrest, hne⟩
  | pods next ih =>
    obtain ⟨cached, hnext⟩ := h
    obtain ⟨t', s', hrest, hne⟩ := ih cached hnext
    exact ⟨t', s', .step cached trivial (.on s fun _ => .epoch) hrest, hne⟩
  | stopping next ih =>
    obtain ⟨flag, hnext⟩ := h
    obtain ⟨t', s', hrest, hne⟩ := ih flag hnext
    exact ⟨t', s', .step [] trivial { Site.on s fun _ => .epoch with stopping := flag } hrest, hne⟩
  | counted next ih =>
    obtain ⟨t', s', hrest, hne⟩ := ih h
    exact ⟨t', s', .step [] trivial (.on s fun _ => .epoch) hrest, hne⟩

/-! ### Careful tasks -/

/-- After whatever the task reads next, it keeps every stop of the instance; it writes no instance but from an entity. -/
def Careful (u : Uid .deploymentInstance) : Task α → Prop
  | done _ | fail _ => True
  | set f r next => (f = .deploymentInstance → ∃ i : DeploymentInstance, r = i.toRecord) ∧ Careful u next
  | get f uid next =>
    (∀ time, (get f uid next).Keeps (Shows u (Stopped (some time))) (fun _ => True) fun _ => True) ∧
      ∀ answer, Careful u (next answer)
  | list f selection next =>
    (∀ time, (list f selection next).Keeps (Shows u (Stopped (some time))) (fun _ => True) fun _ => True) ∧
      ∀ answer, Careful u (next answer)
  | now next => ∀ reading, Careful u (next reading)
  | pods next => ∀ cached, Careful u (next cached)
  | stopping next => ∀ flag, Careful u (next flag)
  | counted next => Careful u next

theorem Careful.step {t : Task α} (h : t.Careful u) (cached : List Pod) (site : Site) :
    (step cached t site).1.Careful u := by
  cases t with
  | done a => trivial
  | fail e => trivial
  | set f r next =>
    rcases site.service.set_cases f r with ⟨e, s', hset, -⟩ | ⟨s', hset, -⟩ <;> simp only [Task.step, resume, hset]
    · trivial
    · exact h.2
  | get f uid next =>
    obtain ⟨s', -, ⟨e, hget⟩ | ⟨answer, hget, -⟩⟩ := site.service.get_cases f uid <;>
      simp only [Task.step, resume, hget]
    · trivial
    · exact h.2 answer
  | list f selection next =>
    obtain ⟨s', -, ⟨e, hlist⟩ | ⟨answer, hlist, -⟩⟩ := site.service.list_cases f selection <;>
      simp only [Task.step, resume, hlist]
    · trivial
    · exact h.2 answer
  | now next => exact h _
  | pods next => exact h _
  | stopping next => exact h _
  | counted next => exact h

/-- **A careful task that is not about to overwrite a stop keeps it at its next step**, and is not about to overwrite it
after that. -/
theorem Careful.step_keeps {t : Task α} (h : t.Careful u) (cached : List Pod) {site : Site}
    (hs : Shows u (Stopped (some time)) site.service.store) (ho : ¬ t.Overwrites site.service.store u time) :
    Shows u (Stopped (some time)) (Task.step cached t site).2.service.store ∧
      ¬ (Task.step cached t site).1.Overwrites (Task.step cached t site).2.service.store u time := by
  cases t with
  | done a => exact ⟨hs, id⟩
  | fail e => exact ⟨hs, id⟩
  | set f r next =>
    rcases site.service.set_cases f r with ⟨e, s', hset, hstore⟩ | ⟨s', hset, hstore⟩ <;>
      simp only [Task.step, resume, hset]
    · exact ⟨hstore ▸ hs, id⟩
    · have htakes : site.service.store.Takes f r := ⟨_, hstore⟩
      refine ⟨?_, fun hnext => ho ⟨htakes, .inr ?_⟩⟩
      · by_cases hu : f = .deploymentInstance ∧ r.uid = u.text
        · obtain ⟨rfl, hu⟩ := hu
          obtain ⟨i, rfl⟩ := h.1 rfl
          refine hs.set hstore fun hi => ?_
          exact Classical.byContradiction fun hne => ho ⟨htakes, .inl ⟨i, rfl, rfl, hi, hne⟩⟩
        · exact hs.set_other hstore hu
      · exact (overwrites_congr (fun g q => Store.takes_set hstore) next).mp hnext
  | get f uid next =>
    -- the answer shows the stop, so nothing that follows from it is stale
    have hkeeps := (h.1 time).step cached trivial hs
    exact ⟨hkeeps.1, hkeeps.2.not_overwrites (fun _ => trivial) hkeeps.1⟩
  | list f selection next =>
    have hkeeps := (h.1 time).step cached trivial hs
    exact ⟨hkeeps.1, hkeeps.2.not_overwrites (fun _ => trivial) hkeeps.1⟩
  | now next => exact ⟨hs, fun hnext => ho ⟨_, hnext⟩⟩
  | pods next => exact ⟨hs, fun hnext => ho ⟨_, hnext⟩⟩
  | stopping next => exact ⟨hs, fun hnext => ho ⟨_, hnext⟩⟩
  | counted next => exact ⟨hs, ho⟩

/-! ### What workers do -/

/-- The task has a result or has failed. -/
def IsOver (t : Task α) : Prop := (∃ a, t = done a) ∨ ∃ e, t = fail e

theorem isOver_ofExcept (e : Except Failure α) : (ofExcept e).IsOver := by
  cases e with
  | ok a => exact .inl ⟨a, rfl⟩
  | error e => exact .inr ⟨e, rfl⟩

theorem isOver_decode (f : Family) (r : Record) : (decode f r).IsOver := by
  unfold decode
  split
  · exact .inl ⟨_, rfl⟩
  · exact .inr ⟨_, rfl⟩

theorem isOver_decodeAll (f : Family) (rs : List Record) : (decodeAll f rs).IsOver := by
  induction rs with
  | nil => exact .inl ⟨_, rfl⟩
  | cons r rs ih =>
    show ((decode f r).bind fun e => (decodeAll f rs).bind fun es => done (e :: es)).IsOver
    rcases isOver_decode f r with ⟨e, he⟩ | ⟨e, he⟩ <;> rw [he]
    · rcases ih with ⟨es, hes⟩ | ⟨e', hes⟩ <;> rw [hes]
      · exact .inl ⟨_, rfl⟩
      · exact .inr ⟨_, rfl⟩
    · exact .inr ⟨_, rfl⟩

theorem IsOver.careful_bind {t : Task α} (h : t.IsOver) {k : α → Task β} (hk : ∀ a, (k a).Careful u) :
    (t.bind k).Careful u := by
  rcases h with ⟨a, rfl⟩ | ⟨e, rfl⟩
  · exact hk a
  · trivial

theorem careful_of_spares {t : Task α} (h : t.Spares .deploymentInstance) : t.Careful u := by
  induction t with
  | done a => trivial
  | fail e => trivial
  | set f r next ih => exact ⟨fun e => absurd e h.1, ih h.2⟩
  | get f uid next ih => exact ⟨fun _ => keeps_of_spares h, fun answer => ih answer (h answer)⟩
  | list f selection next ih => exact ⟨fun _ => keeps_of_spares h, fun answer => ih answer (h answer)⟩
  | now next ih => exact fun reading => ih reading (h reading)
  | pods next ih => exact fun cached => ih cached (h cached)
  | stopping next ih => exact fun flag => ih flag (h flag)
  | counted next ih => exact ih h

theorem careful_store_bind {f : Family} (e : Entity f) {k : Unit → Task β} (hk : (k ()).Careful u) :
    ((store e).bind k).Careful u := by
  refine ⟨?_, hk⟩
  rintro rfl
  exact ⟨e, rfl⟩

theorem careful_fetch_bind {f : Family} {uid : Uid f} {k : Option (Entity f) → Task β}
    (hkeeps : ∀ time, ((fetch f uid).bind k).Keeps (Shows u (Stopped (some time))) (fun _ => True) fun _ => True)
    (hk : ∀ e, (k e).Careful u) : ((fetch f uid).bind k).Careful u := by
  refine ⟨hkeeps, fun answer => ?_⟩
  cases answer with
  | none => exact hk none
  | some r =>
    show (((decode f r).bind fun e => done (some e)).bind k).Careful u
    rw [bind_assoc]
    exact (isOver_decode f r).careful_bind fun e => hk (some e)

theorem careful_updatePod (c : Caches) (p : Pod) : (updatePod c p).Careful u := by
  unfold updatePod
  split
  · trivial
  · refine (isOver_ofExcept _).careful_bind fun prints => (isOver_ofExcept _).careful_bind fun owner => ?_
    split
    · trivial
    · refine careful_store_bind _ (careful_store_bind _ ?_)
      have hover : ∀ observed a b, (storeOver observed a b).Careful u := fun observed a b =>
        careful_fetch_bind (fun _ => keeps_storeOver observed a b) fun stored => careful_store_bind _
          (careful_of_spares ((spares_storeRestarts? a).bind fun _ => spares_storeRestarts? b))
      unfold creationTime
      split
      · exact hover _ _ _
      · exact fun _ => hover _ _ _

theorem careful_stopPod (c : Caches) (p : Pod) : (stopPod c p).Careful u := by
  have hkeeps : ∀ time, (stopPod c p).Keeps (Shows u (Stopped (some time))) (fun _ => True) fun _ => True :=
    fun time => keeps_stopPod c p nofun
  unfold stopPod at hkeeps ⊢
  split
  · trivial
  · next uid huid =>
    simp only [huid] at hkeeps
    refine careful_fetch_bind hkeeps fun stored => ?_
    cases stored with
    | none => trivial
    | some i =>
      intro reading
      split
      · trivial
      · exact ⟨fun _ => ⟨_, rfl⟩, trivial⟩

theorem careful_handlePod (c : Caches) (p : Pod) (deleted : Bool) : (handlePod c p deleted).Careful u := by
  cases deleted with
  | false => exact careful_updatePod c p
  | true => exact careful_stopPod c p

theorem careful_sweepInstances (live : List String) (instances : List DeploymentInstance) :
    (sweepInstances live instances).Careful u := by
  induction instances with
  | nil => trivial
  | cons i rest ih =>
    intro flag
    cases flag with
    | true => trivial
    | false =>
      show (if i.isStopped || live.contains i.info.id then sweepInstances live rest else _).Careful u
      split
      · exact ih
      · exact fun reading => careful_store_bind _ ih

theorem careful_sweep : sweep.Careful u := by
  intro flag
  cases flag with
  | true => trivial
  | false =>
    refine ⟨fun time => keeps_sweep_of_stopped false, fun rs => ?_⟩
    exact (isOver_decodeAll _ rs).careful_bind fun running cached => careful_sweepInstances _ running

end Task

open FleetAtlas.Task

/-- The handler of pods and the sweep, on one store. -/
structure Workers where
  store : Store
  handler : Task Unit
  sweeper : Task Unit

namespace Workers

/-- What happens to the workers: one of them makes its next call, or begins anew when it is over: with another pod, as
the caches are then, or with the next sweep. Pods come and go at any time, and calls of storage may fail. -/
inductive Step : Workers → Workers → Prop
  | handler {w : Workers} (cached : List Pod) (site : Site) : site.service.store = w.store →
    Step w ⟨(step cached w.handler site).2.service.store, (step cached w.handler site).1, w.sweeper⟩
  | sweeper {w : Workers} (cached : List Pod) (site : Site) : site.service.store = w.store →
    Step w ⟨(step cached w.sweeper site).2.service.store, w.handler, (step cached w.sweeper site).1⟩
  | call {w : Workers} (c : Caches) (p : Pod) (deleted : Bool) : w.handler.IsOver →
    Step w { w with handler := handlePod c p deleted }
  | sweep {w : Workers} : w.sweeper.IsOver → Step w { w with sweeper := FleetAtlas.sweep }

/-- What the workers come to. -/
def Later : Workers → Workers → Prop := Relation.ReflTransGen Step

/-- What the workers come to when none has begun, whatever is stored. -/
def Reached (w : Workers) : Prop := ∃ s : Store, s.Filed ∧ Later ⟨s, done (), done ()⟩ w

theorem Reached.later {w w' : Workers} (h : Reached w) (hlater : Later w w') : Reached w' := by
  obtain ⟨s, hs, hw⟩ := h
  exact ⟨s, hs, hw.trans hlater⟩

theorem reached_of_job {s : Store} (h : Job.Reached s) : Reached ⟨s, done (), done ()⟩ := ⟨s, h.filed, .refl⟩

/-! ### Steps -/

/-- Both workers are careful, and look-ups can rely on what is stored. -/
structure AreCareful (w : Workers) : Prop where
  filed : w.store.Filed
  handler : ∀ u, w.handler.Careful u
  sweeper : ∀ u, w.sweeper.Careful u

theorem filed_step {s : Store} (h : s.Filed) (cached : List Pod) (t : Task Unit) {site : Site}
    (hsite : site.service.store = s) : (step cached t site).2.service.store.Filed :=
  ((keeps_of_set Store.Filed.set t).step (L := fun _ => True) cached trivial (hsite ▸ h)).1

theorem AreCareful.step {w w' : Workers} (h : w.AreCareful) (hstep : Step w w') : w'.AreCareful := by
  cases hstep with
  | handler cached site hsite =>
    exact ⟨filed_step h.filed cached _ hsite, fun u => (h.handler u).step cached site, h.sweeper⟩
  | sweeper cached site hsite =>
    exact ⟨filed_step h.filed cached _ hsite, h.handler, fun u => (h.sweeper u).step cached site⟩
  | call c p deleted _ => exact ⟨h.filed, fun _ => careful_handlePod c p deleted, h.sweeper⟩
  | sweep _ => exact ⟨h.filed, h.handler, fun _ => careful_sweep⟩

theorem Reached.areCareful {w : Workers} (h : Reached w) : w.AreCareful := by
  obtain ⟨s, hs, hlater⟩ := h
  induction hlater with
  | refl => exact ⟨hs, fun _ => trivial, fun _ => trivial⟩
  | tail _ hstep ih => exact ih.step hstep

/-- The instance is stored with a time of its stop, and no worker is about to overwrite it. -/
structure Settled (u : Uid .deploymentInstance) (time : Timestamp) (w : Workers) : Prop where
  careful : w.AreCareful
  stopped : w.store.stopTime? u = some time
  handler : ¬ w.handler.Overwrites w.store u time
  sweeper : ¬ w.sweeper.Overwrites w.store u time

variable {u : Uid .deploymentInstance} {time : Timestamp}

/-- **What is settled stays settled.** -/
theorem Settled.step {w w' : Workers} (h : w.Settled u time) (hstep : Step w w') : w'.Settled u time := by
  have hcareful := h.careful.step hstep
  have hshows : Shows u (Stopped (some time)) w.store := ⟨h.careful.filed, h.stopped⟩
  cases hstep with
  | handler cached site hsite =>
    -- what the sweeper is about to write does not depend on this step
    rw [← hsite] at hshows
    obtain ⟨hshows', ho⟩ := (h.careful.handler u).step_keeps cached hshows (hsite ▸ h.handler)
    refine ⟨hcareful, hshows'.2, ho, fun hs => h.sweeper ?_⟩
    rw [← hsite]
    exact (overwrites_congr (takes_step cached w.handler site) _).mp hs
  | sweeper cached site hsite =>
    rw [← hsite] at hshows
    obtain ⟨hshows', ho⟩ := (h.careful.sweeper u).step_keeps cached hshows (hsite ▸ h.sweeper)
    refine ⟨hcareful, hshows'.2, fun hs => h.handler ?_, ho⟩
    rw [← hsite]
    exact (overwrites_congr (takes_step cached w.sweeper site) _).mp hs
  | call c p deleted _ =>
    have hkeeps : (handlePod c p deleted).Keeps (Shows u (Stopped (some time))) (fun _ => True) fun _ => True :=
      keeps_handlePod_of_stopped c p deleted
    exact ⟨hcareful, h.stopped, hkeeps.not_overwrites (fun _ => trivial) hshows, h.sweeper⟩
  | sweep _ =>
    have hkeeps : FleetAtlas.sweep.Keeps (Shows u (Stopped (some time))) (fun _ => True) fun _ => True :=
      keeps_sweep_of_stopped
    exact ⟨hcareful, h.stopped, h.handler, hkeeps.not_overwrites (fun _ => trivial) hshows⟩

theorem Settled.later {w w' : Workers} (h : w.Settled u time) (hlater : Later w w') : w'.Settled u time := by
  induction hlater with
  | refl => exact h
  | tail _ hstep ih => exact ih.step hstep

theorem later_handler {w : Workers} {t t' : Task Unit} {s s' : Store} (h : Leads (fun _ => True) t s t' s')
    (ht : w.handler = t) (hs : w.store = s) : Later w ⟨s', t', w.sweeper⟩ := by
  induction h generalizing w with
  | refl =>
    subst ht hs
    exact .refl
  | step cached _ site _ ih =>
    subst ht
    exact .head (.handler cached site hs.symm) (ih rfl rfl)

theorem later_sweeper {w : Workers} {t t' : Task Unit} {s s' : Store} (h : Leads (fun _ => True) t s t' s')
    (ht : w.sweeper = t) (hs : w.store = s) : Later w ⟨s', w.handler, t'⟩ := by
  induction h generalizing w with
  | refl =>
    subst ht hs
    exact .refl
  | step cached _ site _ ih =>
    subst ht
    exact .head (.sweeper cached site hs.symm) (ih rfl rfl)

/-- **A stop is kept by all that follows if and only if no worker is about to overwrite it.** -/
theorem Reached.stop_kept_iff {w : Workers} (h : Reached w) (ht : w.store.stopTime? u = some time) :
    (∀ w', Later w w' → w'.store.stopTime? u = some time) ↔
      ¬ w.handler.Overwrites w.store u time ∧ ¬ w.sweeper.Overwrites w.store u time := by
  constructor
  · intro hkept
    refine ⟨fun ho => ?_, fun ho => ?_⟩
    · obtain ⟨t', s', hsteps, hne⟩ := ho.exists_leads
      exact hne (hkept _ (later_handler hsteps rfl rfl))
    · obtain ⟨t', s', hsteps, hne⟩ := ho.exists_leads
      exact hne (hkept _ (later_sweeper hsteps rfl rfl))
  · rintro ⟨hhandler, hsweeper⟩ w' hlater
    exact (Settled.later ⟨h.areCareful, ht, hhandler, hsweeper⟩ hlater).stopped

/-! ### A stop that is cleared -/

/-- A task and what is stored after some steps that find nothing to fail on. -/
def steps : Nat → Task Unit → Store → Task Unit × Store
  | 0, t, s => (t, s)
  | n + 1, t, s =>
    let (t, site) := step [] t (.on s fun _ => .epoch)
    steps n t site.service.store

theorem leads_steps (n : Nat) (t : Task Unit) (s : Store) :
    Leads (fun _ => True) t s (steps n t s).1 (steps n t s).2 := by
  induction n generalizing t s with
  | zero => exact .refl
  | succ n ih => exact .step [] trivial (.on s fun _ => .epoch) (ih _ _)

/-- The handler reads the instance of a live pod, the sweep goes by, and the handler writes what it has read. -/
theorem later_race (c : Caches) (p : Pod) (s : Store) :
    let read := steps 4 (updatePod c p) s
    let swept := steps 10 FleetAtlas.sweep read.2
    let written := steps 10 read.1 swept.2
    Later ⟨s, done (), done ()⟩ ⟨swept.2, read.1, swept.1⟩ ∧
      Later ⟨swept.2, read.1, swept.1⟩ ⟨written.2, written.1, swept.1⟩ := by
  intro read swept written
  have hover : (done () : Task Unit).IsOver := .inl ⟨(), rfl⟩
  have hcall : Later ⟨s, done (), done ()⟩ ⟨s, updatePod c p, done ()⟩ := .single (.call c p false hover)
  have hread : Later _ ⟨read.2, read.1, done ()⟩ := hcall.trans (later_handler (leads_steps 4 _ _) rfl rfl)
  have hsweep : Later _ ⟨read.2, read.1, FleetAtlas.sweep⟩ := hread.tail (.sweep hover)
  exact ⟨hsweep.trans (later_sweeper (leads_steps 10 _ _) rfl rfl), later_handler (leads_steps 10 _ _) rfl rfl⟩

/-- **A stop can be cleared**: the handler reads an instance, the sweep stops it as its pod has left the cache, and the
handler writes what it has read. -/
theorem exists_cleared : ∃ (w w' : Workers) (u : Uid .deploymentInstance) (time : Timestamp),
    Reached w ∧ w.store.stopTime? u = some time ∧ Later w w' ∧ w'.store.stopTime? u = none := by
  obtain ⟨hswept, hwritten⟩ := later_race shopCaches shopPod shopStore
  have hreached := (reached_of_job reached_shopStore).later hswept
  refine ⟨_, _, shopInstance, .epoch, hreached, ?_, hwritten, ?_⟩
  · decide +kernel
  · decide +kernel

theorem stop_kept_deletion : stoppedStore.stopTime? shopInstance = some .epoch ∧
    ∀ w, Later ⟨stoppedStore, done (), done ()⟩ w → w.store.stopTime? shopInstance = some .epoch := by
  have hreached := reached_of_job (.next reached_shopStore leads_stoppedStore)
  have hkept := hreached.stop_kept_iff stopTime?_stoppedStore
  exact ⟨stopTime?_stoppedStore, hkept.mpr ⟨id, id⟩⟩

end Workers

end FleetAtlas
