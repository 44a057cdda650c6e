import FleetAtlas.Proofs.Storage.Service
import FleetAtlas.Proofs.Storage.Store
import FleetAtlas.Task.Run

/-!
# What tasks keep of the store

* `Task.Keeps I L Q t`: every write of the task keeps `I`, as long as `I` holds whenever it reads and writes; the pods
  that it is shown satisfy `L`, and its result `Q`;
* `Keeps.bind`, `keeps_fetch`, `keeps_select`, …: the rules, one for each way of making a task;
* `Task.Spares g t`: no write is of the family `g`, so what the other families cannot break is kept (`Spares.keeps`);
* `Task.Leads`: the steps of a task in any surroundings, where any call may fail; a run is such steps (`leads_run`);
* `Keeps.step`, `Keeps.leads`: **what a task keeps holds after each of its steps**, and after all of them.

`I` is all that a task may rely on, so this is as good for tasks that take turns as for one that runs at once.
-/

namespace FleetAtlas

namespace Task

variable {α β : Type}

/-! ### Keeping an invariant -/

/-- **Every write keeps `I`**, as long as `I` holds at every read and write; the pods that are shown satisfy `L`, and the
result satisfies `Q`. -/
def Keeps (I : Store → Prop) (L : List Pod → Prop) (Q : α → Prop) : Task α → Prop
  | done a => Q a
  | fail _ => True
  | set f r next => ∀ s s', I s → s.set f r = .ok s' → I s' ∧ Keeps I L Q next
  | get f uid next => ∀ s answer, I s → s.get f uid = .ok answer → Keeps I L Q (next answer)
  | list f selection next => ∀ s answer, I s → s.list f selection = .ok answer → Keeps I L Q (next answer)
  | now next => ∀ time, Keeps I L Q (next time)
  | pods next => ∀ pods, L pods → Keeps I L Q (next pods)
  | stopping next => ∀ flag, Keeps I L Q (next flag)
  | counted next => Keeps I L Q next

section Rules

variable {I : Store → Prop} {L : List Pod → Prop} {Q : α → Prop} {R : β → Prop}

theorem Keeps.bind {t : Task α} {k : α → Task β} (h : t.Keeps I L Q) (hk : ∀ a, Q a → (k a).Keeps I L R) :
    (t.bind k).Keeps I L R := by
  induction t with
  | done a => exact hk a h
  | fail e => trivial
  | set f r next ih => exact fun s s' hs hset => (h s s' hs hset).imp_right ih
  | get f uid next ih => exact fun s answer hs hget => ih answer (h s answer hs hget)
  | list f selection next ih => exact fun s answer hs hlist => ih answer (h s answer hs hlist)
  | now next ih => exact fun time => ih time (h time)
  | pods next ih => exact fun pods hl => ih pods (h pods hl)
  | stopping next ih => exact fun flag => ih flag (h flag)
  | counted next ih => exact ih h

theorem keeps_store {f : Family} {e : Entity f} (h : ∀ s s', I s → s.set f e.toRecord = .ok s' → I s') :
    (store e).Keeps I L fun _ => True :=
  fun s s' hs hset => ⟨h s s' hs hset, trivial⟩

theorem keeps_currentTime : currentTime.Keeps I L fun _ => True := fun _ => trivial

theorem keeps_livePods : livePods.Keeps I L L := fun _ hl => hl

theorem keeps_countStopped : countStopped.Keeps I L fun _ => True := trivial

theorem keeps_decode (f : Family) (r : Record) : (decode f r).Keeps I L fun e => Entity.ofRecord? f r = some e := by
  unfold decode
  cases hr : Entity.ofRecord? f r with
  | none => trivial
  | some e => exact rfl

/-- What every write keeps, every task keeps. -/
theorem keeps_of_set (hI : ∀ {s s' f r}, I s → s.set f r = .ok s' → I s') (t : Task α) :
    t.Keeps I L fun _ => True := by
  induction t with
  | done a => trivial
  | fail e => trivial
  | set f r next ih => exact fun s s' hs hset => ⟨hI hs hset, ih⟩
  | get f uid next ih => exact fun _ answer _ _ => ih answer
  | list f selection next ih => exact fun _ answer _ _ => ih answer
  | now next ih => exact fun time => ih time
  | pods next ih => exact fun pods _ => ih pods
  | stopping next ih => exact fun flag => ih flag
  | counted next ih => exact ih

/-- What is fetched is what was stored at some moment. -/
theorem keeps_fetch (f : Family) (uid : Uid f) : (fetch f uid).Keeps I L fun e? => ∃ s, I s ∧ s.fetch? uid = e? := by
  intro s answer hs hget
  cases answer with
  | none => exact ⟨s, hs, by simp only [Store.fetch?, hget]⟩
  | some r => exact (keeps_decode f r).bind fun e he => ⟨s, hs, by simp only [Store.fetch?, hget, he]⟩

theorem keeps_decodeAll (f : Family) (rs : List Record) :
    (decodeAll f rs).Keeps I L fun es => ∀ e ∈ es, ∃ r ∈ rs, Entity.ofRecord? f r = some e := by
  induction rs with
  | nil => exact nofun
  | cons r rs ih =>
    refine (keeps_decode f r).bind fun e he => ih.bind fun es hes e' he' => ?_
    rcases List.mem_cons.mp he' with rfl | he'
    · exact ⟨r, List.mem_cons_self, he⟩
    · obtain ⟨r', hmem, hr'⟩ := hes e' he'
      exact ⟨r', .tail _ hmem, hr'⟩

/-- What is selected was stored at one moment, all of it. -/
theorem keeps_select (hI : ∀ {s}, I s → s.Filed) (f : Family) (selection : Selection) :
    (select f selection).Keeps I L fun es => ∃ s, I s ∧ ∀ e ∈ es, s.fetch? e.uid = some e ∧
      ∃ r, Entity.ofRecord? f r = some e ∧ selection.admits r.properties = true := by
  intro s rs hs hlist
  obtain ⟨rs', hlist', hmem⟩ := (hI hs).exists_list f selection
  obtain rfl : rs' = rs := Except.ok.inj (hlist'.symm.trans hlist)
  have hfetch : ∀ r ∈ rs', ∀ e, Entity.ofRecord? f r = some e → s.fetch? e.uid = some e := by
    intro r hr e he
    simp only [Store.fetch?, Store.uid_of_ofRecord? he, ((hmem r).mp hr).1, he]
  rw [← bind_done (decodeAll f rs')]
  refine (keeps_decodeAll f rs').bind fun es hes => ⟨s, hs, fun e he => ?_⟩
  obtain ⟨r, hr, he⟩ := hes e he
  exact ⟨hfetch r hr e he, r, he, ((hmem r).mp hr).2⟩

end Rules

/-! ### Sparing a family -/

/-- **No write is of the given family.** -/
def Spares (g : Family) : Task α → Prop
  | done _ | fail _ => True
  | set f _ next => f ≠ g ∧ Spares g next
  | get _ _ next => ∀ answer, Spares g (next answer)
  | list _ _ next => ∀ answer, Spares g (next answer)
  | now next => ∀ time, Spares g (next time)
  | pods next => ∀ pods, Spares g (next pods)
  | stopping next => ∀ flag, Spares g (next flag)
  | counted next => Spares g next

section Spares

variable {g : Family}

theorem Spares.bind {t : Task α} {k : α → Task β} (h : t.Spares g) (hk : ∀ a, (k a).Spares g) :
    (t.bind k).Spares g := by
  induction t with
  | done a => exact hk a
  | fail e => trivial
  | set f r next ih => exact h.imp_right ih
  | get f uid next ih => exact fun answer => ih answer (h answer)
  | list f selection next ih => exact fun answer => ih answer (h answer)
  | now next ih => exact fun time => ih time (h time)
  | pods next ih => exact fun pods => ih pods (h pods)
  | stopping next ih => exact fun flag => ih flag (h flag)
  | counted next ih => exact ih h

theorem spares_store {f : Family} (e : Entity f) (h : f ≠ g) : (store e).Spares g := ⟨h, trivial⟩

theorem spares_decode (f : Family) (r : Record) : (decode f r).Spares g := by
  unfold decode
  split <;> trivial

theorem spares_fetch (f : Family) (uid : Uid f) : (fetch f uid).Spares g := by
  intro answer
  cases answer with
  | none => trivial
  | some r => exact (spares_decode f r).bind fun _ => trivial

theorem spares_ofExcept (e : Except Failure α) : (ofExcept e).Spares g := by
  cases e <;> trivial

/-- A task that spares a family keeps whatever the other families cannot break. -/
theorem Spares.keeps {t : Task α} (h : t.Spares g) {I : Store → Prop} {L : List Pod → Prop}
    (hI : ∀ {s s' f r}, f ≠ g → I s → s.set f r = .ok s' → I s') : t.Keeps I L fun _ => True := by
  induction t with
  | done a => trivial
  | fail e => trivial
  | set f r next ih => exact fun s s' hs hset => ⟨hI h.1 hs hset, ih h.2⟩
  | get f uid next ih => exact fun _ answer _ _ => ih answer (h answer)
  | list f selection next ih => exact fun _ answer _ _ => ih answer (h answer)
  | now next ih => exact fun time => ih time (h time)
  | pods next ih => exact fun pods _ => ih pods (h pods)
  | stopping next ih => exact fun flag => ih flag (h flag)
  | counted next ih => exact ih h

end Spares

/-! ### Steps -/

/-- The steps of a task, each in surroundings of its own with pods that satisfy `L`, on the store that the step before
has left. -/
inductive Leads (L : List Pod → Prop) : Task α → Store → Task α → Store → Prop
  | refl {t : Task α} {s : Store} : Leads L t s t s
  | step {t t' : Task α} {s' : Store} (cached : List Pod) (hl : L cached) (site : Site) :
    Leads L (step cached t site).1 (step cached t site).2.service.store t' s' → Leads L t site.service.store t' s'

variable {I : Store → Prop} {L : List Pod → Prop} {Q : α → Prop}

/-- **One step keeps the invariant**, and the rest of the task keeps it too. -/
theorem Keeps.step {t : Task α} (h : t.Keeps I L Q) (cached : List Pod) (hl : L cached) {site : Site}
    (hs : I site.service.store) :
    I (step cached t site).2.service.store ∧ (step cached t site).1.Keeps I L Q := by
  cases t with
  | done a => exact ⟨hs, h⟩
  | fail e => exact ⟨hs, h⟩
  | set f r next =>
    rcases site.service.set_cases f r with ⟨e, s', hset, hstore⟩ | ⟨s', hset, hstore⟩
    · simp only [Task.step, resume, hset]
      exact ⟨hstore ▸ hs, trivial⟩
    · simp only [Task.step, resume, hset]
      exact h _ _ hs hstore
  | get f uid next =>
    obtain ⟨s', hstore, ⟨e, hget⟩ | ⟨answer, hget, hanswer⟩⟩ := site.service.get_cases f uid
    · simp only [Task.step, resume, hget]
      exact ⟨hstore ▸ hs, trivial⟩
    · simp only [Task.step, resume, hget]
      exact ⟨hstore ▸ hs, h _ answer hs hanswer⟩
  | list f selection next =>
    obtain ⟨s', hstore, ⟨e, hlist⟩ | ⟨answer, hlist, hanswer⟩⟩ := site.service.list_cases f selection
    · simp only [Task.step, resume, hlist]
      exact ⟨hstore ▸ hs, trivial⟩
    · simp only [Task.step, resume, hlist]
      exact ⟨hstore ▸ hs, h _ answer hs hanswer⟩
  | now next => exact ⟨hs, h _⟩
  | pods next => exact ⟨hs, h _ hl⟩
  | stopping next => exact ⟨hs, h _⟩
  | counted next => exact ⟨hs, h⟩

/-- **All steps keep it.** -/
theorem Keeps.leads {t t' : Task α} (h : t.Keeps I L Q) {s s' : Store} (hs : I s) (hsteps : Leads L t s t' s') :
    I s' ∧ t'.Keeps I L Q := by
  induction hsteps with
  | refl => exact ⟨hs, h⟩
  | step cached hl site _ ih =>
    obtain ⟨hs', h'⟩ := h.step cached hl hs
    exact ih h' hs'

/-- Steps leave what look-ups rely on. -/
theorem Leads.filed {t t' : Task α} {s s' : Store} (hsteps : Leads L t s t' s') (hs : s.Filed) : s'.Filed :=
  ((keeps_of_set Store.Filed.set t).leads hs hsteps).1

/-- A run is steps, up to the end of the task. -/
theorem leads_run {cached : List Pod} (hl : L cached) (t : Task α) (site : Site) :
    ∃ t', Leads L t site.service.store t' (run cached t site).2.service.store := by
  have hstep : ∀ {t : Task α} {site : Site},
      (∃ t', Leads L (step cached t site).1 (step cached t site).2.service.store t'
        (run cached (step cached t site).1 (step cached t site).2).2.service.store) →
      ∃ t', Leads L t site.service.store t' (run cached t site).2.service.store := by
    rintro t site ⟨t', h⟩
    rw [run_step] at h
    exact ⟨t', .step cached hl site h⟩
  induction t generalizing site with
  | done a => exact ⟨_, .refl⟩
  | fail e => exact ⟨_, .refl⟩
  | set f r next ih =>
    refine hstep ?_
    rcases site.service.set_cases f r with ⟨e, s', hset, -⟩ | ⟨s', hset, -⟩ <;> simp only [step, resume, hset]
    · exact ⟨_, .refl⟩
    · exact ih { site with service := s' }
  | get f uid next ih =>
    refine hstep ?_
    obtain ⟨s', -, ⟨e, hget⟩ | ⟨answer, hget, -⟩⟩ := site.service.get_cases f uid <;> simp only [step, resume, hget]
    · exact ⟨_, .refl⟩
    · exact ih answer { site with service := s' }
  | list f selection next ih =>
    refine hstep ?_
    obtain ⟨s', -, ⟨e, hlist⟩ | ⟨answer, hlist, -⟩⟩ := site.service.list_cases f selection <;>
      simp only [step, resume, hlist]
    · exact ⟨_, .refl⟩
    · exact ih answer { site with service := s' }
  | now next ih => exact hstep (ih _ _)
  | pods next ih => exact hstep (ih _ _)
  | stopping next ih => exact hstep (ih _ _)
  | counted next ih => exact hstep (ih _)

end Task

end FleetAtlas
