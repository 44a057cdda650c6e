import FleetAtlas.Proofs.Storage.Commute
import FleetAtlas.Proofs.Task.Edits

/-!
# Tasks that have nothing to do with each other

* `Task.outcome`: what a task comes to when no call fails and the clock stands still; `Task.run_calm`: so does a run;
* `Task.Within P`: the task reads and writes only what `P` says, one uid of a family at a time;
* `outcome_get`, `outcome_set`: what lies outside is found as it was, and may be written before or after the task;
* `outcome_comm`: **tasks within different uids may be run in either order**.
-/

namespace FleetAtlas

/-- What a task is shown besides storage. -/
structure Sight where
  pods : List Pod
  time : Timestamp
  stopping : Bool

/-- No call is going to fail, and the clock stands still. -/
structure Site.Calm (site : Site) (sight : Sight) : Prop where
  faults : site.service.faults = []
  clock : ∀ n, site.clock n = sight.time
  stopping : site.stopping = sight.stopping

namespace Task

variable {α β : Type}

/-! ### Runs that nothing disturbs -/

/-- **What a task comes to** when nothing disturbs it. -/
def outcome (sight : Sight) : Task α → Store → Except Failure α × Store
  | done a, s => (.ok a, s)
  | fail e, s => (.error e, s)
  | set f r next, s =>
    match s.set f r with
    | .ok s' => outcome sight next s'
    | .error e => (.error (.storage e), s)
  | get f uid next, s =>
    match s.get f uid with
    | .ok answer => outcome sight (next answer) s
    | .error e => (.error (.storage e), s)
  | list f selection next, s =>
    match s.list f selection with
    | .ok answer => outcome sight (next answer) s
    | .error e => (.error (.storage e), s)
  | now next, s => outcome sight (next sight.time) s
  | pods next, s => outcome sight (next sight.pods) s
  | stopping next, s => outcome sight (next sight.stopping) s
  | counted next, s => outcome sight next s

/-- A run has come to its outcome, and leaves the surroundings calm. -/
def Ends (sight : Sight) (run : Except Failure α × Site) (outcome : Except Failure α × Store) : Prop :=
  run.1 = outcome.1 ∧ run.2.service.store = outcome.2 ∧ run.2.Calm sight

/-- **A run that nothing disturbs** comes to the outcome of its task. -/
theorem run_calm {sight : Sight} (t : Task α) {site : Site} (h : site.Calm sight) :
    Ends sight (run sight.pods t site) (outcome sight t site.service.store) := by
  induction t generalizing site with
  | done a => exact ⟨rfl, rfl, h⟩
  | fail e => exact ⟨rfl, rfl, h⟩
  | set f r next ih =>
    rw [run, outcome]
    cases hset : site.service.store.set f r with
    | error e =>
      obtain ⟨service, hservice, hstore, hfaults⟩ := Service.set_error_of_faults_nil h.faults hset
      rw [hservice]
      exact ⟨rfl, hstore, hfaults, h.clock, h.stopping⟩
    | ok s' =>
      obtain ⟨service, hservice, hstore, hfaults⟩ := Service.set_of_faults_nil h.faults hset
      rw [hservice]
      have hcalm : Site.Calm { site with service } sight := ⟨hfaults, h.clock, h.stopping⟩
      rw [← hstore]
      exact ih hcalm
  | get f uid next ih =>
    obtain ⟨service, hservice, hstore, hfaults⟩ := Service.get_of_faults_nil h.faults f uid
    rw [run, outcome, hservice]
    cases hget : site.service.store.get f uid with
    | error e => exact ⟨rfl, hstore, hfaults, h.clock, h.stopping⟩
    | ok answer =>
      have hcalm : Site.Calm { site with service } sight := ⟨hfaults, h.clock, h.stopping⟩
      rw [← hstore]
      exact ih answer hcalm
  | list f selection next ih =>
    obtain ⟨service, hservice, hstore, hfaults⟩ := Service.list_of_faults_nil h.faults f selection
    rw [run, outcome, hservice]
    cases hlist : site.service.store.list f selection with
    | error e => exact ⟨rfl, hstore, hfaults, h.clock, h.stopping⟩
    | ok answer =>
      have hcalm : Site.Calm { site with service } sight := ⟨hfaults, h.clock, h.stopping⟩
      rw [← hstore]
      exact ih answer hcalm
  | now next ih =>
    have hcalm : site.tick.Calm sight := ⟨h.faults, h.clock, h.stopping⟩
    have htime : site.time = sight.time := h.clock site.reads
    rw [run, outcome, htime]
    exact ih sight.time hcalm
  | pods next ih => exact ih sight.pods h
  | stopping next ih =>
    rw [run, outcome, h.stopping]
    exact ih sight.stopping h
  | counted next ih =>
    have hcalm : Site.Calm { site with metrics := site.metrics.countStopped 1 } sight := ⟨h.faults, h.clock, h.stopping⟩
    exact ih hcalm

/-! ### What a task has to do with -/

/-- The task reads and writes only what `P` says. -/
def Within (P : Family → String → Prop) : Task α → Prop
  | done _ | fail _ => True
  | set f r next => P f r.uid ∧ Within P next
  | get f uid next => P f uid ∧ ∀ answer, Within P (next answer)
  | list _ _ _ => False
  | now next => ∀ time, Within P (next time)
  | pods next => ∀ pods, Within P (next pods)
  | stopping next => ∀ flag, Within P (next flag)
  | counted next => Within P next

section Within

variable {P : Family → String → Prop}

theorem Within.bind {t : Task α} {k : α → Task β} (h : t.Within P) (hk : ∀ a, (k a).Within P) :
    (t.bind k).Within P := by
  induction t with
  | done a => exact hk a
  | fail e => trivial
  | set f r next ih => exact ⟨h.1, ih h.2⟩
  | get f uid next ih => exact ⟨h.1, fun answer => ih answer (h.2 answer)⟩
  | list f selection next ih => exact absurd h id
  | now next ih => exact fun time => ih time (h time)
  | pods next ih => exact fun pods => ih pods (h pods)
  | stopping next ih => exact fun flag => ih flag (h flag)
  | counted next ih => exact ih h

theorem within_store {f : Family} {e : Entity f} (h : P f e.uid.text) : (store e).Within P := ⟨h, trivial⟩

theorem within_fetch {f : Family} {uid : Uid f} (h : P f uid.text) : (fetch f uid).Within P := by
  refine ⟨h, fun answer => ?_⟩
  cases answer with
  | none => trivial
  | some r =>
    simp only [decode]
    cases Entity.ofRecord? f r <;> trivial

theorem within_ofExcept (e : Except Failure α) : (ofExcept e).Within P := by
  cases e <;> trivial

end Within

/-! ### Tasks side by side -/

variable {sight : Sight} {P Q : Family → String → Prop} {u : Task β} {s s₁ : Store} {f : Family} {uid : String}
  {r : Record}

/-- **What lies outside a task** is found as it was. -/
theorem outcome_get (hu : u.Within Q) (h : ¬ Q f uid) (s : Store) : (outcome sight u s).2.get f uid = s.get f uid := by
  induction u generalizing s with
  | done a => rfl
  | fail e => rfl
  | set g q next ih =>
    rw [outcome]
    cases hset : s.set g q with
    | error e => rfl
    | ok s' =>
      have hne : ¬ (f = g ∧ uid = q.uid) := by
        rintro ⟨rfl, rfl⟩
        exact h hu.1
      exact (ih hu.2 s').trans (Store.get_set_of_ne hset hne)
  | get g key next ih =>
    rw [outcome]
    cases s.get g key with
    | error e => rfl
    | ok answer => exact ih answer (hu.2 answer) s
  | list g selection next ih => exact absurd hu id
  | now next ih => exact ih _ (hu _) s
  | pods next ih => exact ih _ (hu _) s
  | stopping next ih => exact ih _ (hu _) s
  | counted next ih => exact ih hu s

/-- **A record outside a task** may be written before it or after it. -/
theorem outcome_set (hu : u.Within Q) (h : ¬ Q f r.uid) (hs : s.set f r = .ok s₁) :
    ∃ s₂, (outcome sight u s).2.set f r = .ok s₂ ∧ outcome sight u s₁ = ((outcome sight u s).1, s₂) := by
  induction u generalizing s s₁ with
  | done a => exact ⟨s₁, hs, rfl⟩
  | fail e => exact ⟨s₁, hs, rfl⟩
  | set g q next ih =>
    rw [outcome, outcome]
    cases hset : s.set g q with
    | error e =>
      rw [Store.set_error_of_set hset hs]
      exact ⟨s₁, hs, rfl⟩
    | ok s' =>
      have hne : ¬ (f = g ∧ r.uid = q.uid) := by
        rintro ⟨rfl, e⟩
        exact h (e ▸ hu.1)
      obtain ⟨s₃, h₁, h₂⟩ := Store.set_comm hs hset hne
      rw [h₁]
      exact ih hu.2 h₂
  | get g key next ih =>
    have hne : ¬ (g = f ∧ key = r.uid) := by
      rintro ⟨rfl, rfl⟩
      exact h hu.1
    rw [outcome, outcome, Store.get_set_of_ne hs hne]
    cases s.get g key with
    | error e => exact ⟨s₁, hs, rfl⟩
    | ok answer => exact ih answer (hu.2 answer) hs
  | list g selection next ih => exact absurd hu id
  | now next ih => exact ih _ (hu _) hs
  | pods next ih => exact ih _ (hu _) hs
  | stopping next ih => exact ih _ (hu _) hs
  | counted next ih => exact ih hu hs

/-- A record that is refused is refused after any task. -/
theorem outcome_set_error {e : StorageError} (hs : s.set f r = .error e) (u : Task β) :
    (outcome sight u s).2.set f r = .error e := by
  induction u generalizing s with
  | done a => exact hs
  | fail x => exact hs
  | set g q next ih =>
    rw [outcome]
    cases hset : s.set g q with
    | error x => exact hs
    | ok s' => exact ih (Store.set_error_of_set hs hset)
  | get g key next ih =>
    rw [outcome]
    cases s.get g key with
    | error x => exact hs
    | ok answer => exact ih answer hs
  | list g selection next ih =>
    rw [outcome]
    cases s.list g selection with
    | error x => exact hs
    | ok answer => exact ih answer hs
  | now next ih => exact ih _ hs
  | pods next ih => exact ih _ hs
  | stopping next ih => exact ih _ hs
  | counted next ih => exact ih hs

/-- Two outcomes, one on what the other has left, are the same in either order. -/
def Commute (sight : Sight) (t : Task α) (u : Task β) (s : Store) : Prop :=
  (outcome sight t (outcome sight u s).2).1 = (outcome sight t s).1 ∧
    (outcome sight u (outcome sight t s).2).1 = (outcome sight u s).1 ∧
    (outcome sight t (outcome sight u s).2).2 = (outcome sight u (outcome sight t s).2).2

/-- **Tasks within different uids may be run in either order.** -/
theorem outcome_comm {t : Task α} (ht : t.Within P) (hu : u.Within Q) (hPQ : ∀ f uid, P f uid → ¬ Q f uid) (s : Store) :
    Commute sight t u s := by
  -- the first call of `t` is answered the same after `u`, and what it writes does not show to `u`
  unfold Commute
  induction t generalizing s with
  | done a => exact ⟨rfl, rfl, rfl⟩
  | fail e => exact ⟨rfl, rfl, rfl⟩
  | set f r next ih =>
    rw [outcome, outcome]
    cases hset : s.set f r with
    | error e =>
      rw [outcome_set_error hset u]
      exact ⟨rfl, rfl, rfl⟩
    | ok s₁ =>
      obtain ⟨s₂, h₂, h₁⟩ : ∃ s₂, (outcome sight u s).2.set f r = .ok s₂ ∧ _ := outcome_set hu (hPQ f r.uid ht.1) hset
      obtain ⟨hresult, hother, hstore⟩ := ih ht.2 s₁
      rw [h₁] at hresult hother hstore
      rw [h₂]
      exact ⟨hresult, hother, hstore⟩
  | get f uid next ih =>
    rw [outcome, outcome, outcome_get hu (hPQ f uid ht.1) s]
    cases s.get f uid with
    | error e => exact ⟨rfl, rfl, rfl⟩
    | ok answer => exact ih answer (ht.2 answer) s
  | list f selection next ih => exact absurd ht id
  | now next ih => exact ih _ (ht _) s
  | pods next ih => exact ih _ (ht _) s
  | stopping next ih => exact ih _ (ht _) s
  | counted next ih => exact ih ht s

end Task

end FleetAtlas
