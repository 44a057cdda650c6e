import FleetAtlas.Proofs.Storage.Rewrite
import FleetAtlas.Proofs.Task.Keeps

/-!
# Tasks that store one entity after the other

* `Edit`: an entity is stored, or what is stored under a uid is looked at first and may be replaced;
* `Edit.apply`, `Edit.applyAll`: what edits make of a store; `Task.perform` is the task of edits;
* `Edit.Steady`: an edit that has nothing to add to what it has stored; `Edit.Compatible`: such edits of different entities;
* `Compatible.applyAll_again`, `Compatible.applyAll_resumed`: **compatible edits can be made again, and made after some of
  them were made**, with the same outcome;
* `Task.run_perform`: a run that fails has made some of the edits; one that does not fail has made them all;
* `Task.Repeatable`: what comes of this for the runs of a task.
-/

namespace FleetAtlas

/-- An entity to be stored, or one to be decided on when what is stored has been looked at. -/
inductive Edit where
  | put {f : Family} (e : Entity f)
  | revise {f : Family} (uid : Uid f) (decide : Option (Entity f) → Option (Entity f))

namespace Edit

/-- What an edit is about. -/
def key : Edit → Family × String
  | @put f e => (f, e.uid.text)
  | @revise f uid _ => (f, uid.text)

/-- What an edit makes of a store. -/
def apply : Edit → Store → Except StorageError Store
  | @put f e, s => s.set f e.toRecord
  | @revise f uid decide, s =>
    match s.read uid with
    | .error x => .error x
    | .ok stored =>
      match decide stored with
      | some e => s.set f e.toRecord
      | none => .ok s

/-- What edits make of a store, one after the other. -/
def applyAll (s : Store) : List Edit → Except StorageError Store
  | [] => .ok s
  | e :: es =>
    match e.apply s with
    | .error x => .error x
    | .ok s' => applyAll s' es

theorem applyAll_cons_ok {s s' : Store} {e : Edit} {es : List Edit} :
    applyAll s (e :: es) = .ok s' ↔ ∃ s₁, e.apply s = .ok s₁ ∧ applyAll s₁ es = .ok s' := by
  rw [applyAll]
  cases e.apply s with
  | error x => simp
  | ok s₁ => simp

theorem applyAll_append {s s₁ : Store} {xs : List Edit} (h : applyAll s xs = .ok s₁) (ys : List Edit) :
    applyAll s (xs ++ ys) = applyAll s₁ ys := by
  induction xs generalizing s with
  | nil =>
    obtain rfl := Except.ok.inj h
    rfl
  | cons e xs ih =>
    obtain ⟨s₂, he, hxs⟩ := applyAll_cons_ok.mp h
    rw [List.cons_append, applyAll, he]
    exact ih hxs

/-! ### Edits that are made again -/

/-- **An edit that has nothing to add to what it has stored**: having looked at that, it lets it be, or stores the same. -/
def Steady : Edit → Prop
  | put _ => True
  | revise uid decide => ∀ stored e, decide stored = some e →
      e.uid = uid ∧ ∀ e', e'.properties = e.properties → decide (some e') = none ∨ decide (some e') = some e

variable {s s' : Store} {d e : Edit}

theorem apply_revise_ok {f : Family} {uid : Uid f} {decide : Option (Entity f) → Option (Entity f)} :
    (revise uid decide).apply s = .ok s' ↔ ∃ stored, s.read uid = .ok stored ∧
      ((decide stored = none ∧ s' = s) ∨ ∃ e, decide stored = some e ∧ s.set f e.toRecord = .ok s') := by
  show (match s.read uid with
    | .error x => .error x
    | .ok stored =>
      match decide stored with
      | some e => s.set f e.toRecord
      | none => .ok s) = Except.ok s' ↔ _
  cases s.read uid with
  | error x => simp
  | ok stored =>
    cases hdecide : decide stored with
    | none => simp [hdecide, eq_comm]
    | some e => simp [hdecide]

theorem apply_cases (he : e.Steady) (h : e.apply s = .ok s') :
    s' = s ∨ ∃ r, s.set e.key.1 r = .ok s' ∧ r.uid = e.key.2 := by
  cases e with
  | put e => exact .inr ⟨e.toRecord, h, rfl⟩
  | revise uid decide =>
    obtain ⟨stored, -, ⟨-, rfl⟩ | ⟨e, hdecide, hset⟩⟩ := apply_revise_ok.mp h
    · exact .inl rfl
    · exact .inr ⟨e.toRecord, hset, congrArg Uid.text (he stored e hdecide).1⟩

/-- **A steady edit that was made changes nothing when it is made again.** -/
theorem apply_again (he : e.Steady) (h : e.apply s = .ok s') : e.apply s' = .ok s' := by
  cases e with
  | put e => exact Store.set_set_self h
  | revise uid decide =>
    obtain ⟨stored, hread, ⟨hdecide, rfl⟩ | ⟨e, hdecide, hset⟩⟩ := apply_revise_ok.mp h
    · exact h
    · obtain ⟨rfl, hsame⟩ := he stored e hdecide
      obtain ⟨e', hread', hp⟩ := Store.read_set_self hset
      refine apply_revise_ok.mpr ⟨some e', hread', ?_⟩
      rcases hsame e' hp with hnone | hsome
      · exact .inl ⟨hnone, rfl⟩
      · exact .inr ⟨e, hsome, Store.set_set_self hset⟩

theorem apply_self_of_ne (he : e.Steady) (hd : d.Steady) (hne : e.key ≠ d.key) (h : e.apply s = .ok s)
    (hs : d.apply s = .ok s') : e.apply s' = .ok s' := by
  rcases apply_cases hd hs with rfl | ⟨q, hq, huid⟩
  · exact h
  · cases e with
    | put e => exact Store.set_self_of_ne h hq fun hk => hne (Prod.ext hk.1 (hk.2.trans huid))
    | revise uid decide =>
      obtain ⟨stored, hread, hcase⟩ := apply_revise_ok.mp h
      refine apply_revise_ok.mpr ⟨stored, ?_, ?_⟩
      · rw [← hread]
        exact Store.read_set_of_ne hq fun hk => hne (Prod.ext hk.1 (hk.2.trans huid))
      · refine hcase.imp (fun hnone => ⟨hnone.1, rfl⟩) fun ⟨e, hdecide, hset⟩ => ⟨e, hdecide, ?_⟩
        have htext : e.uid.text = uid.text := congrArg Uid.text (he stored e hdecide).1
        exact Store.set_self_of_ne hset hq fun hk => hne (Prod.ext hk.1 (htext.symm.trans (hk.2.trans huid)))

/-- **Steady edits of different entities.** -/
structure Compatible (es : List Edit) : Prop where
  steady : ∀ e ∈ es, e.Steady
  distinct : (es.map key).Nodup

theorem applyAll_self_of_notMem {es : List Edit} (he : e.Steady) (hes : ∀ d ∈ es, d.Steady) (hne : e.key ∉ es.map key)
    (h : e.apply s = .ok s) (hs : applyAll s es = .ok s') : e.apply s' = .ok s' := by
  -- each of the edits leaves the store such that the one has nothing to add
  induction es generalizing s with
  | nil =>
    obtain rfl := Except.ok.inj hs
    exact h
  | cons d es ih =>
    obtain ⟨s₁, hd, hrest⟩ := applyAll_cons_ok.mp hs
    rw [List.map_cons, List.mem_cons, not_or] at hne
    have h₁ := apply_self_of_ne he (hes d List.mem_cons_self) hne.1 h hd
    exact ih (fun d hd => hes d (List.mem_cons_of_mem _ hd)) hne.2 h₁ hrest

theorem applyAll_of_self {es : List Edit} (h : ∀ e ∈ es, e.apply s = .ok s) : applyAll s es = .ok s := by
  induction es with
  | nil => rfl
  | cons e es ih =>
    obtain ⟨he, hes⟩ := List.forall_mem_cons.mp h
    exact applyAll_cons_ok.mpr ⟨s, he, ih hes⟩

namespace Compatible

variable {es xs ys : List Edit}

theorem left (h : Compatible (xs ++ ys)) : Compatible xs where
  steady e he := h.steady e (List.mem_append_left ys he)
  distinct := by
    have hnodup := h.distinct
    rw [List.map_append] at hnodup
    exact (List.nodup_append.mp hnodup).1

theorem append (hx : Compatible xs) (hy : Compatible ys) (hne : ∀ d ∈ xs, ∀ e ∈ ys, d.key ≠ e.key) :
    Compatible (xs ++ ys) where
  steady e he := by
    rcases List.mem_append.mp he with he | he
    · exact hx.steady e he
    · exact hy.steady e he
  distinct := by
    rw [List.map_append, List.nodup_append]
    refine ⟨hx.distinct, hy.distinct, ?_⟩
    intro k hk k' hk' e
    obtain ⟨d, hd, rfl⟩ := List.mem_map.mp hk
    obtain ⟨d', hd', rfl⟩ := List.mem_map.mp hk'
    exact hne d hd d' hd' e

theorem apply_self (h : Compatible es) (hs : applyAll s es = .ok s') : ∀ e ∈ es, e.apply s' = .ok s' := by
  induction es generalizing s with
  | nil => exact fun e he => absurd he List.not_mem_nil
  | cons e es ih =>
    obtain ⟨s₁, he, hrest⟩ := applyAll_cons_ok.mp hs
    have hkeys := h.distinct
    rw [List.map_cons, List.nodup_cons] at hkeys
    have hes : Compatible es := ⟨fun e' he' => h.steady e' (List.mem_cons_of_mem e he'), hkeys.2⟩
    have hsteady := h.steady e List.mem_cons_self
    refine List.forall_mem_cons.mpr ⟨?_, ih hes hrest⟩
    exact applyAll_self_of_notMem hsteady hes.steady hkeys.1 (apply_again hsteady he) hrest

/-- **Compatible edits that were made change nothing when they are made again.** -/
theorem applyAll_again (h : Compatible es) (hs : applyAll s es = .ok s') : applyAll s' es = .ok s' :=
  applyAll_of_self (h.apply_self hs)

/-- **Those that were made some of the way** come out as if they were made at once. -/
theorem applyAll_resumed (h : Compatible (xs ++ ys)) (hs : applyAll s xs = .ok s') :
    applyAll s' (xs ++ ys) = applyAll s (xs ++ ys) := by
  rw [applyAll_append hs, applyAll_append (h.left.applyAll_again hs)]

end Compatible

end Edit

/-! ### Runs -/

namespace Task

open Edit

variable {α : Type} {cached : List Pod}

def edit : Edit → Task Unit
  | .put e => store e
  | .revise uid decide => Task.bind (fetch _ uid) fun stored =>
    match decide stored with
    | some e => store e
    | none => done ()

def perform : List Edit → Task Unit
  | [] => done ()
  | e :: es => (edit e).bind fun _ => perform es

/-- **How a run goes on** that makes a call first: with an answer of the store, or it fails and nothing is stored; without
faults it fails only if the store has no answer. -/
inductive Answered {β : Type} (cached : List Pod) (t : Task α) (site : Site) (k : β → Task α)
    (answers : β → Store → Prop) : Prop
  | answer (b : β) (service : Service) : answers b service.store →
    (site.service.faults = [] → service.faults = []) →
    run cached t site = run cached (k b) { site with service } → Answered cached t site k answers
  | failure (x : Failure) (service : Service) : service.store = site.service.store →
    (site.service.faults = [] → ∀ b s, ¬ answers b s) →
    run cached t site = (.error x, { site with service }) → Answered cached t site k answers

theorem answered_set (cached : List Pod) (f : Family) (r : Record) (next : Task α) (site : Site) :
    Answered cached (set f r next) site (fun _ : Unit => next) fun _ s' => site.service.store.set f r = .ok s' := by
  rcases site.service.set_cases f r with ⟨x, service, hset, hstore⟩ | ⟨service, hset, hstore⟩
  · refine .failure (.storage x) service hstore ?_ (by rw [run, hset])
    intro hfaults _ s' hs'
    obtain ⟨service', hset', -⟩ := Service.set_of_faults_nil hfaults hs'
    rw [hset] at hset'
    cases hset'
  · refine .answer () service hstore ?_ (by rw [run, hset])
    intro hfaults
    obtain ⟨service', hset', -, hnil⟩ := Service.set_of_faults_nil hfaults hstore
    rw [hset] at hset'
    obtain rfl : service = service' := congrArg Prod.snd hset'
    exact hnil

theorem answered_get (cached : List Pod) (f : Family) (uid : String) (next : Option Record → Task α) (site : Site) :
    Answered cached (get f uid next) site next fun answer s' =>
      site.service.store.get f uid = .ok answer ∧ s' = site.service.store := by
  obtain ⟨service, hstore, ⟨x, hget⟩ | ⟨answer, hget, hanswer⟩⟩ := site.service.get_cases f uid
  · refine .failure (.storage x) service hstore ?_ (by rw [run, hget])
    rintro hfaults answer s' ⟨hanswer, -⟩
    obtain ⟨service', hget', -⟩ := Service.get_of_faults_nil hfaults f uid
    rw [hget, hanswer] at hget'
    cases hget'
  · refine .answer answer service ⟨hanswer, hstore⟩ ?_ (by rw [run, hget])
    intro hfaults
    obtain ⟨service', hget', -, hnil⟩ := Service.get_of_faults_nil hfaults f uid
    rw [hget] at hget'
    obtain rfl : service = service' := congrArg Prod.snd hget'
    exact hnil

theorem answered_store (cached : List Pod) {f : Family} (e : Entity f) (k : Unit → Task α) (site : Site) :
    Answered cached ((store e).bind k) site k fun _ s' => site.service.store.set f e.toRecord = .ok s' :=
  answered_set cached f e.toRecord (k ()) site

theorem answered_fetch (cached : List Pod) {f : Family} (uid : Uid f) (k : Option (Entity f) → Task α) (site : Site) :
    Answered cached ((fetch f uid).bind k) site k fun stored s' =>
      site.service.store.read uid = .ok stored ∧ s' = site.service.store := by
  obtain ⟨next, hfetch, hnone, hsome⟩ : ∃ next, (fetch f uid).bind k = get f uid.text next ∧ next none = k none ∧
      ∀ r, next (some r) = (decode f r).bind fun e => k (some e) :=
    ⟨_, rfl, rfl, fun r => by simp only [bind_assoc]; rfl⟩
  rw [hfetch]
  rcases answered_get cached f uid.text next site with
    ⟨answer, service, ⟨hget, hstore⟩, hfaults, hrun⟩ | ⟨x, service, hstore, hfaults, hrun⟩
  · cases answer with
    | none =>
      rw [hnone] at hrun
      exact .answer none service ⟨by simp only [Store.read, hget], hstore⟩ hfaults hrun
    | some r =>
      rw [hsome] at hrun
      cases hr : Entity.ofRecord? f r with
      | none =>
        refine .failure (.storage .malformed) service hstore ?_ ?_
        · rintro - stored s' ⟨hread, -⟩
          simp only [Store.read, hget, hr] at hread
          cases hread
        · refine hrun.trans ?_
          simp only [decode, hr]
          rfl
      | some e =>
        refine .answer (some e) service ⟨by simp only [Store.read, hget, hr], hstore⟩ hfaults ?_
        refine hrun.trans ?_
        simp only [decode, hr]
        rfl
  · refine .failure x service hstore ?_ hrun
    rintro hnil stored s' ⟨hread, -⟩
    cases hget : site.service.store.get f uid.text with
    | error x => simp only [Store.read, hget] at hread; cases hread
    | ok answer => exact hfaults hnil answer _ ⟨hget, rfl⟩

theorem answered_edit (cached : List Pod) (e : Edit) (k : Unit → Task α) (site : Site) :
    Answered cached ((edit e).bind k) site k fun _ s' => e.apply site.service.store = .ok s' := by
  cases e with
  | put e => exact answered_store cached e k site
  | revise uid decide =>
    have hbind : (edit (.revise uid decide)).bind k = (fetch _ uid).bind fun stored =>
        (match decide stored with
          | some e => store e
          | none => done ()).bind k := bind_assoc _ _ _
    rw [hbind]
    rcases answered_fetch cached uid (fun stored =>
      (match decide stored with
        | some e => store e
        | none => done ()).bind k) site with
      ⟨stored, service, ⟨hread, hstore⟩, hfaults, hrun⟩ | ⟨x, service, hstore, hfaults, hrun⟩
    · cases hdecide : decide stored with
      | none =>
        simp only [hdecide] at hrun
        exact .answer () service (apply_revise_ok.mpr ⟨stored, hread, .inl ⟨hdecide, hstore⟩⟩) hfaults hrun
      | some e =>
        simp only [hdecide] at hrun
        rcases answered_store cached e k { site with service } with
          ⟨_, service', hset, hfaults', hrun'⟩ | ⟨x, service', hstore', hfaults', hrun'⟩
        · rw [hstore] at hset
          exact .answer () service' (apply_revise_ok.mpr ⟨stored, hread, .inr ⟨e, hdecide, hset⟩⟩)
            (fun hnil => hfaults' (hfaults hnil)) (hrun.trans hrun')
        · refine .failure x service' (hstore'.trans hstore) ?_ (hrun.trans hrun')
          intro hnil _ s' h
          obtain ⟨stored', hread', hcase⟩ := apply_revise_ok.mp h
          obtain rfl := Except.ok.inj (hread.symm.trans hread')
          rw [hdecide] at hcase
          obtain ⟨hnone, -⟩ | ⟨e', he', hset⟩ := hcase
          · exact nomatch hnone
          · obtain rfl := Option.some.inj he'
            rw [← hstore] at hset
            exact hfaults' (hfaults hnil) () s' hset
    · refine .failure x service hstore ?_ hrun
      intro hnil _ s' h
      obtain ⟨stored, hread, -⟩ := apply_revise_ok.mp h
      exact hfaults hnil stored _ ⟨hread, rfl⟩

/-! ### Runs of edits -/

/-- **A run of edits** has made them all, or it fails and has made those before one of them. -/
theorem run_perform (cached : List Pod) (es : List Edit) (site : Site) :
    ((run cached (perform es) site).1 = .ok () ∧
      applyAll site.service.store es = .ok (run cached (perform es) site).2.service.store) ∨
    (∃ x xs ys, (run cached (perform es) site).1 = .error x ∧ es = xs ++ ys ∧
      applyAll site.service.store xs = .ok (run cached (perform es) site).2.service.store) := by
  -- the first edit is made and the others are made on what it leaves, or one of its calls fails
  induction es generalizing site with
  | nil => exact .inl ⟨rfl, rfl⟩
  | cons e es ih =>
    rcases answered_edit cached e (fun _ => perform es) site with
      ⟨_, service, happly, -, hrun⟩ | ⟨x, service, hstore, -, hrun⟩
    · have hperform : run cached (perform (e :: es)) site = run cached (perform es) { site with service } := hrun
      rw [hperform]
      rcases ih { site with service } with ⟨hok, hall⟩ | ⟨x, xs, ys, herror, rfl, hxs⟩
      · exact .inl ⟨hok, applyAll_cons_ok.mpr ⟨_, happly, hall⟩⟩
      · exact .inr ⟨x, e :: xs, ys, herror, rfl, applyAll_cons_ok.mpr ⟨_, happly, hxs⟩⟩
    · have hperform : run cached (perform (e :: es)) site = (.error x, { site with service }) := hrun
      rw [hperform]
      exact .inr ⟨x, [], e :: es, rfl, rfl, congrArg Except.ok hstore.symm⟩

/-- **Without faults, a run of edits makes them all**, if they can be made. -/
theorem run_perform_of_faults_nil {es : List Edit} {site : Site} (hfaults : site.service.faults = []) {s' : Store}
    (h : applyAll site.service.store es = .ok s') :
    (run cached (perform es) site).1 = .ok () ∧ (run cached (perform es) site).2.service.store = s' := by
  induction es generalizing site with
  | nil =>
    obtain rfl := Except.ok.inj h
    exact ⟨rfl, rfl⟩
  | cons e es ih =>
    obtain ⟨s₁, he, hrest⟩ := applyAll_cons_ok.mp h
    rcases answered_edit cached e (fun _ => perform es) site with
      ⟨_, service, happly, hnil, hrun⟩ | ⟨x, service, -, hno, -⟩
    · have hperform : run cached (perform (e :: es)) site = run cached (perform es) { site with service } := hrun
      obtain rfl : service.store = s₁ := Except.ok.inj (happly.symm.trans he)
      rw [hperform]
      exact ih (hnil hfaults) hrest
    · exact absurd he (hno hfaults () s₁)

/-- A task that makes compatible edits, unless it fails at once. -/
def Repeatable (t : Task Unit) : Prop := (∃ x, t = fail x) ∨ ∃ es, t = perform es ∧ Compatible es

namespace Repeatable

variable {t : Task Unit} {site site₁ site₂ : Site}

/-- **A run that was good can be repeated**: without faults, it is good again and changes nothing. -/
theorem run_again (h : t.Repeatable) (hok : (run cached t site).1 = .ok ())
    (hstore : site₁.service.store = (run cached t site).2.service.store) (hfaults : site₁.service.faults = []) :
    (run cached t site₁).1 = .ok () ∧ (run cached t site₁).2.service.store = site₁.service.store := by
  rcases h with ⟨x, rfl⟩ | ⟨es, rfl, hes⟩
  · exact nomatch hok
  · rcases run_perform cached es site with ⟨-, hall⟩ | ⟨x, _, _, herror, -⟩
    · rw [← hstore] at hall
      exact run_perform_of_faults_nil hfaults (hes.applyAll_again hall)
    · rw [hok] at herror
      exact nomatch herror

/-- **A run that failed does no harm**: once another one, on what it has left, was good, all is as if a single run without
faults had been made. -/
theorem run_resumed (h : t.Repeatable) {x : Failure} (herror : (run cached t site).1 = .error x)
    (hstore : site₁.service.store = (run cached t site).2.service.store) (hok : (run cached t site₁).1 = .ok ())
    (hstore₂ : site₂.service.store = site.service.store) (hfaults : site₂.service.faults = []) :
    (run cached t site₂).1 = .ok () ∧
      (run cached t site₂).2.service.store = (run cached t site₁).2.service.store := by
  rcases h with ⟨x, rfl⟩ | ⟨es, rfl, hes⟩
  · exact nomatch hok
  · rcases run_perform cached es site₁ with ⟨-, hall⟩ | ⟨x, _, _, herror₁, -⟩
    · rcases run_perform cached es site with ⟨hok', -⟩ | ⟨_, xs, ys, -, rfl, hxs⟩
      · rw [hok'] at herror
        exact nomatch herror
      · -- the edits that were made are made once more, and the others follow
        rw [← hstore] at hxs
        rw [hes.applyAll_resumed hxs, ← hstore₂] at hall
        exact run_perform_of_faults_nil hfaults hall
    · rw [hok] at herror₁
      exact nomatch herror₁

end Repeatable

end Task

end FleetAtlas
