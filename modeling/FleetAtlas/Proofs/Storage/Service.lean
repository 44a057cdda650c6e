import FleetAtlas.Storage.Service

/-!
# Calls of a service

* `Service.set_cases`, `get_cases`, `list_cases`: a call fails and changes no record, or it does what the store does;
* `Service.journal_of_set_ok`, `journal_of_set_error`, `journal_get`, `journal_list`: only a write that succeeds is noted down;
* `Service.set_of_faults_nil`, `get_of_faults_nil`, `list_of_faults_nil`: without faults it does what the store does.
-/

namespace FleetAtlas

namespace Service

/-- A write fails and changes no record, or it is a write to the store. -/
theorem set_cases (s : Service) (f : Family) (r : Record) :
    (∃ e s', s.set f r = (.error e, s') ∧ s'.store = s.store) ∨
      ∃ s', s.set f r = (.ok (), s') ∧ s.store.set f r = .ok s'.store := by
  unfold set
  rcases hx : s.expose .set f with ⟨result, s₁⟩
  have hstore : s₁.store = s.store := (congrArg (fun p => p.2.store) hx).symm
  cases result with
  | error e => exact .inl ⟨e, s₁, rfl, hstore⟩
  | ok =>
    simp only [hstore]
    cases hs : s.store.set f r with
    | error e => exact .inl ⟨e, s₁, rfl, hstore⟩
    | ok store => exact .inr ⟨_, rfl, rfl⟩

/-- A look-up fails, or it shows what the store shows; nothing changes. -/
theorem get_cases (s : Service) (f : Family) (uid : String) :
    ∃ s', s'.store = s.store ∧ ((∃ e, s.get f uid = (.error e, s')) ∨
      ∃ answer, s.get f uid = (.ok answer, s') ∧ s.store.get f uid = .ok answer) := by
  unfold get
  rcases hx : s.expose .get f with ⟨result, s₁⟩
  have hstore : s₁.store = s.store := (congrArg (fun p => p.2.store) hx).symm
  refine ⟨s₁, hstore, ?_⟩
  cases result with
  | error e => exact .inl ⟨e, rfl⟩
  | ok =>
    simp only [hstore]
    cases s.store.get f uid with
    | error e => exact .inl ⟨e, rfl⟩
    | ok answer => exact .inr ⟨answer, rfl, rfl⟩

/-- A list fails, or it shows what the store shows; nothing changes. -/
theorem list_cases (s : Service) (f : Family) (selection : Selection) :
    ∃ s', s'.store = s.store ∧ ((∃ e, s.list f selection = (.error e, s')) ∨
      ∃ answer, s.list f selection = (.ok answer, s') ∧ s.store.list f selection = .ok answer) := by
  unfold list
  rcases hx : s.expose .list f with ⟨result, s₁⟩
  have hstore : s₁.store = s.store := (congrArg (fun p => p.2.store) hx).symm
  refine ⟨s₁, hstore, ?_⟩
  cases result with
  | error e => exact .inl ⟨e, rfl⟩
  | ok =>
    simp only [hstore]
    cases s.store.list f selection with
    | error e => exact .inl ⟨e, rfl⟩
    | ok answer => exact .inr ⟨answer, rfl, rfl⟩

/-! ### The journal -/

theorem journal_list (s : Service) (f : Family) (selection : Selection) : (s.list f selection).2.journal = s.journal := by
  unfold list
  split <;> next hx => exact (congrArg (fun p => p.2.journal) hx).symm

theorem journal_get (s : Service) (f : Family) (uid : String) : (s.get f uid).2.journal = s.journal := by
  unfold get
  split <;> next hx => exact (congrArg (fun p => p.2.journal) hx).symm

/-- A write that fails is not noted down. -/
theorem journal_of_set_error {s s' : Service} {f : Family} {r : Record} {e : StorageError}
    (h : s.set f r = (.error e, s')) : s'.journal = s.journal := by
  unfold set at h
  split at h
  · next e s₁ hx =>
    obtain ⟨-, rfl⟩ := Prod.mk.inj h
    exact (congrArg (fun p => p.2.journal) hx).symm
  · next s₁ hx =>
    split at h <;> obtain ⟨hresult, rfl⟩ := Prod.mk.inj h
    · exact (congrArg (fun p => p.2.journal) hx).symm
    · exact nomatch hresult

theorem journal_of_set_ok {s s' : Service} {f : Family} {r : Record} (h : s.set f r = (.ok (), s')) :
    s'.journal = (f, r.uid) :: s.journal := by
  unfold set at h
  split at h
  · exact nomatch (Prod.mk.inj h).1
  · next s₁ hx =>
    have hjournal : s₁.journal = s.journal := (congrArg (fun p => p.2.journal) hx).symm
    split at h <;> obtain ⟨hresult, rfl⟩ := Prod.mk.inj h
    · exact nomatch hresult
    · exact congrArg _ hjournal

/-! ### No faults -/

variable {s : Service} (h : s.faults = []) {f : Family}

include h

theorem set_of_faults_nil {r : Record} {store : Store} (hs : s.store.set f r = .ok store) :
    ∃ s', s.set f r = (.ok (), s') ∧ s'.store = store ∧ s'.faults = [] := by
  unfold set expose
  simp only [h, Fault.strike_nil, hs]
  exact ⟨_, rfl, rfl, rfl⟩

theorem set_error_of_faults_nil {r : Record} {e : StorageError} (hs : s.store.set f r = .error e) :
    ∃ s', s.set f r = (.error e, s') ∧ s'.store = s.store ∧ s'.faults = [] := by
  unfold set expose
  simp only [h, Fault.strike_nil, hs]
  exact ⟨_, rfl, rfl, rfl⟩

theorem get_of_faults_nil (f : Family) (uid : String) :
    ∃ s', s.get f uid = (s.store.get f uid, s') ∧ s'.store = s.store ∧ s'.faults = [] := by
  unfold get expose
  simp only [h, Fault.strike_nil]
  exact ⟨_, rfl, rfl, rfl⟩

theorem list_of_faults_nil (f : Family) (selection : Selection) :
    ∃ s', s.list f selection = (s.store.list f selection, s') ∧ s'.store = s.store ∧ s'.faults = [] := by
  unfold list expose
  simp only [h, Fault.strike_nil]
  exact ⟨_, rfl, rfl, rfl⟩

end Service

end FleetAtlas
