import FleetAtlas.Dispatcher
import FleetAtlas.Proofs.Queue.Sound

/-!
# What events and calls change in a dispatcher

* `applied_queue`, `get?_versions_applied`, …: what an object that is there changes, part by part;
* `bereaveAll`: the deletion of several objects, which is what the end of a listing comes to (`notify_initDone`);
* `observe_queue_eq_foldl`: events only ever add keys to the queue;
* `begin?_cases`, `finish_queue`, `get?_tombstones_finish`: the begin and the end of a call.
-/

namespace FleetAtlas.Dispatcher

variable {κ : Type}

/-! ### Deletions -/

@[simp] theorem bereave_cache (d : Dispatcher κ) (key : ObjectKey) (o : κ) : (d.bereave key o).cache = d.cache := rfl
@[simp] theorem bereave_flight (d : Dispatcher κ) (key : ObjectKey) (o : κ) : (d.bereave key o).flight = d.flight := rfl
@[simp] theorem bereave_relist (d : Dispatcher κ) (key : ObjectKey) (o : κ) : (d.bereave key o).relist = d.relist := rfl
@[simp] theorem bereave_queue (d : Dispatcher κ) (key : ObjectKey) (o : κ) :
    (d.bereave key o).queue = d.queue.add key := rfl

theorem get?_versions_bereave (d : Dispatcher κ) (key k : ObjectKey) (o : κ) :
    (d.bereave key o).versions.get? k = if k = key then none else d.versions.get? k := by
  show (d.versions.erase key).get? k = _
  by_cases h : k = key
  · rw [if_pos h, h, Dict.get?_erase_self]
  · rw [if_neg h, Dict.get?_erase_of_ne _ h]

theorem get?_tombstones_bereave (d : Dispatcher κ) (key k : ObjectKey) (o : κ) :
    (d.bereave key o).tombstones.get? k = if k = key then some ⟨o, d.serials⟩ else d.tombstones.get? k :=
  Dict.get?_insert d.tombstones key k _

variable [ClusterObject κ]

/-- The deletion of objects, one after the other. -/
def bereaveAll (d : Dispatcher κ) (objects : List κ) : Dispatcher κ :=
  objects.foldl (fun d o => d.bereave (.of o) o) d

@[simp] theorem bereaveAll_nil (d : Dispatcher κ) : d.bereaveAll [] = d := rfl

theorem bereaveAll_cons (d : Dispatcher κ) (o : κ) (objects : List κ) :
    d.bereaveAll (o :: objects) = (d.bereave (.of o) o).bereaveAll objects := rfl

@[simp] theorem bereaveAll_cache (d : Dispatcher κ) (objects : List κ) : (d.bereaveAll objects).cache = d.cache := by
  induction objects generalizing d with
  | nil => rfl
  | cons o objects ih => rw [bereaveAll_cons, ih, bereave_cache]

@[simp] theorem bereaveAll_flight (d : Dispatcher κ) (objects : List κ) :
    (d.bereaveAll objects).flight = d.flight := by
  induction objects generalizing d with
  | nil => rfl
  | cons o objects ih => rw [bereaveAll_cons, ih, bereave_flight]

@[simp] theorem bereaveAll_relist (d : Dispatcher κ) (objects : List κ) :
    (d.bereaveAll objects).relist = d.relist := by
  induction objects generalizing d with
  | nil => rfl
  | cons o objects ih => rw [bereaveAll_cons, ih, bereave_relist]

theorem bereaveAll_queue (d : Dispatcher κ) (objects : List κ) :
    (d.bereaveAll objects).queue = (objects.map ObjectKey.of).foldl Queue.add d.queue := by
  induction objects generalizing d with
  | nil => rfl
  | cons o objects ih => rw [bereaveAll_cons, ih, bereave_queue, List.map_cons, List.foldl_cons]

theorem get?_versions_bereaveAll (d : Dispatcher κ) (objects : List κ) (k : ObjectKey) :
    (d.bereaveAll objects).versions.get? k =
      if k ∈ objects.map ObjectKey.of then none else d.versions.get? k := by
  induction objects generalizing d with
  | nil => simp
  | cons o objects ih =>
    rw [bereaveAll_cons, ih, get?_versions_bereave]
    by_cases h : k = .of o <;> by_cases hk : k ∈ objects.map ObjectKey.of <;> simp [h, hk]

theorem get?_tombstones_bereaveAll_of_notMem {d : Dispatcher κ} {objects : List κ} {k : ObjectKey}
    (h : k ∉ objects.map ObjectKey.of) : (d.bereaveAll objects).tombstones.get? k = d.tombstones.get? k := by
  induction objects generalizing d with
  | nil => rfl
  | cons o objects ih =>
    rw [List.map_cons, List.mem_cons, not_or] at h
    rw [bereaveAll_cons, ih h.2, get?_tombstones_bereave, if_neg h.1]

theorem exists_tombstone_bereaveAll {d : Dispatcher κ} {objects : List κ} {k : ObjectKey}
    (h : k ∈ objects.map ObjectKey.of) : ∃ stone, (d.bereaveAll objects).tombstones.get? k = some stone := by
  induction objects generalizing d with
  | nil => simp at h
  | cons o objects ih =>
    rw [bereaveAll_cons]
    by_cases hk : k ∈ objects.map ObjectKey.of
    · exact ih hk
    · rw [get?_tombstones_bereaveAll_of_notMem hk, get?_tombstones_bereave]
      rcases List.mem_cons.mp h with e | h
      · exact ⟨_, if_pos e⟩
      · exact absurd h hk

/-! ### Objects that are there -/

@[simp] theorem applied_cache (d : Dispatcher κ) (o : κ) : (d.applied o).cache = d.cache := by
  unfold applied; dsimp only; split <;> rfl

@[simp] theorem applied_flight (d : Dispatcher κ) (o : κ) : (d.applied o).flight = d.flight := by
  unfold applied; dsimp only; split <;> rfl

@[simp] theorem applied_relist (d : Dispatcher κ) (o : κ) :
    (d.applied o).relist = d.relist.map fun r => { r with applied := .of o :: r.applied } := by
  unfold applied; dsimp only; split <;> rfl

theorem applied_queue (d : Dispatcher κ) (o : κ) :
    (d.applied o).queue =
      if d.versions.get? (.of o) = some (versionOf o) then d.queue else d.queue.add (.of o) := by
  unfold applied; dsimp only; split <;> rfl

theorem get?_versions_applied (d : Dispatcher κ) (o : κ) (k : ObjectKey) :
    (d.applied o).versions.get? k = if k = .of o then some (versionOf o) else d.versions.get? k := by
  have e : (d.applied o).versions = d.versions.insert (.of o) (versionOf o) := by
    unfold applied; dsimp only; split <;> rfl
  rw [e, Dict.get?_insert]

theorem get?_tombstones_applied (d : Dispatcher κ) (o : κ) (k : ObjectKey) :
    (d.applied o).tombstones.get? k = if k = .of o then none else d.tombstones.get? k := by
  have e : (d.applied o).tombstones = d.tombstones.erase (.of o) := by
    unfold applied; dsimp only; split <;> rfl
  rw [e]
  by_cases h : k = .of o
  · rw [if_pos h, h, Dict.get?_erase_self]
  · rw [if_neg h, Dict.get?_erase_of_ne _ h]

/-! ### Events -/

theorem notify_initDone {d : Dispatcher κ} {r : Relist κ} (h : d.relist = some r) :
    d.notify .initDone = { d with relist := none }.bereaveAll (vanished r) := by
  simp only [notify, h]
  rfl

theorem mem_vanished_iff {r : Relist κ} {k : ObjectKey} :
    k ∈ (vanished r).map ObjectKey.of ↔ (∃ o ∈ r.before, .of o = k) ∧ k ∉ r.applied := by
  unfold vanished
  constructor
  · intro h
    obtain ⟨o, ho, rfl⟩ := List.mem_map.mp h
    obtain ⟨hb, ha⟩ := List.mem_filter.mp ho
    exact ⟨⟨o, hb, rfl⟩, by simpa using ha⟩
  · rintro ⟨⟨o, hb, rfl⟩, ha⟩
    exact List.mem_map.mpr ⟨o, List.mem_filter.mpr ⟨hb, by simpa using ha⟩, rfl⟩

@[simp] theorem notify_cache (d : Dispatcher κ) (e : WatchEvent κ) : (d.notify e).cache = d.cache := by
  cases e with
  | init => rfl
  | initApply o => exact applied_cache d o
  | apply o => exact applied_cache d o
  | delete o => rfl
  | initDone =>
    cases h : d.relist with
    | none => simp [notify, h]
    | some r => rw [notify_initDone h, bereaveAll_cache]

@[simp] theorem observe_cache (d : Dispatcher κ) (e : WatchEvent κ) : (d.observe e).cache = d.cache.observe e := by
  rw [observe, notify_cache]

@[simp] theorem notify_flight (d : Dispatcher κ) (e : WatchEvent κ) : (d.notify e).flight = d.flight := by
  cases e with
  | init => rfl
  | initApply o => exact applied_flight d o
  | apply o => exact applied_flight d o
  | delete o => rfl
  | initDone =>
    cases h : d.relist with
    | none => simp [notify, h]
    | some r => rw [notify_initDone h, bereaveAll_flight]

theorem applied_queue_eq_foldl (d : Dispatcher κ) (o : κ) :
    ∃ keys : List ObjectKey, (d.applied o).queue = keys.foldl Queue.add d.queue := by
  rw [applied_queue]
  split
  · exact ⟨[], rfl⟩
  · exact ⟨[.of o], rfl⟩

theorem notify_queue_eq_foldl (d : Dispatcher κ) (e : WatchEvent κ) :
    ∃ keys : List ObjectKey, (d.notify e).queue = keys.foldl Queue.add d.queue := by
  cases e with
  | init => exact ⟨[], rfl⟩
  | initApply o => exact applied_queue_eq_foldl d o
  | apply o => exact applied_queue_eq_foldl d o
  | delete o => exact ⟨[.of o], rfl⟩
  | initDone =>
    cases h : d.relist with
    | none => exact ⟨[], by simp [notify, h]⟩
    | some r => exact ⟨(vanished r).map .of, by rw [notify_initDone h, bereaveAll_queue]⟩

@[simp] theorem observe_flight (d : Dispatcher κ) (e : WatchEvent κ) : (d.observe e).flight = d.flight := by
  rw [observe, notify_flight]

/-- **Events only add keys to the queue.** -/
theorem observe_queue_eq_foldl (d : Dispatcher κ) (e : WatchEvent κ) :
    ∃ keys : List ObjectKey, (d.observe e).queue = keys.foldl Queue.add d.queue :=
  notify_queue_eq_foldl { d with cache := d.cache.observe e } e

theorem mem_dirty_observe {d : Dispatcher κ} (h : d.queue.closed = false) (e : WatchEvent κ) {k : ObjectKey}
    (hk : k ∈ d.queue.dirty) : k ∈ (d.observe e).queue.dirty := by
  obtain ⟨keys, hq⟩ := d.observe_queue_eq_foldl e
  rw [hq, Queue.mem_dirty_foldl_add h]
  exact .inr hk

theorem mem_dirty_bereaveAll {d : Dispatcher κ} (h : d.queue.closed = false) {objects : List κ} {k : ObjectKey}
    (hk : k ∈ objects.map ObjectKey.of) : k ∈ (d.bereaveAll objects).queue.dirty := by
  rw [bereaveAll_queue, Queue.mem_dirty_foldl_add h]
  exact .inl hk

theorem mem_dirty_or_noted_applied {d : Dispatcher κ} (h : d.queue.closed = false) (o : κ) (k : ObjectKey) :
    k ∈ (d.applied o).queue.dirty ∨ (d.applied o).versions.get? k = d.versions.get? k := by
  rw [get?_versions_applied, applied_queue]
  by_cases hk : k = .of o
  · rw [if_pos hk, hk]
    split
    · next hv => exact .inr hv.symm
    · exact .inl ((Queue.mem_dirty_add h _ _).mpr (.inl rfl))
  · exact .inr (if_neg hk)

theorem mem_dirty_or_noted_notify {d : Dispatcher κ} (h : d.queue.closed = false) (e : WatchEvent κ)
    (k : ObjectKey) : k ∈ (d.notify e).queue.dirty ∨ (d.notify e).versions.get? k = d.versions.get? k := by
  cases e with
  | init => exact .inr rfl
  | initApply o => exact mem_dirty_or_noted_applied h o k
  | apply o => exact mem_dirty_or_noted_applied h o k
  | delete o =>
    by_cases hk : k = .of o
    · exact .inl ((Queue.mem_dirty_add h _ _).mpr (.inl hk))
    · exact .inr (by rw [notify, get?_versions_bereave, if_neg hk])
  | initDone =>
    cases hr : d.relist with
    | none => exact .inr (by simp [notify, hr])
    | some r =>
      rw [notify_initDone hr]
      by_cases hk : k ∈ (vanished r).map ObjectKey.of
      · exact .inl (mem_dirty_bereaveAll (d := { d with relist := none }) h hk)
      · exact .inr (by rw [get?_versions_bereaveAll, if_neg hk])

/-- **A key waits once its noted version changes.** -/
theorem mem_dirty_or_noted_observe {d : Dispatcher κ} (h : d.queue.closed = false) (e : WatchEvent κ)
    (k : ObjectKey) : k ∈ (d.observe e).queue.dirty ∨ (d.observe e).versions.get? k = d.versions.get? k :=
  mem_dirty_or_noted_notify (d := { d with cache := d.cache.observe e }) h e k

theorem mem_dirty_or_stone_notify {d : Dispatcher κ} (h : d.queue.closed = false) (e : WatchEvent κ)
    (k : ObjectKey) : k ∈ (d.notify e).queue.dirty ∨
      (d.notify e).tombstones.get? k = d.tombstones.get? k ∨ (d.notify e).tombstones.get? k = none := by
  have happlied : ∀ o, (d.applied o).tombstones.get? k = d.tombstones.get? k ∨
      (d.applied o).tombstones.get? k = none := fun o => by
    rw [get?_tombstones_applied]
    split
    · exact .inr rfl
    · exact .inl rfl
  cases e with
  | init => exact .inr (.inl rfl)
  | initApply o => exact .inr (happlied o)
  | apply o => exact .inr (happlied o)
  | delete o =>
    by_cases hk : k = .of o
    · exact .inl ((Queue.mem_dirty_add h _ _).mpr (.inl hk))
    · exact .inr (.inl (by rw [notify, get?_tombstones_bereave, if_neg hk]))
  | initDone =>
    cases hr : d.relist with
    | none => exact .inr (.inl (by simp [notify, hr]))
    | some r =>
      rw [notify_initDone hr]
      by_cases hk : k ∈ (vanished r).map ObjectKey.of
      · exact .inl (mem_dirty_bereaveAll (d := { d with relist := none }) h hk)
      · exact .inr (.inl (get?_tombstones_bereaveAll_of_notMem hk))

/-- **A key waits once a tombstone is put under it.** -/
theorem mem_dirty_or_stone_observe {d : Dispatcher κ} (h : d.queue.closed = false) (e : WatchEvent κ)
    (k : ObjectKey) : k ∈ (d.observe e).queue.dirty ∨
      (d.observe e).tombstones.get? k = d.tombstones.get? k ∨ (d.observe e).tombstones.get? k = none :=
  mem_dirty_or_stone_notify (d := { d with cache := d.cache.observe e }) h e k

/-! ### Calls -/

omit [ClusterObject κ] in
/-- **A call begins** for the first ready key, about what its look-up finds. -/
theorem begin?_cases {d d' : Dispatcher κ} {call : Call κ} (h : d.begin? = some (call, d')) :
    d.queue.closed = false ∧ (∃ rest, d.queue.ready = call.key :: rest) ∧ call.target = d.target call.key ∧
      d' = { d with queue := d.queue.take.2, flight := d.flight ++ [call] } := by
  unfold begin? at h
  rcases d.queue.take_cases with ⟨-, hk⟩ | ⟨k, rest, hc, hr, e⟩
  · split at h
    · next key queue heq => exact absurd (congrArg Prod.fst heq) (hk key)
    · simp at h
    · simp at h
  · rw [e] at h
    simp only [Option.some.injEq, Prod.mk.injEq] at h
    obtain ⟨rfl, rfl⟩ := h
    exact ⟨hc, ⟨rest, hr⟩, rfl, by rw [e]⟩

section Finish

variable (d : Dispatcher κ) (now : Nat) (call : Call κ) (result : Except Failure Unit)

omit [ClusterObject κ]

@[simp] theorem clearTombstone_cache : (d.clearTombstone call).cache = d.cache := by
  unfold clearTombstone; split <;> (try split) <;> rfl

@[simp] theorem clearTombstone_queue : (d.clearTombstone call).queue = d.queue := by
  unfold clearTombstone; split <;> (try split) <;> rfl

@[simp] theorem clearTombstone_versions : (d.clearTombstone call).versions = d.versions := by
  unfold clearTombstone; split <;> (try split) <;> rfl

@[simp] theorem clearTombstone_relist : (d.clearTombstone call).relist = d.relist := by
  unfold clearTombstone; split <;> (try split) <;> rfl

@[simp] theorem clearTombstone_flight : (d.clearTombstone call).flight = d.flight := by
  unfold clearTombstone; split <;> (try split) <;> rfl

@[simp] theorem finish_cache : (d.finish now call result).cache = d.cache := by
  unfold finish; dsimp only; split <;> simp

@[simp] theorem finish_versions : (d.finish now call result).versions = d.versions := by
  unfold finish; dsimp only; split <;> simp

@[simp] theorem finish_relist : (d.finish now call result).relist = d.relist := by
  unfold finish; dsimp only; split <;> simp

@[simp] theorem finish_flight :
    (d.finish now call result).flight = d.flight.filter fun c => c.key ≠ call.key := by
  unfold finish; dsimp only; split <;> simp

theorem finish_queue :
    (d.finish now call result).queue =
      if isRetried result then (d.queue.retry now call.key).release call.key
      else (d.queue.forget call.key).release call.key := by
  unfold finish; dsimp only; split <;> simp

/-- A call that is over for good takes away the tombstone that it was about. -/
theorem get?_tombstones_finish (k : ObjectKey) :
    (d.finish now call result).tombstones.get? k = d.tombstones.get? k ∨
      (isRetried result = false ∧ k = call.key ∧ (∃ stone, call.target = .deleted stone) ∧
        (d.finish now call result).tombstones.get? k = none) := by
  unfold finish
  dsimp only
  cases hr : isRetried result with
  | true => exact .inl rfl
  | false =>
    rw [if_neg Bool.false_ne_true, clearTombstone]
    split
    · next stone ht =>
      split
      · by_cases hk : k = call.key
        · exact .inr ⟨rfl, hk, ⟨stone, ht⟩, by rw [hk]; exact Dict.get?_erase_self _ _⟩
        · exact .inl (Dict.get?_erase_of_ne _ hk)
      · exact .inl rfl
    · exact .inl rfl
    · exact .inl rfl

/-- **A handled deletion leaves no tombstone**, unless it is about a later one. -/
theorem get?_tombstones_finish_self {stone : Tombstone κ} (hr : isRetried result = false)
    (ht : call.target = .deleted stone) (hs : d.tombstones.get? call.key = some stone) :
    (d.finish now call result).tombstones.get? call.key = none := by
  unfold finish
  simp only [hr, Bool.false_eq_true, if_false, clearTombstone, ht, hs, Option.any_some, decide_true, if_true]
  exact Dict.get?_erase_self _ _

end Finish

end FleetAtlas.Dispatcher
