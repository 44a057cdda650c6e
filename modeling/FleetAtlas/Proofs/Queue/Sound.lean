import FleetAtlas.Queue.Basic

/-!
# What holds of a work queue all the time

* `Queue.Sound q`: the ready keys are distinct, they all wait, nobody has one of them, and while the queue is open every
  key that waits is ready unless somebody has it;
* `Queue.Sound.add`, …: every operation keeps this, a key being given back only by somebody who has it;
* `Queue.expire`: one timer adds its key; `Queue.advance` is nothing but timers that expire (`advance_eq_expire`).

Of the operations only `release` could break it: a key that nobody has would become ready twice.
-/

namespace FleetAtlas

/-- A timer that is put in place is one more. -/
theorem insertTimer_perm {κ : Type} (t : Timer κ) (l : List (Timer κ)) : (insertTimer t l).Perm (t :: l) := by
  induction l with
  | nil => exact .refl _
  | cons u rest ih =>
    unfold insertTimer
    split
    · exact (ih.cons u).trans (.swap t u rest)
    · exact .refl _

theorem mem_insertTimer {κ : Type} {t u : Timer κ} {l : List (Timer κ)} : u ∈ insertTimer t l ↔ u = t ∨ u ∈ l :=
  (insertTimer_perm t l).mem_iff.trans List.mem_cons

namespace Queue

variable {κ : Type} [DecidableEq κ]

/-! ### Single operations -/

theorem mem_dirty_add {q : Queue κ} (h : q.closed = false) (key k : κ) :
    k ∈ (q.add key).dirty ↔ k = key ∨ k ∈ q.dirty := by
  unfold add
  by_cases hk : key ∈ q.dirty
  · have : k = key → k ∈ q.dirty := fun e => e ▸ hk
    simp only [h, List.contains_eq_mem, hk, decide_true, Bool.or_true, if_true]
    exact ⟨.inr, fun e => e.elim this id⟩
  · simp [h, hk]

theorem mem_ready_add {q : Queue κ} (h : q.closed = false) (key k : κ) :
    k ∈ (q.add key).ready ↔ k ∈ q.ready ∨ (k = key ∧ key ∉ q.dirty ∧ key ∉ q.processing) := by
  unfold add
  by_cases hd : key ∈ q.dirty <;> by_cases hp : key ∈ q.processing <;> simp [h, hd, hp]

@[simp] theorem add_processing (q : Queue κ) (key : κ) : (q.add key).processing = q.processing := by
  unfold add; split <;> rfl

@[simp] theorem add_failures (q : Queue κ) (key : κ) : (q.add key).failures = q.failures := by
  unfold add; split <;> rfl

@[simp] theorem take_timers (q : Queue κ) : q.take.2.timers = q.timers := by
  unfold take; split <;> (try split) <;> rfl

@[simp] theorem take_failures (q : Queue κ) : q.take.2.failures = q.failures := by
  unfold take; split <;> (try split) <;> rfl

theorem mem_processing_release {q : Queue κ} {key k : κ} :
    k ∈ (q.release key).processing ↔ k ∈ q.processing ∧ k ≠ key := by
  show k ∈ q.processing.filter (fun x => x ≠ key) ↔ k ∈ q.processing ∧ k ≠ key
  rw [List.mem_filter, decide_eq_true_iff]

/-- **What a taker gets.**  Either nothing changes, or the queue is open and its first ready key is handed out. -/
theorem take_cases (q : Queue κ) :
    (q.take.2 = q ∧ ∀ k, q.take.1 ≠ .key k) ∨
    ∃ k rest, q.closed = false ∧ q.ready = k :: rest ∧
      q.take = (.key k, { q with
        ready := rest, dirty := q.dirty.filter (· ≠ k), processing := q.processing.insert k }) := by
  unfold take
  by_cases h : q.closed = true
  · exact .inl (by simp [h])
  · rw [if_neg h]
    cases hr : q.ready with
    | nil => exact .inl (by simp)
    | cons k rest => exact .inr ⟨k, rest, by simpa using h, rfl, rfl⟩

/-- One timer adds its key. -/
def expire (q : Queue κ) (t : Timer κ) : Queue κ := { q with timers := q.timers.erase t }.add t.key

@[simp] theorem expire_processing (q : Queue κ) (t : Timer κ) : (q.expire t).processing = q.processing := by
  simp [expire]

@[simp] theorem expire_closed (q : Queue κ) (t : Timer κ) : (q.expire t).closed = q.closed := by
  simp [expire, add_closed]

@[simp] theorem expire_timers (q : Queue κ) (t : Timer κ) : (q.expire t).timers = q.timers.erase t := by
  simp [expire, add_timers]

@[simp] theorem expire_failures (q : Queue κ) (t : Timer κ) : (q.expire t).failures = q.failures := by
  simp [expire]

theorem mem_dirty_expire {q : Queue κ} (h : q.closed = false) (t : Timer κ) (k : κ) :
    k ∈ (q.expire t).dirty ↔ k = t.key ∨ k ∈ q.dirty :=
  mem_dirty_add (q := { q with timers := q.timers.erase t }) h t.key k

@[simp] theorem foldl_add_processing (keys : List κ) (q : Queue κ) :
    (keys.foldl add q).processing = q.processing := by
  induction keys generalizing q with
  | nil => rfl
  | cons key keys ih => rw [List.foldl_cons, ih, add_processing]

@[simp] theorem foldl_add_closed (keys : List κ) (q : Queue κ) : (keys.foldl add q).closed = q.closed := by
  induction keys generalizing q with
  | nil => rfl
  | cons key keys ih => rw [List.foldl_cons, ih, add_closed]

theorem mem_dirty_foldl_add {q : Queue κ} (h : q.closed = false) (keys : List κ) (k : κ) :
    k ∈ (keys.foldl add q).dirty ↔ k ∈ keys ∨ k ∈ q.dirty := by
  induction keys generalizing q with
  | nil => simp
  | cons key keys ih =>
    rw [List.foldl_cons, ih (by rw [add_closed]; exact h), mem_dirty_add h, List.mem_cons]
    exact ⟨fun h => h.elim (.inl ∘ .inr) (·.elim (.inl ∘ .inl) .inr),
      fun h => h.elim (·.elim (.inr ∘ .inl) .inl) (.inr ∘ .inr)⟩

@[simp] theorem foldl_add_timers (keys : List κ) (q : Queue κ) : (keys.foldl add q).timers = q.timers := by
  induction keys generalizing q with
  | nil => rfl
  | cons key keys ih => rw [List.foldl_cons, ih, add_timers]

@[simp] theorem foldl_add_failures (keys : List κ) (q : Queue κ) : (keys.foldl add q).failures = q.failures := by
  induction keys generalizing q with
  | nil => rfl
  | cons key keys ih => rw [List.foldl_cons, ih, add_failures]

theorem add_with_timers (q : Queue κ) (key : κ) (timers : List (Timer κ)) :
    { q.add key with timers } = { q with timers }.add key := by
  unfold add; split <;> rfl

/-- **Time that passes makes timers expire**, those that are due, in the order in which they are set. -/
theorem advance_eq_expire (q : Queue κ) (now : Nat) :
    q.advance now = (q.timers.takeWhile fun t => t.due ≤ now).foldl expire q := by
  suffices H : ∀ (ts rest : List (Timer κ)) (q : Queue κ),
      ts.foldl (fun q t => q.add t.key) { q with timers := rest } = ts.foldl expire { q with timers := ts ++ rest } by
    have e : q.timers.takeWhile (fun t => t.due ≤ now) ++ q.timers.dropWhile (fun t => t.due ≤ now) = q.timers :=
      List.takeWhile_append_dropWhile
    unfold advance
    rw [H, e]
  intro ts rest
  induction ts with
  | nil => intro q; rfl
  | cons t ts ih =>
    intro q
    have h1 : { q with timers := t :: ts ++ rest }.expire t = { q.add t.key with timers := ts ++ rest } := by
      rw [add_with_timers]
      simp [expire]
    rw [List.foldl_cons, List.foldl_cons, h1, ← ih, add_with_timers]

/-! ### The invariant -/

/-- **What holds of a work queue all the time.** -/
structure Sound (q : Queue κ) : Prop where
  /-- No key is ready twice. -/
  ready_nodup : q.ready.Nodup
  /-- A ready key waits. -/
  dirty_of_ready : ∀ k ∈ q.ready, k ∈ q.dirty
  /-- Nobody has a ready key. -/
  free_of_ready : ∀ k ∈ q.ready, k ∉ q.processing
  /-- A key that waits is ready, unless somebody has it. -/
  ready_of_dirty : q.closed = false → ∀ k ∈ q.dirty, k ∉ q.processing → k ∈ q.ready

namespace Sound

variable {q : Queue κ}

omit [DecidableEq κ] in
theorem empty : (Queue.empty : Queue κ).Sound := by
  constructor <;> simp [Queue.empty]

omit [DecidableEq κ] in
/-- Neither failures nor timers matter. -/
theorem of_eq {q' : Queue κ} (h : q.Sound) (hr : q'.ready = q.ready) (hd : q'.dirty = q.dirty)
    (hp : q'.processing = q.processing) (hc : q'.closed = false → q.closed = false) : q'.Sound := by
  obtain ⟨h1, h2, h3, h4⟩ := h
  refine ⟨hr ▸ h1, ?_, ?_, ?_⟩
  · rw [hr, hd]; exact h2
  · rw [hr, hp]; exact h3
  · rw [hr, hd, hp]; exact fun h => h4 (hc h)

theorem add (h : q.Sound) (key : κ) : (q.add key).Sound := by
  cases hc : q.closed with
  | true => rw [add_of_closed hc]; exact h
  | false =>
    refine ⟨?_, ?_, ?_, ?_⟩
    · unfold Queue.add
      split
      · exact h.ready_nodup
      · next hn =>
        split
        · exact h.ready_nodup
        · have hkey : key ∉ q.ready := fun hk => hn (by simp [h.dirty_of_ready key hk])
          exact List.nodup_append.mpr ⟨h.ready_nodup, by simp, fun a ha b hb => by
            rw [List.mem_singleton] at hb; subst hb; exact fun e => hkey (e ▸ ha)⟩
    · intro k hk
      rw [mem_dirty_add hc]
      rcases (mem_ready_add hc key k).mp hk with hk | ⟨rfl, -, -⟩
      · exact .inr (h.dirty_of_ready k hk)
      · exact .inl rfl
    · intro k hk
      rw [add_processing]
      rcases (mem_ready_add hc key k).mp hk with hk | ⟨rfl, -, hp⟩
      · exact h.free_of_ready k hk
      · exact hp
    · intro _ k hk hp
      rw [add_processing] at hp
      rw [mem_ready_add hc]
      by_cases hd : k ∈ q.dirty
      · exact .inl (h.ready_of_dirty hc k hd hp)
      · rcases (mem_dirty_add hc key k).mp hk with rfl | hk
        · exact .inr ⟨rfl, hd, hp⟩
        · exact absurd hk hd

theorem foldl_add (h : q.Sound) (keys : List κ) : (keys.foldl Queue.add q).Sound := by
  induction keys generalizing q with
  | nil => exact h
  | cons key keys ih => exact ih (h.add key)

theorem expire (h : q.Sound) (t : Timer κ) : (q.expire t).Sound := by
  have h' : { q with timers := q.timers.erase t }.Sound := h.of_eq rfl rfl rfl id
  exact h'.add t.key

theorem retry (h : q.Sound) (now : Nat) (key : κ) : (q.retry now key).Sound := h.of_eq rfl rfl rfl id

theorem forget (h : q.Sound) (key : κ) : (q.forget key).Sound := h.of_eq rfl rfl rfl id

omit [DecidableEq κ] in
theorem close (h : q.Sound) : q.close.Sound := h.of_eq rfl rfl rfl nofun

theorem take (h : q.Sound) : q.take.2.Sound := by
  rcases take_cases q with ⟨e, -⟩ | ⟨key, rest, hc, hr, e⟩
  · rw [e]; exact h
  · obtain ⟨h1, h2, h3, h4⟩ := h
    rw [hr] at h1 h2 h3 h4
    have hne : ∀ k ∈ rest, k ≠ key := fun k hk e => (List.nodup_cons.mp h1).1 (e ▸ hk)
    rw [e]
    refine ⟨(List.nodup_cons.mp h1).2, ?_, ?_, ?_⟩
    · intro k hk
      exact List.mem_filter.mpr ⟨h2 k (.tail _ hk), by simpa using hne k hk⟩
    · intro k hk hp
      rcases List.mem_insert_iff.mp hp with e | hp
      · exact hne k hk e
      · exact h3 k (.tail _ hk) hp
    · intro _ k hk hp
      obtain ⟨hd, hn⟩ := List.mem_filter.mp hk
      have hp' : k ∉ q.processing := fun h => hp (List.mem_insert_iff.mpr (.inr h))
      rcases List.mem_cons.mp (h4 hc k hd hp') with e | hk
      · exact absurd e (by simpa using hn)
      · exact hk

/-- Only a key that somebody has may be given back. -/
theorem release (h : q.Sound) {key : κ} (hk : key ∈ q.processing) : (q.release key).Sound := by
  have hr : key ∉ q.ready := fun hr => h.free_of_ready key hr hk
  have hmem : ∀ k, k ∈ (q.release key).ready ↔
      k ∈ q.ready ∨ (k = key ∧ key ∈ q.dirty ∧ q.closed = false) := by
    intro k
    unfold Queue.release
    by_cases hd : key ∈ q.dirty <;> cases hc : q.closed <;> simp [hd]
  refine ⟨?_, ?_, ?_, ?_⟩
  · unfold Queue.release
    show List.Nodup (if _ then _ else _)
    split
    · exact List.nodup_append.mpr ⟨h.ready_nodup, by simp, fun a ha b hb => by
        rw [List.mem_singleton] at hb; subst hb; exact fun e => hr (e ▸ ha)⟩
    · exact h.ready_nodup
  · intro k hk'
    rcases (hmem k).mp hk' with hk' | ⟨rfl, hd, -⟩
    · exact h.dirty_of_ready k hk'
    · exact hd
  · intro k hk' hp
    obtain ⟨hp, hne⟩ := List.mem_filter.mp hp
    rcases (hmem k).mp hk' with hk' | ⟨rfl, -, -⟩
    · exact h.free_of_ready k hk' hp
    · simp at hne
  · intro hc k hd hp
    rw [hmem]
    by_cases e : k = key
    · exact .inr ⟨e, e ▸ hd, hc⟩
    · exact .inl (h.ready_of_dirty hc k hd fun h => hp (List.mem_filter.mpr ⟨h, by simpa using e⟩))

end Sound

end Queue

end FleetAtlas
