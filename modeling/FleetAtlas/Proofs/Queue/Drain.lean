import FleetAtlas.Proofs.Queue.History

/-!
# Draining a work queue

* `Queue.Drains q keys q'`: taking a key and giving it back, again and again until none is ready, hands out these keys;
* `Queue.Sound.drains`: an open queue that nobody has a key of drains, and its ready keys are handed out one by one;
* `History.Reached.nothing_lost`: **what was added is handed out, in its turn and no more often than that**.
-/

namespace FleetAtlas

namespace Queue

variable {κ : Type} [DecidableEq κ]

/-- Keys are taken and given back one by one, until none is ready. -/
inductive Drains : Queue κ → List κ → Queue κ → Prop
  | done {q : Queue κ} : q.ready = [] → Drains q [] q
  | round {q q' : Queue κ} {key : κ} {keys : List κ} :
    q.take.1 = .key key → Drains (q.take.2.release key) keys q' → Drains q (key :: keys) q'

theorem ready_ne_nil_of_take {q : Queue κ} {key : κ} (h : q.take.1 = .key key) : q.ready ≠ [] := by
  rcases q.take_cases with ⟨-, hno⟩ | ⟨k, rest, -, hr, -⟩
  · exact absurd h (hno key)
  · simp [hr]

theorem Drains.unique {q q₁ q₂ : Queue κ} {keys₁ keys₂ : List κ} (h₁ : Drains q keys₁ q₁) (h₂ : Drains q keys₂ q₂) :
    keys₁ = keys₂ ∧ q₁ = q₂ := by
  induction h₁ generalizing keys₂ with
  | done hr =>
    cases h₂ with
    | done => exact ⟨rfl, rfl⟩
    | round ht => exact absurd hr (ready_ne_nil_of_take ht)
  | round ht _ ih =>
    cases h₂ with
    | done hr => exact absurd hr (ready_ne_nil_of_take ht)
    | round ht' h' =>
      obtain rfl := Offer.key.inj (ht.symm.trans ht')
      obtain ⟨rfl, rfl⟩ := ih h'
      exact ⟨rfl, rfl⟩

/-! ### Giving back -/

@[simp] theorem foldl_release_dirty (held : List κ) (q : Queue κ) : (held.foldl release q).dirty = q.dirty := by
  induction held generalizing q with
  | nil => rfl
  | cons key held ih => exact ih (q.release key)

@[simp] theorem foldl_release_closed (held : List κ) (q : Queue κ) : (held.foldl release q).closed = q.closed := by
  induction held generalizing q with
  | nil => rfl
  | cons key held ih => exact ih (q.release key)

theorem mem_processing_foldl_release (held : List κ) {q : Queue κ} {k : κ} :
    k ∈ (held.foldl release q).processing ↔ k ∈ q.processing ∧ k ∉ held := by
  induction held generalizing q with
  | nil => simp
  | cons key held ih => rw [List.foldl_cons, ih, mem_processing_release, List.mem_cons, not_or, and_assoc]

namespace Sound

variable {q : Queue κ}

theorem foldl_release (h : q.Sound) {held : List κ} (hd : held.Nodup) (hp : ∀ k ∈ held, k ∈ q.processing) :
    (held.foldl Queue.release q).Sound := by
  induction held generalizing q with
  | nil => exact h
  | cons key held ih =>
    obtain ⟨hkey, hd⟩ := List.nodup_cons.mp hd
    refine ih (h.release (hp key List.mem_cons_self)) hd fun k hk => ?_
    have hne : k ≠ key := fun e => hkey (e ▸ hk)
    exact mem_processing_release.mpr ⟨hp k (List.mem_cons_of_mem key hk), hne⟩

/-! ### The rounds -/

omit [DecidableEq κ] in
theorem ready_perm_dirty (h : q.Sound) (hd : q.dirty.Nodup) (hopen : q.closed = false) (hfree : q.processing = []) :
    q.ready.Perm q.dirty := by
  refine (List.perm_ext_iff_of_nodup h.ready_nodup hd).mpr fun k => ?_
  constructor
  · exact h.dirty_of_ready k
  · intro hk
    exact h.ready_of_dirty hopen k hk (by simp [hfree])

theorem round (h : q.Sound) (hopen : q.closed = false) (hfree : q.processing = []) {key : κ} {rest : List κ}
    (hr : q.ready = key :: rest) :
    q.take.1 = .key key ∧
      q.take.2.release key = { q with ready := rest, dirty := q.dirty.filter (· ≠ key) } ∧
      (q.take.2.release key).Sound := by
  have htake : q.take = (.key key, { q with
      ready := rest, dirty := q.dirty.filter (· ≠ key), processing := q.processing.insert key }) := by
    simp [Queue.take, hopen, hr]
  have hheld : key ∈ q.take.2.processing := by simp [htake]
  refine ⟨by rw [htake], ?_, h.take.release hheld⟩
  rw [htake]
  simp [Queue.release, hfree]

/-- **An open queue that nobody has a key of drains**: its ready keys are handed out as they stand, and nothing is left. -/
theorem drains (h : q.Sound) (hopen : q.closed = false) (hfree : q.processing = []) :
    ∃ q', Drains q q.ready q' ∧ q'.ready = [] ∧ q'.dirty = [] ∧ q'.processing = [] := by
  -- a round takes the first of the ready keys and leaves a queue that nobody has a key of
  generalize hr : q.ready = keys
  induction keys generalizing q with
  | nil =>
    refine ⟨q, .done hr, hr, ?_, hfree⟩
    refine List.eq_nil_iff_forall_not_mem.mpr fun k hk => ?_
    have hready := h.ready_of_dirty hopen k hk (by simp [hfree])
    simp [hr] at hready
  | cons key rest ih =>
    obtain ⟨htake, heq, hsound⟩ := h.round hopen hfree hr
    have hclosed : (q.take.2.release key).closed = false := by rw [heq]; exact hopen
    have hprocessing : (q.take.2.release key).processing = [] := by rw [heq]; exact hfree
    have hready : (q.take.2.release key).ready = rest := by rw [heq]
    obtain ⟨q', hrest, hempty⟩ := ih hsound hclosed hprocessing hready
    exact ⟨q', .round htake hrest, hempty⟩

end Sound

end Queue

namespace History

open Queue

variable {κ : Type} [DecidableEq κ]

/-- **Nothing that is added is lost, and nothing is handed out needlessly.**  Until the queue is closed, the keys that wait
are those that were added since they were handed out; keys are handed out in the order in which they became ready; and
once those who have keys give them back, in any order, taking and giving back hands out every key that waits once, and
ends with nothing left. -/
theorem Reached.nothing_lost {h : History κ} (hr : Reached h) (hopen : .closed ∉ h.log) :
    (∀ k, k ∈ h.queue.dirty ↔ h.Awaits k) ∧
    h.readied = h.handedOut ++ h.queue.ready ∧
    ∀ held : List κ, held.Nodup → (∀ k, k ∈ held ↔ h.Holds k) →
      ∃ keys q, (held.foldl Queue.release h.queue).Drains keys q ∧
        keys.Nodup ∧ keys.Perm h.queue.dirty ∧ keys.length = h.queue.dirty.length ∧
        q.ready = [] ∧ q.dirty = [] ∧ q.processing = [] ∧
        ∀ keys' q', (held.foldl Queue.release h.queue).Drains keys' q' → keys' = keys ∧ q' = q := by
  have hs := hr.sound
  have hclosed := hs.closed_eq_false hopen
  refine ⟨hs.awaits_iff hclosed, hs.in_order, fun held hnodup hheld => ?_⟩
  have hin : ∀ k ∈ held, k ∈ h.queue.processing := fun k hk => (hs.holds_iff k).mpr ((hheld k).mp hk)
  have hsound : (held.foldl Queue.release h.queue).Sound := hs.queue.foldl_release hnodup hin
  have hopen' : (held.foldl Queue.release h.queue).closed = false := by rw [foldl_release_closed]; exact hclosed
  have hfree : (held.foldl Queue.release h.queue).processing = [] := by
    refine List.eq_nil_iff_forall_not_mem.mpr fun k hk => ?_
    obtain ⟨hk, hout⟩ := (mem_processing_foldl_release held).mp hk
    exact hout ((hheld k).mpr ((hs.holds_iff k).mp hk))
  have hdirty : (held.foldl Queue.release h.queue).dirty.Nodup := by
    rw [foldl_release_dirty]
    exact hs.dirty_nodup
  have hperm := hsound.ready_perm_dirty hdirty hopen' hfree
  rw [foldl_release_dirty] at hperm
  obtain ⟨q, hdrains, hready, hnone, hidle⟩ := hsound.drains hopen' hfree
  exact ⟨_, q, hdrains, hsound.ready_nodup, hperm, hperm.length_eq, hready, hnone, hidle,
    fun keys' q' hd' => hd'.unique hdrains⟩

/-- Once both keys are given back, what was added meanwhile comes out. -/
theorem drains_rush : ∃ keys q, (["b", "a"].foldl Queue.release (rush.foldl next start).queue).Drains keys q ∧
    keys.Perm ["c", "a"] ∧ q.dirty = [] := by
  obtain ⟨-, -, hdrain⟩ := Reached.nothing_lost (Reached.start.follow follows_rush) (by decide)
  have hheld : ∀ k, k ∈ ["b", "a"] ↔ (rush.foldl next start).Holds k := by
    intro k
    rw [← (Reached.start.follow follows_rush).sound.holds_iff k]
    have hprocessing : (rush.foldl next start).queue.processing = ["b", "a"] := by decide
    rw [hprocessing]
  obtain ⟨keys, q, hd, -, hperm, -, -, hdirty, -⟩ := hdrain ["b", "a"] (by decide) hheld
  exact ⟨keys, q, hd, hperm, hdirty⟩

end History

end FleetAtlas
