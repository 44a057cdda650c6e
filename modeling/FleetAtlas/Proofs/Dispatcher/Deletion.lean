import FleetAtlas.Proofs.Dispatcher.Scope

/-!
# Which deletions a handler is told of

* `Course.Completes`: a listing, once begun, goes on to its end;
* `Course.Buries`: every tombstone has something to come that is about it, and every key without object and tombstone was
  last handled as a deletion;
* `Reached.no_deletion_lost`: **in an idle course the last call for a key that is gone was its deletion**, and no tombstone
  is left.

A tombstone comes with its key being queued. From then on it waits, behind a call or in its turn; it is about to be
handled; or it is tried again after a delay. Only a look-up that finds another object could let it down, and in a watch of
one kind none does.
-/

namespace FleetAtlas

namespace Course

variable {κ : Type} [ClusterObject κ]

/-- A listing, once begun, does not begin anew. -/
def Completes (c : Course κ) : Occurrence κ → Prop
  | .seen .init => c.listing = false
  | _ => True

/-- Something to come is about a tombstone: its key waits, for its turn or for a timer, or its call is in flight. -/
def Pending (c : Course κ) (k : ObjectKey) (stone : Tombstone κ) : Prop :=
  k ∈ c.dispatcher.queue.dirty ∨ (∃ t ∈ c.dispatcher.queue.timers, t.key = k) ∨
    ⟨k, .deleted stone⟩ ∈ c.dispatcher.flight

/-- **What holds of deletions all the time.** -/
structure Buries (c : Course κ) : Prop where
  /-- While the queue is open, something is to come about every tombstone. -/
  pending : c.dispatcher.queue.closed = false → ∀ {k stone}, c.dispatcher.tombstones.get? k = some stone →
    c.Pending k stone
  /-- A key without object and tombstone was handled as a deletion. -/
  handled : ∀ {k}, c.dispatcher.cache.objects.get? k = none → c.dispatcher.cache.buffer.get? k = none →
    c.dispatcher.tombstones.get? k = none → ∀ {h}, c.lastCall? k = some h → h.IsDeletion

/-! ### Events -/

/-- **An object does not go without a tombstone**: a key that has nothing after an event had nothing before it. -/
theorem nothing_of_observe {c : Course κ} (h : c.Sound) {e : WatchEvent κ} (he : Watching c.listing e)
    (hcomplete : c.Completes (.seen e)) {k : ObjectKey}
    (ho : (c.dispatcher.observe e).cache.objects.get? k = none)
    (hb : (c.dispatcher.observe e).cache.buffer.get? k = none)
    (hs : (c.dispatcher.observe e).tombstones.get? k = none) :
    c.dispatcher.cache.objects.get? k = none ∧ c.dispatcher.cache.buffer.get? k = none ∧
      c.dispatcher.tombstones.get? k = none := by
  have hm := h.mirrors
  have hrelist : ∀ {b}, c.listing = b → c.dispatcher.relist.isSome = b := fun hl => h.listing_eq ▸ hl
  rw [Dispatcher.observe_cache] at ho hb
  cases e with
  | init =>
    have hr : c.dispatcher.relist = none := by simpa using hrelist hcomplete
    exact ⟨ho, hm.buffer_none hr k, hs⟩
  | initApply o =>
    replace hb : (c.dispatcher.cache.buffer.insert (.of o) o).get? k = none := hb
    replace hs : ({ c.dispatcher with cache := _ }.applied o).tombstones.get? k = none := hs
    rw [Dict.get?_insert] at hb
    rw [Dispatcher.get?_tombstones_applied] at hs
    by_cases hk : k = .of o
    · simp [hk] at hb
    · rw [if_neg hk] at hb hs
      exact ⟨ho, hb, hs⟩
  | apply o =>
    replace ho : (c.dispatcher.cache.objects.insert (.of o) o).get? k = none := ho
    replace hs : ({ c.dispatcher with cache := _ }.applied o).tombstones.get? k = none := hs
    rw [Dict.get?_insert] at ho
    rw [Dispatcher.get?_tombstones_applied] at hs
    by_cases hk : k = .of o
    · simp [hk] at ho
    · rw [if_neg hk] at ho hs
      exact ⟨ho, hb, hs⟩
  | delete o =>
    replace ho : (c.dispatcher.cache.objects.erase (.of o)).get? k = none := ho
    replace hs : ({ c.dispatcher with cache := _ }.bereave (.of o) o).tombstones.get? k = none := hs
    rw [Dispatcher.get?_tombstones_bereave] at hs
    by_cases hk : k = .of o
    · simp [hk] at hs
    · rw [if_neg hk] at hs
      rw [Dict.get?_erase_of_ne _ hk] at ho
      exact ⟨ho, hb, hs⟩
  | initDone =>
    obtain ⟨r, hr⟩ := Option.isSome_iff_exists.mp (hrelist he)
    have hbuffer : c.dispatcher.cache.buffer.get? k = none := ho
    have e : c.dispatcher.observe .initDone = _ :=
      Dispatcher.notify_initDone (d := { c.dispatcher with cache := c.dispatcher.cache.observe .initDone }) hr
    have hstays : k ∉ (Dispatcher.vanished r).map ObjectKey.of := fun hv => by
      obtain ⟨stone, hstone⟩ := Dispatcher.exists_tombstone_bereaveAll
        (d := { c.dispatcher with cache := c.dispatcher.cache.observe .initDone, relist := none }) hv
      rw [e, hstone] at hs
      exact nomatch hs
    refine ⟨?_, hbuffer, ?_⟩
    · -- what was cached would have been missed by the listing, which has not shown it
      refine Option.eq_none_iff_forall_ne_some.mpr fun o hc => hstays (Dispatcher.mem_vanished_iff.mpr ⟨⟨o, ?_, ?_⟩, ?_⟩)
      · rw [hm.relist_before hr]
        exact Dict.mem_values_iff.mpr ⟨k, hc⟩
      · exact hm.cached_key hc
      · rw [hm.relist_applied hr, hbuffer]
        simp
    · rw [e, Dispatcher.get?_tombstones_bereaveAll_of_notMem hstays] at hs
      exact hs

namespace Buries

variable {c : Course κ}

omit [ClusterObject κ] in
theorem start : (start : Course κ).Buries where
  pending _ := nofun
  handled _ _ _ := nofun

theorem seen (h : c.Buries) (hc : c.Sound) {e : WatchEvent κ} (he : Watching c.listing e)
    (hcomplete : c.Completes (.seen e)) : (c.next (.seen e)).Buries := by
  obtain ⟨keys, hq⟩ := c.dispatcher.observe_queue_eq_foldl e
  constructor
  · intro hopen k stone hs
    replace hs : (c.dispatcher.observe e).tombstones.get? k = some stone := hs
    replace hopen : c.dispatcher.queue.closed = false := by
      rw [← hopen]
      show c.dispatcher.queue.closed = (c.dispatcher.observe e).queue.closed
      rw [hq, Queue.foldl_add_closed]
    rcases Dispatcher.mem_dirty_or_stone_observe hopen e k with hd | hs' | hs'
    · exact .inl hd
    · rcases h.pending hopen (hs' ▸ hs) with hd | ⟨t, ht, hk⟩ | hf
      · exact .inl (Dispatcher.mem_dirty_observe hopen e hd)
      · refine .inr (.inl ⟨t, ?_, hk⟩)
        show t ∈ (c.dispatcher.observe e).queue.timers
        rw [hq, Queue.foldl_add_timers]
        exact ht
      · refine .inr (.inr ?_)
        show _ ∈ (c.dispatcher.observe e).flight
        rw [Dispatcher.observe_flight]
        exact hf
    · rw [hs'] at hs
      exact nomatch hs
  · intro k ho hb hs
    obtain ⟨ho, hb, hs⟩ := nothing_of_observe hc he hcomplete ho hb hs
    exact h.handled ho hb hs

/-! ### Calls and timers -/

theorem begun (h : c.Buries) (hc : c.Sound) {namespaced : Bool} (hsort : c.OneSort namespaced) :
    (c.next .begun).Buries := by
  rcases c.next_begun with e | ⟨key, rest, hopen, hr, e⟩
  · rw [e]; exact h
  rw [e]
  have hqueue := c.handOut_queue key hopen hr
  have hready : key ∈ c.dispatcher.queue.ready := by simp [hr]
  have hfind := hsort.find?_ready hready
  constructor
  · intro _ k stone hs
    replace hs : c.dispatcher.tombstones.get? k = some stone := hs
    by_cases hk : key = k
    · -- nothing is cached under the key, so its look-up finds the tombstone
      subst hk
      have hnone : c.dispatcher.cache.objects.get? key = none := by
        refine Option.eq_none_iff_forall_ne_some.mpr fun o ho => ?_
        have hs' := hc.mirrors.no_stone_of_cached (k := key) (by rw [ho]; rfl)
        rw [hs'] at hs
        exact nomatch hs
      have ht : c.dispatcher.target key = .deleted stone := by simp [Dispatcher.target, hfind, hnone, hs]
      refine .inr (.inr ?_)
      simp [handOut, ht]
    · unfold Pending
      rw [hqueue]
      rcases h.pending hopen hs with hd | ht | hf
      · exact .inl (List.mem_filter.mpr ⟨hd, by simpa using fun e => hk e.symm⟩)
      · exact .inr (.inl ht)
      · exact .inr (.inr (List.mem_append.mpr (.inl hf)))
  · intro k ho hb hs last hl
    rw [lastCall?_handOut] at hl
    split at hl
    · next hcall =>
      obtain ⟨rfl, hcall⟩ := hcall
      obtain rfl := Option.some.inj hl
      refine Classical.byContradiction fun hd => ?_
      obtain ⟨o, hlive⟩ := Handout.isLive_of_isCall hcall hd
      replace ho : c.dispatcher.cache.objects.get? key = none := ho
      replace hs : c.dispatcher.tombstones.get? key = none := hs
      simp [Handout.target, Dispatcher.target, hfind, ho, hs] at hlive
    · exact h.handled ho hb hs hl

theorem ended (h : c.Buries) (hc : c.Sound) {call : Call κ} (hcall : call ∈ c.dispatcher.flight) (now : Nat)
    (result : Except Failure Unit) : (c.next (.ended call now result)).Buries := by
  have hstones := c.dispatcher.get?_tombstones_finish now call result
  constructor
  · intro hopen k stone hs
    replace hs : (c.dispatcher.finish now call result).tombstones.get? k = some stone := hs
    have hopen : c.dispatcher.queue.closed = false := by
      rw [← hopen]
      show _ = (c.dispatcher.finish now call result).queue.closed
      rw [Dispatcher.finish_queue]
      split <;> rfl
    have hold : c.dispatcher.tombstones.get? k = some stone := by
      rcases hstones k with e | ⟨-, -, -, e⟩
      · exact e ▸ hs
      · rw [e] at hs
        exact nomatch hs
    show k ∈ (c.dispatcher.finish now call result).queue.dirty ∨
      (∃ t ∈ (c.dispatcher.finish now call result).queue.timers, t.key = k) ∨
      ⟨k, .deleted stone⟩ ∈ (c.dispatcher.finish now call result).flight
    rw [Dispatcher.finish_queue, Dispatcher.finish_flight]
    rcases h.pending hopen hold with hd | ⟨t, ht, hk⟩ | hf
    · refine .inl ?_
      split <;> exact hd
    · refine .inr (.inl ⟨t, ?_, hk⟩)
      split
      · exact mem_insertTimer.mpr (.inr ht)
      · exact ht
    · by_cases hk : k = call.key
      · -- the call that ends is the one about the tombstone, so it is tried again
        have e : ⟨k, .deleted stone⟩ = call := hc.flight_unique hf hcall hk
        cases hr : Dispatcher.isRetried result with
        | true => exact .inr (.inl ⟨_, mem_insertTimer.mpr (.inl rfl), hk.symm⟩)
        | false =>
          have htarget : call.target = .deleted stone := by rw [← e]
          have hnone := c.dispatcher.get?_tombstones_finish_self now call result hr htarget (hk ▸ hold)
          rw [← hk, hs] at hnone
          exact nomatch hnone
      · exact .inr (.inr (List.mem_filter.mpr ⟨hf, by simpa using hk⟩))
  · intro k ho hb hs last hl
    replace ho : (c.dispatcher.finish now call result).cache.objects.get? k = none := ho
    replace hb : (c.dispatcher.finish now call result).cache.buffer.get? k = none := hb
    rw [Dispatcher.finish_cache] at ho hb
    rcases hstones k with e | ⟨-, hk, ⟨stone, ht⟩, -⟩
    · exact h.handled ho hb (e ▸ hs) hl
    · -- the tombstone went with the call that handled it
      obtain ⟨last', hl', hcall'⟩ := Option.map_eq_some_iff.mp (hc.last_of_flight call hcall)
      have hd : last'.IsDeletion := ⟨stone, by rw [← ht, ← hcall']; rfl⟩
      have hlast := lastCall?_of_lastHandout? hl' (Handout.isCall_of_isDeletion hd)
      rw [← hk] at hlast
      rw [← Option.some.inj (hlast.symm.trans hl)]
      exact hd

theorem expired (h : c.Buries) (t : Timer ObjectKey) : (c.next (.expired t)).Buries := by
  refine ⟨fun hopen k stone hs => ?_, h.handled⟩
  replace hopen : c.dispatcher.queue.closed = false := by
    rw [← hopen]
    exact (Queue.expire_closed _ t).symm
  show k ∈ (c.dispatcher.queue.expire t).dirty ∨ (∃ u ∈ (c.dispatcher.queue.expire t).timers, u.key = k) ∨ _
  rw [Queue.mem_dirty_expire hopen, Queue.expire_timers]
  rcases h.pending hopen hs with hd | ⟨u, hu, hk⟩ | hf
  · exact .inl (.inr hd)
  · by_cases e : u = t
    · exact .inl (.inl (e ▸ hk.symm))
    · exact .inr (.inl ⟨u, (List.mem_erase_of_ne e).mpr hu, hk⟩)
  · exact .inr (.inr hf)

theorem next (h : c.Buries) (hc : c.Sound) {namespaced : Bool} (hsort : c.OneSort namespaced) {o : Occurrence κ}
    (hp : c.Permits o) (ha : c.Completes o) : (c.next o).Buries := by
  cases o with
  | seen e => exact h.seen hc hp ha
  | begun => exact h.begun hc hsort
  | ended call now result => exact h.ended hc hp now result
  | expired t => exact h.expired t
  | closed => exact ⟨nofun, h.handled⟩

end Buries

theorem Reached.buries {namespaced : Bool} {c : Course κ}
    (h : Reached (fun c o => c.Completes o ∧ o.OfSort namespaced) c) : c.Buries := by
  induction h with
  | start => exact .start
  | next hr hp ha ih => exact ih.next hr.sound (hr.oneSort fun _ _ ha => ha.2) hp ha.1

/-! ### Idle courses -/

/-- Nothing is to come in an idle course, so no tombstone waits for it. -/
theorem Reached.no_tombstone {namespaced : Bool} {c : Course κ}
    (h : Reached (fun c o => c.Completes o ∧ o.OfSort namespaced) c) (hi : c.IsIdle) (k : ObjectKey) :
    c.dispatcher.tombstones.get? k = none := by
  refine Option.eq_none_iff_forall_ne_some.mpr fun stone hs => ?_
  rcases h.buries.pending hi.closed hs with hd | ⟨t, ht, -⟩ | hf
  · rw [h.sound.dirty_eq_nil hi] at hd
    exact nomatch hd
  · rw [hi.timers] at ht
    exact nomatch ht
  · rw [h.sound.flight_eq_nil hi] at hf
    exact nomatch hf

/-- **No deletion is lost.**  In a watch whose objects all have a namespace or all have none, once the course is idle, the
last call for a key that was handled live and is gone was for its deletion, and no tombstone is left. -/
theorem Reached.no_deletion_lost {namespaced : Bool} {c : Course κ}
    (h : Reached (fun c o => c.Completes o ∧ o.OfSort namespaced) c) (hi : c.IsIdle) (k : ObjectKey) :
    ((∃ live ∈ c.handouts, live.key = k ∧ live.IsLive) → c.dispatcher.cache.objects.get? k = none →
      ∃ last, c.lastCall? k = some last ∧ last.IsDeletion) ∧
    c.dispatcher.tombstones.get? k = none := by
  have hstone := h.no_tombstone hi k
  refine ⟨fun ⟨live, hmem, hkey, hlive⟩ hgone => ?_, hstone⟩
  have hsome : (c.lastCall? k).isSome := by
    unfold lastCall?
    rw [List.find?_isSome]
    exact ⟨live, hmem, by simp [hkey, Handout.isCall_of_isLive hlive]⟩
  obtain ⟨last, hl⟩ := Option.isSome_iff_exists.mp hsome
  have hrelist : c.dispatcher.relist = none := by simpa [hi.listing] using h.sound.listing_eq.symm
  exact ⟨last, hl, h.buries.handled hgone (h.sound.mirrors.buffer_none hrelist k) hstone hl⟩

/-! ### A deletion -/

/-- A pod in a namespace. -/
def placedPod : Pod := ⟨{ Metadata.empty with name := some "web", scope := some "prod" }, none, none, []⟩

/-- A pod is listed, handled, deleted, and handled again. -/
def burial : List (Occurrence Pod) :=
  [.seen .init, .seen (.initApply placedPod), .seen .initDone,
    .begun, .ended ⟨⟨some "prod", "web"⟩, .live placedPod⟩ 0 (.ok ()),
    .seen (.delete placedPod),
    .begun, .ended ⟨⟨some "prod", "web"⟩, .deleted ⟨placedPod, 0⟩⟩ 0 (.ok ())]

theorem follows_burial : Follows (fun c o => c.Completes o ∧ o.OfSort true) start burial := by
  refine ⟨trivial, ⟨rfl, trivial⟩, rfl, ⟨trivial, rfl⟩, rfl, ⟨trivial, trivial⟩, rfl, ⟨trivial, trivial⟩, ?_,
    ⟨trivial, trivial⟩, rfl, ⟨trivial, rfl⟩, rfl, ⟨trivial, trivial⟩, ?_, ⟨trivial, trivial⟩, trivial⟩
  all_goals show _ ∈ Dispatcher.flight _; decide

theorem no_deletion_lost_burial :
    (∃ last, (burial.foldl next start).lastCall? ⟨some "prod", "web"⟩ = some last ∧ last.IsDeletion) ∧
    (burial.foldl next start).dispatcher.tombstones.get? ⟨some "prod", "web"⟩ = none := by
  have hi : (burial.foldl next start).IsIdle := by constructor <;> decide
  have h := Reached.no_deletion_lost (Reached.start.follow follows_burial) hi ⟨some "prod", "web"⟩
  refine ⟨h.1 ?_ (by decide), h.2⟩
  exact ⟨_, .tail _ (.head _), rfl, placedPod, by decide⟩

end Course

end FleetAtlas
