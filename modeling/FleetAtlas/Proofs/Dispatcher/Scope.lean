import FleetAtlas.Proofs.Dictionary
import FleetAtlas.Proofs.Dispatcher.Course

/-!
# Watches of one kind of objects

The objects of a kind all have a namespace, or all of them are outside of the namespaces. A watch of one kind shows
objects of one sort only; then the look-up of a key cannot find an object of another key in its place.

* `Queue.All p q`: every key that is ready, that somebody has or that a timer will add is of a sort;
* `ObjectKey.OfSort`, `Occurrence.OfSort`: a key with or without a namespace, and an occurrence that shows no others;
* `Course.OneSort`: what is cached, and every key that waits, is of one sort; `Reached.oneSort`: **so it is in all courses
  of a watch of one kind**;
* `Cache.find?_eq_get?`, `Course.OneSort.find?_ready`: there the look-up of a key finds its own object or none.
-/

namespace FleetAtlas

/-! ### Keys of a queue -/

namespace Queue

variable {κ : Type}

/-- Every key that is ready, that somebody has or that a timer will add is of a sort. -/
structure All (p : κ → Prop) (q : Queue κ) : Prop where
  ready : ∀ k ∈ q.ready, p k
  processing : ∀ k ∈ q.processing, p k
  timers : ∀ t ∈ q.timers, p t.key

namespace All

variable {p : κ → Prop} {q : Queue κ}

theorem empty : (Queue.empty : Queue κ).All p := ⟨nofun, nofun, nofun⟩

theorem close (h : q.All p) : q.close.All p := ⟨h.ready, h.processing, h.timers⟩

variable [DecidableEq κ]

theorem add (h : q.All p) {key : κ} (hk : p key) : (q.add key).All p := by
  refine ⟨fun k hr => ?_, by rw [add_processing]; exact h.processing, by rw [add_timers]; exact h.timers⟩
  cases hc : q.closed with
  | true =>
    rw [add_of_closed hc] at hr
    exact h.ready k hr
  | false =>
    rcases (mem_ready_add hc key k).mp hr with hr | ⟨rfl, -, -⟩
    · exact h.ready k hr
    · exact hk

theorem foldl_add (h : q.All p) {keys : List κ} (hkeys : ∀ k ∈ keys, p k) : (keys.foldl Queue.add q).All p := by
  induction keys generalizing q with
  | nil => exact h
  | cons key keys ih => exact ih (h.add (hkeys key List.mem_cons_self)) fun k hk => hkeys k (.tail _ hk)

theorem take (h : q.All p) : q.take.2.All p := by
  rcases take_cases q with ⟨e, -⟩ | ⟨key, rest, -, hr, e⟩
  · rw [e]; exact h
  · rw [e]
    refine ⟨fun k hk => h.ready k (hr ▸ .tail _ hk), fun k hk => ?_, h.timers⟩
    rcases List.mem_insert_iff.mp hk with rfl | hk
    · exact h.ready k (hr ▸ List.mem_cons_self)
    · exact h.processing k hk

theorem release (h : q.All p) {key : κ} (hk : p key) : (q.release key).All p := by
  refine ⟨fun k hr => ?_, fun k hp => h.processing k (mem_processing_release.mp hp).1, h.timers⟩
  unfold Queue.release at hr
  dsimp only at hr
  split at hr
  · rcases List.mem_append.mp hr with hr | hr
    · exact h.ready k hr
    · rw [List.mem_singleton.mp hr]
      exact hk
  · exact h.ready k hr

theorem retry (h : q.All p) (now : Nat) {key : κ} (hk : p key) : (q.retry now key).All p := by
  refine ⟨h.ready, h.processing, fun t ht => ?_⟩
  rcases mem_insertTimer.mp ht with rfl | ht
  · exact hk
  · exact h.timers t ht

theorem forget (h : q.All p) (key : κ) : (q.forget key).All p := ⟨h.ready, h.processing, h.timers⟩

theorem expire (h : q.All p) {t : Timer κ} (ht : t ∈ q.timers) : (q.expire t).All p :=
  add (q := { q with timers := q.timers.erase t })
    ⟨h.ready, h.processing, fun u hu => h.timers u (List.mem_of_mem_erase hu)⟩ (h.timers t ht)

end All

end Queue

/-! ### Keys with and without namespaces -/

/-- The key of an object in a namespace, or of one that is in none. -/
def ObjectKey.OfSort (namespaced : Bool) (k : ObjectKey) : Prop := k.scope.isSome = namespaced

/-- **Where all objects are of one sort**, the look-up of a key of this sort finds its own object or none. -/
theorem Cache.find?_eq_get? {κ : Type} {c : Cache κ} {namespaced : Bool}
    (hc : ∀ k, (c.objects.get? k).isSome → k.OfSort namespaced) {key : ObjectKey} (hk : key.OfSort namespaced) :
    c.find? key = c.objects.get? key := by
  unfold find?
  cases namespaced with
  | false =>
    have hsame : { key with scope := none } = key := by
      rw [← Option.isNone_iff_eq_none.mp (Option.isSome_eq_false_iff.mp hk)]
    rw [hsame]
    cases c.objects.get? key <;> rfl
  | true =>
    have hnone : c.objects.get? { key with scope := none } = none := by
      cases ho : c.objects.get? { key with scope := none } with
      | none => rfl
      | some o => exact nomatch hc _ (Option.isSome_of_eq_some ho)
    rw [hnone]
    cases c.objects.get? key <;> rfl

variable {κ : Type} [ClusterObject κ]

/-- The objects of the watch all have a namespace, or none of them has one. -/
def Occurrence.OfSort (namespaced : Bool) : Occurrence κ → Prop
  | .seen (.initApply o) | .seen (.apply o) | .seen (.delete o) => (ObjectKey.of o).OfSort namespaced
  | .seen .init | .seen .initDone | .begun | .ended .. | .expired _ | .closed => True

namespace Course

/-- **What holds of a watch of one kind all the time**: whatever is cached or buffered, and every key that waits, is of one
sort. -/
structure OneSort (namespaced : Bool) (c : Course κ) : Prop where
  queue : c.dispatcher.queue.All (ObjectKey.OfSort namespaced)
  cached : ∀ k, (c.dispatcher.cache.objects.get? k).isSome → k.OfSort namespaced
  shown : ∀ k, (c.dispatcher.cache.buffer.get? k).isSome → k.OfSort namespaced

namespace OneSort

variable {namespaced : Bool} {c : Course κ}

omit [ClusterObject κ] in
theorem start : (start : Course κ).OneSort namespaced := ⟨.empty, nofun, nofun⟩

omit [ClusterObject κ] in
theorem ofSort_insert {d : Dict ObjectKey κ} (h : ∀ k, (d.get? k).isSome → k.OfSort namespaced) {key : ObjectKey}
    (hkey : key.OfSort namespaced) (o : κ) : ∀ k, ((d.insert key o).get? k).isSome → k.OfSort namespaced := by
  intro k hk
  rw [Dict.get?_insert] at hk
  split at hk
  · next e => exact e ▸ hkey
  · exact h k hk

theorem queue_applied (h : c.OneSort namespaced) (e : WatchEvent κ) {o : κ} (ho : (ObjectKey.of o).OfSort namespaced) :
    ({ c.dispatcher with cache := c.dispatcher.cache.observe e }.applied o).queue.All (ObjectKey.OfSort namespaced) := by
  rw [Dispatcher.applied_queue]
  split
  · exact h.queue
  · exact h.queue.add ho

theorem seen (h : c.OneSort namespaced) (hc : c.Sound) {e : WatchEvent κ} (he : Watching c.listing e)
    (hof : (Occurrence.seen e).OfSort namespaced) : (c.next (.seen e)).OneSort namespaced := by
  suffices H : (c.dispatcher.observe e).queue.All (ObjectKey.OfSort namespaced) ∧
      (∀ k, ((c.dispatcher.cache.observe e).objects.get? k).isSome → k.OfSort namespaced) ∧
      ∀ k, ((c.dispatcher.cache.observe e).buffer.get? k).isSome → k.OfSort namespaced by
    obtain ⟨hqueue, hcached, hshown⟩ := H
    rw [← Dispatcher.observe_cache] at hcached hshown
    exact ⟨hqueue, hcached, hshown⟩
  cases e with
  | init => exact ⟨h.queue, h.cached, nofun⟩
  | initApply o => exact ⟨h.queue_applied _ hof, h.cached, ofSort_insert h.shown hof o⟩
  | apply o => exact ⟨h.queue_applied _ hof, ofSort_insert h.cached hof o, h.shown⟩
  | delete o =>
    refine ⟨h.queue.add hof, fun k hk => ?_, h.shown⟩
    by_cases hkey : k = .of o
    · exact hkey ▸ hof
    · refine h.cached k ?_
      rwa [← Dict.get?_erase_of_ne _ hkey]
  | initDone =>
    have hrelist : c.dispatcher.relist.isSome := hc.listing_eq.symm.trans he
    obtain ⟨r, hr⟩ := Option.isSome_iff_exists.mp hrelist
    refine ⟨?_, h.shown, nofun⟩
    have e : c.dispatcher.observe .initDone = _ :=
      Dispatcher.notify_initDone (d := { c.dispatcher with cache := c.dispatcher.cache.observe .initDone }) hr
    rw [e, Dispatcher.bereaveAll_queue]
    -- what has vanished was cached when the listing began
    refine h.queue.foldl_add fun k hk => ?_
    obtain ⟨⟨o, ho, hkey⟩, -⟩ := Dispatcher.mem_vanished_iff.mp hk
    rw [hc.mirrors.relist_before hr] at ho
    obtain ⟨k', hcached⟩ := Dict.mem_values_iff.mp ho
    rw [← hkey, hc.mirrors.cached_key hcached]
    exact h.cached k' (Option.isSome_of_eq_some hcached)

theorem begun (h : c.OneSort namespaced) : (c.next .begun).OneSort namespaced := by
  rcases c.next_begun with e | ⟨key, rest, -, -, e⟩
  · rw [e]; exact h
  · rw [e]
    exact ⟨h.queue.take, h.cached, h.shown⟩

theorem ended (h : c.OneSort namespaced) (hc : c.Sound) {call : Call κ} (hcall : call ∈ c.dispatcher.flight) (now : Nat)
    (result : Except Failure Unit) : (c.next (.ended call now result)).OneSort namespaced := by
  have hkey : call.key.OfSort namespaced := h.queue.processing _ (hc.held_of_flight call hcall)
  have hqueue : (c.dispatcher.finish now call result).queue.All (ObjectKey.OfSort namespaced) := by
    rw [Dispatcher.finish_queue]
    split
    · exact (h.queue.retry now hkey).release hkey
    · exact (h.queue.forget call.key).release hkey
  have hcache := c.dispatcher.finish_cache now call result
  exact ⟨hqueue, hcache ▸ h.cached, hcache ▸ h.shown⟩

theorem next (h : c.OneSort namespaced) (hc : c.Sound) {o : Occurrence κ} (hp : c.Permits o) (hof : o.OfSort namespaced) :
    (c.next o).OneSort namespaced := by
  cases o with
  | seen e => exact h.seen hc hp hof
  | begun => exact h.begun
  | ended call now result => exact h.ended hc hp now result
  | expired t => exact ⟨h.queue.expire hp, h.cached, h.shown⟩
  | closed => exact ⟨h.queue.close, h.cached, h.shown⟩

omit [ClusterObject κ] in
/-- **A key whose turn it is** is looked up as its own object or as none. -/
theorem find?_ready (h : c.OneSort namespaced) {key : ObjectKey} (hk : key ∈ c.dispatcher.queue.ready) :
    c.dispatcher.cache.find? key = c.dispatcher.cache.objects.get? key :=
  Cache.find?_eq_get? h.cached (h.queue.ready key hk)

end OneSort

/-- **All courses of a watch of one kind** have one sort of keys. -/
theorem Reached.oneSort {admits : Course κ → Occurrence κ → Prop} {namespaced : Bool}
    (hof : ∀ c o, admits c o → o.OfSort namespaced) {c : Course κ} (h : Reached admits c) : c.OneSort namespaced := by
  induction h with
  | start => exact .start
  | next hr hp ha ih => exact ih.next hr.sound hp (hof _ _ ha)

end Course

end FleetAtlas
