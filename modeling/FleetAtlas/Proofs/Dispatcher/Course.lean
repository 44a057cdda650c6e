import FleetAtlas.Proofs.Dispatcher.Mirror

/-!
# Courses of a dispatcher

* `Occurrence κ`: an event of the watch, the begin and the end of a call, a timer that expires, the end of the handing out;
* `Course κ`: a dispatcher together with the keys that it has handed out, each with the dispatcher at that moment;
* `Course.Permits`: what may come next; `Course.Reached`: the courses that come about, in any order of occurrences;
* `Course.Sound`: what holds of all of them (`Reached.sound`).
-/

namespace FleetAtlas

/-- What happens to a dispatcher. -/
inductive Occurrence (κ : Type) where
  | seen (event : WatchEvent κ)
  | begun
  | ended (call : Call κ) (now : Nat) (result : Except Failure Unit)
  | expired (timer : Timer ObjectKey)
  | closed

/-! ### Keys that were handed out -/

/-- A key that was handed out, and the dispatcher at that moment. -/
structure Handout (κ : Type) where
  key : ObjectKey
  before : Dispatcher κ

namespace Handout

variable {κ : Type}

/-- What the look-up of the key found. -/
def target (h : Handout κ) : Target κ := h.before.target h.key

def call (h : Handout κ) : Call κ := ⟨h.key, h.target⟩

/-- Whether a handler was called: not if there was nothing to handle. -/
def isCall (h : Handout κ) : Bool :=
  match h.target with
  | .live _ | .deleted _ => true
  | .gone => false

/-- The handler was called for an object that is there. -/
def IsLive (h : Handout κ) : Prop := ∃ o, h.target = .live o

/-- The handler was called for an object that is gone. -/
def IsDeletion (h : Handout κ) : Prop := ∃ stone, h.target = .deleted stone

theorem isCall_of_isLive {h : Handout κ} (hl : h.IsLive) : h.isCall = true := by
  obtain ⟨o, ho⟩ := hl
  simp [isCall, ho]

theorem isCall_of_isDeletion {h : Handout κ} (hd : h.IsDeletion) : h.isCall = true := by
  obtain ⟨stone, hs⟩ := hd
  simp [isCall, hs]

theorem isLive_of_isCall {h : Handout κ} (hc : h.isCall = true) (hd : ¬ h.IsDeletion) : h.IsLive := by
  unfold isCall at hc
  split at hc
  · next o ho => exact ⟨o, ho⟩
  · next stone hs => exact absurd ⟨stone, hs⟩ hd
  · exact nomatch hc

end Handout

/-! ### Courses -/

/-- A dispatcher, whether its watch is listing, and the keys handed out, the latest first. -/
structure Course (κ : Type) where
  dispatcher : Dispatcher κ
  listing : Bool
  handouts : List (Handout κ)

namespace Course

variable {κ : Type}

def start : Course κ := ⟨.empty, false, []⟩

/-- The last time that a key was handed out. -/
def lastHandout? (c : Course κ) (k : ObjectKey) : Option (Handout κ) := c.handouts.find? fun h => h.key = k

/-- The last time that a key was handed out and a handler called. -/
def lastCall? (c : Course κ) (k : ObjectKey) : Option (Handout κ) :=
  c.handouts.find? fun h => h.key = k && h.isCall

/-- The last hand-out is the last call, unless it found nothing. -/
theorem lastCall?_of_lastHandout? {c : Course κ} {k : ObjectKey} {h : Handout κ} (hl : c.lastHandout? k = some h)
    (hc : h.isCall = true) : c.lastCall? k = some h := by
  obtain ⟨hk, later, earlier, e, hlater⟩ := List.find?_eq_some_iff_append.mp hl
  refine List.find?_eq_some_iff_append.mpr ⟨by simp_all, later, earlier, e, fun h' hh' => ?_⟩
  have hne := hlater h' hh'
  simp_all

/-- Nothing is under way: no listing, no key that waits for its turn or for a timer, and no call. -/
structure IsIdle (c : Course κ) : Prop where
  listing : c.listing = false
  closed : c.dispatcher.queue.closed = false
  ready : c.dispatcher.queue.ready = []
  processing : c.dispatcher.queue.processing = []
  timers : c.dispatcher.queue.timers = []

/-- What may come next: the watch keeps to its order, and nothing is handed out before the first listing is complete. -/
def Permits (c : Course κ) : Occurrence κ → Prop
  | .seen e => Watching c.listing e
  | .begun => c.dispatcher.cache.ready = true
  | .ended call _ _ => call ∈ c.dispatcher.flight
  | .expired t => t ∈ c.dispatcher.queue.timers
  | .closed => True

variable [ClusterObject κ]

def next (c : Course κ) : Occurrence κ → Course κ
  | .seen e => { c with dispatcher := c.dispatcher.observe e, listing := listingAfter c.listing e }
  | .begun =>
    match c.dispatcher.begin? with
    | some (call, d) => { c with dispatcher := d, handouts := ⟨call.key, c.dispatcher⟩ :: c.handouts }
    | none => c
  | .ended call now result => { c with dispatcher := c.dispatcher.finish now call result }
  | .expired t => { c with dispatcher := { c.dispatcher with queue := c.dispatcher.queue.expire t } }
  | .closed => { c with dispatcher := c.dispatcher.close }

/-- **The courses that come about**, all that happens being admitted besides permitted. -/
inductive Reached (admits : Course κ → Occurrence κ → Prop) : Course κ → Prop
  | start : Reached admits start
  | next {c : Course κ} {o : Occurrence κ} :
    Reached admits c → c.Permits o → admits c o → Reached admits (c.next o)

/-- The occurrences may come one after the other. -/
def Follows (admits : Course κ → Occurrence κ → Prop) : Course κ → List (Occurrence κ) → Prop
  | _, [] => True
  | c, o :: os => c.Permits o ∧ admits c o ∧ Follows admits (c.next o) os

theorem Reached.follow {admits : Course κ → Occurrence κ → Prop} {c : Course κ} (h : Reached admits c)
    {os : List (Occurrence κ)} (ho : Follows admits c os) : Reached admits (os.foldl Course.next c) := by
  induction os generalizing c with
  | nil => exact h
  | cons o os ih => exact ih (h.next ho.1 ho.2.1) ho.2.2

/-! ### Handing out a key -/

omit [ClusterObject κ] in
/-- The course after a key was handed out. -/
def handOut (c : Course κ) (k : ObjectKey) : Course κ :=
  { c with
    dispatcher := { c.dispatcher with
      queue := c.dispatcher.queue.take.2
      flight := c.dispatcher.flight ++ [⟨k, c.dispatcher.target k⟩] }
    handouts := ⟨k, c.dispatcher⟩ :: c.handouts }

/-- **The key that is handed out** has been ready for longest. -/
theorem next_begun (c : Course κ) :
    c.next .begun = c ∨ ∃ k rest, c.dispatcher.queue.closed = false ∧ c.dispatcher.queue.ready = k :: rest ∧
      c.next .begun = c.handOut k := by
  unfold next
  cases hb : c.dispatcher.begin? with
  | none => exact .inl rfl
  | some p =>
    obtain ⟨call, d⟩ := p
    obtain ⟨hc, ⟨rest, hr⟩, ht, hd⟩ := Dispatcher.begin?_cases hb
    refine .inr ⟨call.key, rest, hc, hr, ?_⟩
    rw [hd, handOut, ← ht]

section HandOut

omit [ClusterObject κ]

variable (c : Course κ) (k k' : ObjectKey)

theorem lastHandout?_handOut :
    (c.handOut k).lastHandout? k' = if k = k' then some ⟨k, c.dispatcher⟩ else c.lastHandout? k' := by
  unfold lastHandout? handOut
  by_cases hk : k = k' <;> simp [hk]

theorem lastCall?_handOut :
    (c.handOut k).lastCall? k' =
      if k = k' ∧ (⟨k, c.dispatcher⟩ : Handout κ).isCall then some ⟨k, c.dispatcher⟩ else c.lastCall? k' := by
  unfold lastCall? handOut
  by_cases hk : k = k' <;> cases hc : (⟨k, c.dispatcher⟩ : Handout κ).isCall <;> simp_all

theorem handOut_queue {rest : List ObjectKey} (hc : c.dispatcher.queue.closed = false)
    (hr : c.dispatcher.queue.ready = k :: rest) :
    (c.handOut k).dispatcher.queue = { c.dispatcher.queue with
      ready := rest
      dirty := c.dispatcher.queue.dirty.filter (· ≠ k)
      processing := c.dispatcher.queue.processing.insert k } := by
  simp [handOut, Queue.take, hc, hr]

end HandOut

/-! ### The invariant -/

omit [ClusterObject κ] in
/-- The version that was noted when a key was last handed out. -/
def notedLast? (c : Course κ) (k : ObjectKey) : Option (Option String) :=
  (c.lastHandout? k).bind fun h => h.before.versions.get? k

/-- **What holds of a course all the time.** -/
structure Sound (c : Course κ) : Prop where
  queue : c.dispatcher.queue.Sound
  mirrors : c.dispatcher.Mirrors
  listing_eq : c.listing = c.dispatcher.relist.isSome
  /-- The key of a call in flight has not been given back. -/
  held_of_flight : ∀ call ∈ c.dispatcher.flight, call.key ∈ c.dispatcher.queue.processing
  /-- A call in flight is about the last handing out of its key. -/
  last_of_flight : ∀ call ∈ c.dispatcher.flight, (c.lastHandout? call.key).map Handout.call = some call
  /-- While the queue is open, a key waits unless its version is the one noted when it was last handed out. -/
  waits_or_noted : c.dispatcher.queue.closed = false →
    ∀ k, k ∈ c.dispatcher.queue.dirty ∨ c.dispatcher.versions.get? k = c.notedLast? k

namespace Sound

variable {c : Course κ}

theorem start : (start : Course κ).Sound where
  queue := .empty
  mirrors := .empty
  listing_eq := rfl
  held_of_flight := nofun
  last_of_flight := nofun
  waits_or_noted _ _ := .inr rfl

theorem seen (h : c.Sound) {e : WatchEvent κ} (he : Watching c.listing e) : (c.next (.seen e)).Sound := by
  obtain ⟨keys, hq⟩ := c.dispatcher.observe_queue_eq_foldl e
  rw [h.listing_eq] at he
  refine ⟨?_, h.mirrors.observe he, ?_, ?_, ?_, ?_⟩
  · show (c.dispatcher.observe e).queue.Sound
    rw [hq]
    exact h.queue.foldl_add keys
  · show listingAfter c.listing e = _
    rw [h.listing_eq, ← Dispatcher.relist_observe he]
    rfl
  · show ∀ call ∈ (c.dispatcher.observe e).flight, call.key ∈ (c.dispatcher.observe e).queue.processing
    rw [hq, Queue.foldl_add_processing, Dispatcher.observe_flight]
    exact h.held_of_flight
  · show ∀ call ∈ (c.dispatcher.observe e).flight, _
    rw [Dispatcher.observe_flight]
    exact h.last_of_flight
  · show (c.dispatcher.observe e).queue.closed = false → _
    rw [hq, Queue.foldl_add_closed]
    intro hc k
    rcases h.waits_or_noted hc k with hk | hk
    · exact .inl (Dispatcher.mem_dirty_observe hc e hk)
    · exact (Dispatcher.mem_dirty_or_noted_observe hc e k).imp_right (·.trans hk)

theorem begun (h : c.Sound) : (c.next .begun).Sound := by
  rcases c.next_begun with e | ⟨k, rest, hc, hr, e⟩
  · rw [e]; exact h
  have hfree : k ∉ c.dispatcher.queue.processing := h.queue.free_of_ready k (by simp [hr])
  have hqueue := c.handOut_queue k hc hr
  rw [e]
  refine ⟨h.queue.take, h.mirrors.of_eq rfl rfl rfl fun _ => .inl rfl, h.listing_eq, ?_, ?_, ?_⟩
  · intro call hcall
    rw [hqueue]
    rcases List.mem_append.mp hcall with hcall | hcall
    · exact List.mem_insert_iff.mpr (.inr (h.held_of_flight call hcall))
    · rw [List.mem_singleton.mp hcall]
      exact List.mem_insert_iff.mpr (.inl rfl)
  · intro call hcall
    rw [lastHandout?_handOut]
    rcases List.mem_append.mp hcall with hcall | hcall
    · -- nobody had the key, so the other calls in flight are about other keys
      rw [if_neg fun e : k = call.key => hfree (e ▸ h.held_of_flight call hcall)]
      exact h.last_of_flight call hcall
    · rw [List.mem_singleton.mp hcall, if_pos rfl]
      rfl
  · intro _ k'
    unfold notedLast?
    rw [hqueue, lastHandout?_handOut]
    by_cases hk : k = k'
    · rw [if_pos hk, hk]
      exact .inr rfl
    · rw [if_neg hk]
      exact (h.waits_or_noted hc k').imp_left fun hd => List.mem_filter.mpr ⟨hd, by simpa using fun e => hk e.symm⟩

theorem ended (h : c.Sound) {call : Call κ} (hcall : call ∈ c.dispatcher.flight) (now : Nat)
    (result : Except Failure Unit) : (c.next (.ended call now result)).Sound := by
  have hheld := h.held_of_flight call hcall
  have hqueue : ∃ q : Queue ObjectKey, q.ready = c.dispatcher.queue.ready ∧ q.dirty = c.dispatcher.queue.dirty ∧
      q.processing = c.dispatcher.queue.processing ∧ q.closed = c.dispatcher.queue.closed ∧
      (c.dispatcher.finish now call result).queue = q.release call.key := by
    rw [Dispatcher.finish_queue]
    split
    · exact ⟨c.dispatcher.queue.retry now call.key, rfl, rfl, rfl, rfl, rfl⟩
    · exact ⟨c.dispatcher.queue.forget call.key, rfl, rfl, rfl, rfl, rfl⟩
  obtain ⟨q, hr, hd, hp, hc, hq⟩ := hqueue
  refine ⟨?_, ?_, ?_, ?_, ?_, ?_⟩
  · show (c.dispatcher.finish now call result).queue.Sound
    rw [hq]
    exact (h.queue.of_eq hr hd hp (fun h => hc ▸ h)).release (hp ▸ hheld)
  · exact h.mirrors.of_eq (Dispatcher.finish_cache ..) (Dispatcher.finish_versions ..) (Dispatcher.finish_relist ..)
      fun k => (c.dispatcher.get?_tombstones_finish now call result k).imp_right (·.2.2.2)
  · show c.listing = (c.dispatcher.finish now call result).relist.isSome
    rw [Dispatcher.finish_relist]
    exact h.listing_eq
  · show ∀ call' ∈ (c.dispatcher.finish now call result).flight,
      call'.key ∈ (c.dispatcher.finish now call result).queue.processing
    rw [Dispatcher.finish_flight, hq]
    intro call' h'
    obtain ⟨h', hne⟩ := List.mem_filter.mp h'
    exact List.mem_filter.mpr ⟨hp ▸ h.held_of_flight call' h', hne⟩
  · show ∀ call' ∈ (c.dispatcher.finish now call result).flight, _
    rw [Dispatcher.finish_flight]
    exact fun call' h' => h.last_of_flight call' (List.mem_filter.mp h').1
  · show (c.dispatcher.finish now call result).queue.closed = false → ∀ k,
      k ∈ (c.dispatcher.finish now call result).queue.dirty ∨
        (c.dispatcher.finish now call result).versions.get? k = c.notedLast? k
    rw [hq, Dispatcher.finish_versions]
    intro hc' k
    rcases h.waits_or_noted (hc ▸ hc') k with hk | hk
    · exact .inl (hd ▸ hk)
    · exact .inr hk

theorem expired (h : c.Sound) (t : Timer ObjectKey) : (c.next (.expired t)).Sound := by
  refine ⟨h.queue.expire t, h.mirrors.of_eq rfl rfl rfl fun _ => .inl rfl, h.listing_eq, ?_, h.last_of_flight, ?_⟩
  · show ∀ call ∈ c.dispatcher.flight, call.key ∈ (c.dispatcher.queue.expire t).processing
    rw [Queue.expire_processing]
    exact h.held_of_flight
  · show (c.dispatcher.queue.expire t).closed = false → ∀ k, k ∈ (c.dispatcher.queue.expire t).dirty ∨ _
    rw [Queue.expire_closed]
    intro hc k
    exact (h.waits_or_noted hc k).imp_left fun hd => (Queue.mem_dirty_expire hc t k).mpr (.inr hd)

theorem closed (h : c.Sound) : (c.next .closed).Sound :=
  ⟨h.queue.close, h.mirrors.of_eq rfl rfl rfl fun _ => .inl rfl, h.listing_eq, h.held_of_flight, h.last_of_flight, nofun⟩

theorem next (h : c.Sound) {o : Occurrence κ} (hp : c.Permits o) : (c.next o).Sound := by
  cases o with
  | seen e => exact h.seen hp
  | begun => exact h.begun
  | ended call now result => exact h.ended hp now result
  | expired t => exact h.expired t
  | closed => exact h.closed

end Sound

/-- **Every course that comes about is sound.** -/
theorem Reached.sound {admits : Course κ → Occurrence κ → Prop} {c : Course κ} (h : Reached admits c) : c.Sound := by
  induction h with
  | start => exact .start
  | next _ hp _ ih => exact ih.next hp

/-! ### Idle courses -/

/-- Two calls in flight for one key are the same. -/
theorem Sound.flight_unique {c : Course κ} (h : c.Sound) {a b : Call κ} (ha : a ∈ c.dispatcher.flight)
    (hb : b ∈ c.dispatcher.flight) (hk : a.key = b.key) : a = b := by
  have h1 := h.last_of_flight a ha
  rw [hk, h.last_of_flight b hb] at h1
  exact (Option.some.inj h1).symm

/-- Nothing waits in an idle course, not even behind a call. -/
theorem Sound.dirty_eq_nil {c : Course κ} (h : c.Sound) (hi : c.IsIdle) : c.dispatcher.queue.dirty = [] := by
  refine List.eq_nil_iff_forall_not_mem.mpr fun k hk => ?_
  have hr := h.queue.ready_of_dirty hi.closed k hk (by simp [hi.processing])
  simp [hi.ready] at hr

theorem Sound.flight_eq_nil {c : Course κ} (h : c.Sound) (hi : c.IsIdle) : c.dispatcher.flight = [] := by
  refine List.eq_nil_iff_forall_not_mem.mpr fun call hcall => ?_
  have hp := h.held_of_flight call hcall
  simp [hi.processing] at hp

end Course

end FleetAtlas
