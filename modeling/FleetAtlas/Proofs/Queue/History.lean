import FleetAtlas.Proofs.Queue.Sound

/-!
# Histories of a work queue

* `Queue.Operation`, `Queue.after`: what is done to a queue, and what comes of it;
* `History κ`: a queue, and in order the marks that its keys have left since it was empty;
* `History.Holds`, `History.Awaits`: a key was handed out and not given back since, a key was added and not handed out
  since;
* `History.Reached`: what comes about as long as only a key that was handed out is given back;
* `History.Sound`: the collections of the queue are what the marks say (`Reached.sound`);
* `Reached.collections_agree`: **the ready keys, those that wait and those that are in use agree with each other** and with
  what has happened.
-/

namespace FleetAtlas

/-! ### What has happened last -/

/-- The one is in the list, and the other not after it. -/
def Since {α : Type} (a b : α) (l : List α) : Prop := ∃ before after, l = before ++ a :: after ∧ b ∉ after

theorem not_since_nil {α : Type} (a b : α) : ¬ Since a b [] := by
  rintro ⟨before, after, h, -⟩
  simp at h

theorem since_cons {α : Type} {a b c : α} {l : List α} : Since a b (c :: l) ↔ Since a b l ∨ (c = a ∧ b ∉ l) := by
  constructor
  · rintro ⟨before, after, h, hb⟩
    cases before with
    | nil =>
      obtain ⟨rfl, rfl⟩ := List.cons.inj h
      exact .inr ⟨rfl, hb⟩
    | cons d before => exact .inl ⟨before, after, (List.cons.inj h).2, hb⟩
  · rintro (⟨before, after, rfl, hb⟩ | ⟨rfl, hb⟩)
    · exact ⟨c :: before, after, rfl, hb⟩
    · exact ⟨[], l, rfl, hb⟩

instance Since.decidable {α : Type} [DecidableEq α] (a b : α) : (l : List α) → Decidable (Since a b l)
  | [] => isFalse (not_since_nil a b)
  | _ :: l =>
    have := Since.decidable a b l
    decidable_of_iff _ since_cons.symm

theorem since_append {α : Type} {a b : α} {l m : List α} :
    Since a b (l ++ m) ↔ Since a b m ∨ (Since a b l ∧ b ∉ m) := by
  induction l with
  | nil => simp [not_since_nil]
  | cons c l ih =>
    rw [List.cons_append, since_cons, since_cons, ih, List.mem_append, not_or]
    grind

theorem since_singleton {α : Type} {a b c : α} : Since a b [c] ↔ c = a := by simp [since_cons, not_since_nil]

theorem since_append_of_notMem {α : Type} {a b : α} {l m : List α} (ha : a ∉ m) (hb : b ∉ m) :
    Since a b (l ++ m) ↔ Since a b l := by
  have hm : ¬ Since a b m := by
    rintro ⟨before, after, rfl, -⟩
    simp at ha
  rw [since_append]
  simp [hm, hb]

/-! ### Operations -/

namespace Queue

/-- What is done to a work queue. -/
inductive Operation (κ : Type) where
  | add (key : κ)
  | take
  | release (key : κ)
  | retry (now : Nat) (key : κ)
  | expire (timer : Timer κ)
  | forget (key : κ)
  | close

/-- What happens to the keys of a work queue: one is added, by hand or by a timer, becomes ready, is handed out, is given
back; and the end of all that. -/
inductive Mark (κ : Type) where
  | added (key : κ)
  | readied (key : κ)
  | handed (key : κ)
  | returned (key : κ)
  | closed
deriving DecidableEq

namespace Mark

variable {κ : Type}

def readied? : Mark κ → Option κ
  | readied key => some key
  | _ => none

def handed? : Mark κ → Option κ
  | handed key => some key
  | _ => none

/-! What becomes of the marks when one is left and keys become ready with it. -/

variable {a b m : Mark κ} (l : List (Mark κ)) (keys : List κ)

theorem notMem_readied (h : a.readied? = none) : a ∉ keys.map readied := by
  intro hm
  obtain ⟨k, -, rfl⟩ := List.mem_map.mp hm
  exact nomatch h

theorem mem_append_cons (ha : a.readied? = none) : a ∈ l ++ m :: keys.map readied ↔ a ∈ l ∨ a = m := by
  rw [List.mem_append, List.mem_cons, or_iff_left (notMem_readied keys ha)]

theorem since_append_cons (ha : a.readied? = none) (hb : b.readied? = none) :
    Since a b (l ++ m :: keys.map readied) ↔ m = a ∨ (Since a b l ∧ b ≠ m) := by
  have hskip : Since a b ((l ++ [m]) ++ keys.map readied) ↔ Since a b (l ++ [m]) :=
    since_append_of_notMem (notMem_readied keys ha) (notMem_readied keys hb)
  rw [List.append_cons, hskip, since_append, since_singleton, List.mem_singleton]

theorem filterMap_append_cons (p : Mark κ → Option κ) (hm : p m = none) :
    (l ++ m :: keys.map readied).filterMap p = l.filterMap p ++ keys.filterMap fun k => p (readied k) := by
  rw [List.filterMap_append, List.filterMap_cons_none hm, List.filterMap_map]
  rfl

/-- Keys that become ready are handed out after those that were. -/
theorem in_order_append_cons (hr : m.readied? = none) (hh : m.handed? = none) {ready : List κ}
    (h : l.filterMap readied? = l.filterMap handed? ++ ready) :
    (l ++ m :: keys.map readied).filterMap readied? =
      (l ++ m :: keys.map readied).filterMap handed? ++ (ready ++ keys) := by
  have hkeys : keys.filterMap (fun k => (readied k).readied?) = keys := List.filterMap_some
  have hnone : keys.filterMap (fun k => (readied k).handed?) = [] := by simp [handed?]
  rw [filterMap_append_cons l keys _ hr, filterMap_append_cons l keys _ hh, hkeys, hnone, h, List.append_nil,
    List.append_assoc]

end Mark

variable {κ : Type} [DecidableEq κ]

/-- What comes of an operation. -/
def after (q : Queue κ) : Operation κ → Queue κ
  | .add key => q.add key
  | .take => q.take.2
  | .release key => q.release key
  | .retry now key => q.retry now key
  | .expire t => q.expire t
  | .forget key => q.forget key
  | .close => q.close

/-- The keys that a change of the queue has put behind those that were ready. -/
def newlyReady (q q' : Queue κ) : List κ := q'.ready.drop q.ready.length

/-- The marks of an operation, in order. -/
def marks (q : Queue κ) (o : Operation κ) : List (Mark κ) :=
  (match o with
    | .add key => [.added key]
    | .expire t => [.added t.key]
    | .take =>
      match q.take.1 with
      | .key key => [.handed key]
      | .empty | .closed => []
    | .release key => [.returned key]
    | .close => [.closed]
    | .retry .. | .forget _ => []) ++ (newlyReady q (q.after o)).map .readied

omit [DecidableEq κ] in
theorem newlyReady_of_append {q q' : Queue κ} {keys : List κ} (h : q'.ready = q.ready ++ keys) :
    newlyReady q q' = keys := by
  rw [newlyReady, h, List.drop_left]

omit [DecidableEq κ] in
theorem newlyReady_of_eq {q q' : Queue κ} (h : q'.ready = q.ready) : newlyReady q q' = [] :=
  newlyReady_of_append (by rw [h, List.append_nil])

theorem marks_retry (q : Queue κ) (now : Nat) (key : κ) : q.marks (.retry now key) = [] := by
  have hnew : newlyReady q (q.retry now key) = [] := newlyReady_of_eq rfl
  show [] ++ (newlyReady q (q.retry now key)).map Mark.readied = []
  rw [hnew]
  rfl

theorem marks_forget (q : Queue κ) (key : κ) : q.marks (.forget key) = [] := by
  have hnew : newlyReady q (q.forget key) = [] := newlyReady_of_eq rfl
  show [] ++ (newlyReady q (q.forget key)).map Mark.readied = []
  rw [hnew]
  rfl

theorem marks_take_of_ne {q : Queue κ} (e : q.take.2 = q) (hno : ∀ key, q.take.1 ≠ .key key) : q.marks .take = [] := by
  have hnew : newlyReady q q.take.2 = [] := newlyReady_of_eq (by rw [e])
  show (match q.take.1 with | .key key => [Mark.handed key] | .empty | .closed => []) ++
    (newlyReady q q.take.2).map _ = []
  rw [hnew]
  cases ht : q.take.1 with
  | key key => exact absurd ht (hno key)
  | empty => rfl
  | closed => rfl

theorem exists_ready_add (q : Queue κ) (key : κ) : ∃ keys, (q.add key).ready = q.ready ++ keys := by
  unfold add
  split
  · exact ⟨[], (List.append_nil _).symm⟩
  · split
    · exact ⟨[], (List.append_nil _).symm⟩
    · exact ⟨[key], rfl⟩

theorem exists_ready_release (q : Queue κ) (key : κ) : ∃ keys, (q.release key).ready = q.ready ++ keys := by
  show ∃ keys, (if q.dirty.contains key && !q.closed then q.ready ++ [key] else q.ready) = q.ready ++ keys
  split
  · exact ⟨[key], rfl⟩
  · exact ⟨[], (List.append_nil _).symm⟩

theorem nodup_dirty_add {q : Queue κ} (h : q.dirty.Nodup) (key : κ) : (q.add key).dirty.Nodup := by
  unfold add
  split
  · exact h
  · next hnew =>
    have hkey : key ∉ q.dirty := fun hk => hnew (by simp [hk])
    exact List.nodup_cons.mpr ⟨hkey, h⟩

end Queue

open Queue

/-! ### Histories -/

/-- A work queue, and the marks that its keys have left since it was empty. -/
structure History (κ : Type) where
  queue : Queue κ
  log : List (Mark κ)

namespace History

variable {κ : Type}

def start : History κ := ⟨.empty, []⟩

/-- The key was handed out, and was not given back since. -/
def Holds (h : History κ) (k : κ) : Prop := Since (.handed k) (.returned k) h.log

/-- The key was added, and was not handed out since. -/
def Awaits (h : History κ) (k : κ) : Prop := Since (.added k) (.handed k) h.log

/-- The key was added again behind the taker who has it. -/
def Defers (h : History κ) (k : κ) : Prop := h.Holds k ∧ h.Awaits k

/-- The keys that became ready, in this order. -/
def readied (h : History κ) : List κ := h.log.filterMap Mark.readied?

/-- The keys that were handed out, in this order. -/
def handedOut (h : History κ) : List κ := h.log.filterMap Mark.handed?

/-- Only a key that was handed out is given back, and only a timer that is set goes off. -/
def Permits (h : History κ) : Operation κ → Prop
  | .release k => h.Holds k
  | .expire t => t ∈ h.queue.timers
  | _ => True

variable [DecidableEq κ]

instance (h : History κ) : (o : Operation κ) → Decidable (h.Permits o)
  | .release _ => inferInstanceAs (Decidable (Since _ _ _))
  | .expire t => inferInstanceAs (Decidable (t ∈ h.queue.timers))
  | .add _ | .take | .retry .. | .forget _ | .close => inferInstanceAs (Decidable True)

def next (h : History κ) (o : Operation κ) : History κ := ⟨h.queue.after o, h.log ++ h.queue.marks o⟩

/-- **The histories that come about.** -/
inductive Reached : History κ → Prop
  | start : Reached start
  | next {h : History κ} {o : Operation κ} : Reached h → h.Permits o → Reached (h.next o)

/-- The operations may come one after the other. -/
def Follows : History κ → List (Operation κ) → Prop
  | _, [] => True
  | h, o :: os => h.Permits o ∧ Follows (h.next o) os

instance Follows.decidable (h : History κ) : (os : List (Operation κ)) → Decidable (Follows h os)
  | [] => inferInstanceAs (Decidable True)
  | o :: os =>
    have := Follows.decidable (h.next o) os
    inferInstanceAs (Decidable (_ ∧ _))

theorem Reached.follow {h : History κ} (hr : Reached h) {os : List (Operation κ)} (ho : Follows h os) :
    Reached (os.foldl History.next h) := by
  induction os generalizing h with
  | nil => exact hr
  | cons o os ih => exact ih (hr.next ho.1) ho.2

/-! ### The invariant -/

omit [DecidableEq κ] in
/-- **What the collections of a queue have to do with its history.** -/
structure Sound (h : History κ) : Prop where
  queue : h.queue.Sound
  dirty_nodup : h.queue.dirty.Nodup
  closed_iff : h.queue.closed = true ↔ .closed ∈ h.log
  holds_iff : ∀ k, k ∈ h.queue.processing ↔ h.Holds k
  /-- While the queue is open, the keys that wait are those that were added since they were handed out. -/
  awaits_iff : h.queue.closed = false → ∀ k, k ∈ h.queue.dirty ↔ h.Awaits k
  /-- Keys are handed out in the order in which they became ready. -/
  in_order : h.readied = h.handedOut ++ h.queue.ready

namespace Sound

variable {h : History κ}

omit [DecidableEq κ] in
theorem start : (start : History κ).Sound where
  queue := .empty
  dirty_nodup := .nil
  closed_iff := by simp [History.start, Queue.empty]
  holds_iff k := iff_of_false List.not_mem_nil (not_since_nil _ _)
  awaits_iff _ k := iff_of_false List.not_mem_nil (not_since_nil _ _)
  in_order := rfl

omit [DecidableEq κ] in
theorem of_eq (hs : h.Sound) {q : Queue κ} (hr : q.ready = h.queue.ready) (hd : q.dirty = h.queue.dirty)
    (hp : q.processing = h.queue.processing) (hc : q.closed = h.queue.closed) : (History.mk q h.log).Sound where
  queue := hs.queue.of_eq hr hd hp fun e => hc ▸ e
  dirty_nodup := hd ▸ hs.dirty_nodup
  closed_iff := hc ▸ hs.closed_iff
  holds_iff k := by rw [hp]; exact hs.holds_iff k
  awaits_iff := by rw [hd, hc]; exact hs.awaits_iff
  in_order := by rw [hr]; exact hs.in_order

/-- An operation that leaves no mark, and the collections as they are. -/
theorem quiet (hs : h.Sound) {o : Operation κ} (hmarks : h.queue.marks o = [])
    (hr : (h.queue.after o).ready = h.queue.ready) (hd : (h.queue.after o).dirty = h.queue.dirty)
    (hp : (h.queue.after o).processing = h.queue.processing) (hc : (h.queue.after o).closed = h.queue.closed) :
    (h.next o).Sound := by
  have hnext : h.next o = ⟨h.queue.after o, h.log⟩ := by rw [History.next, hmarks, List.append_nil]
  rw [hnext]
  exact hs.of_eq hr hd hp hc

theorem add (hs : h.Sound) (key : κ) : (h.next (.add key)).Sound := by
  obtain ⟨keys, hkeys⟩ := h.queue.exists_ready_add key
  have hlog : (h.next (.add key)).log = h.log ++ .added key :: keys.map .readied := by
    show h.log ++ (_ ++ (newlyReady h.queue (h.queue.add key)).map Mark.readied) = _
    rw [newlyReady_of_append hkeys]
    rfl
  refine ⟨hs.queue.add key, nodup_dirty_add hs.dirty_nodup key, ?_, ?_, ?_, ?_⟩
  · show (h.queue.add key).closed = true ↔ _
    rw [add_closed, hlog, Mark.mem_append_cons _ _ rfl, hs.closed_iff]
    simp
  · intro k
    show k ∈ (h.queue.add key).processing ↔ Since _ _ _
    rw [add_processing, hlog, Mark.since_append_cons _ _ rfl rfl, hs.holds_iff k]
    simp [Holds]
  · intro hc k
    have hopen : h.queue.closed = false := (add_closed h.queue key).symm.trans hc
    show k ∈ (h.queue.add key).dirty ↔ Since _ _ _
    rw [mem_dirty_add hopen, hlog, Mark.since_append_cons _ _ rfl rfl, hs.awaits_iff hopen]
    simp [Awaits, eq_comm]
  · show List.filterMap _ _ = List.filterMap _ _ ++ (h.queue.add key).ready
    rw [hlog, hkeys]
    exact Mark.in_order_append_cons h.log keys rfl rfl hs.in_order

theorem take (hs : h.Sound) : (h.next .take).Sound := by
  rcases h.queue.take_cases with ⟨e, hno⟩ | ⟨key, rest, hc, hr, e⟩
  · -- nothing is handed out
    have hafter : h.queue.after .take = h.queue := by show h.queue.take.2 = _; rw [e]
    exact hs.quiet (marks_take_of_ne e hno) (by rw [hafter]) (by rw [hafter]) (by rw [hafter]) (by rw [hafter])
  · have hq : (h.next .take).queue = { h.queue with
        ready := rest, dirty := h.queue.dirty.filter (· ≠ key), processing := h.queue.processing.insert key } := by
      show h.queue.take.2 = _
      rw [e]
    have hlog : (h.next .take).log = h.log ++ [.handed key] := by
      show h.log ++ ((match h.queue.take.1 with | .key key => [Mark.handed key] | .empty | .closed => []) ++
        (newlyReady h.queue h.queue.take.2).map _) = _
      have hnew : newlyReady h.queue h.queue.take.2 = [] := by
        rw [newlyReady, e, hr]
        exact List.drop_eq_nil_of_le (by simp)
      rw [hnew, e]
      rfl
    refine ⟨hs.queue.take, ?_, ?_, ?_, ?_, ?_⟩
    · rw [hq]
      exact hs.dirty_nodup.filter _
    · rw [hq, hlog]
      simpa using hs.closed_iff
    · intro k
      unfold Holds
      rw [hq, hlog, since_append, since_singleton, List.mem_insert_iff, hs.holds_iff k]
      have hne : (.returned k : Mark κ) ∉ [.handed key] := by simp
      constructor
      · rintro (rfl | hk)
        · exact .inl rfl
        · exact .inr ⟨hk, hne⟩
      · rintro (e | ⟨hk, -⟩)
        · exact .inl (Mark.handed.inj e).symm
        · exact .inr hk
    · intro _ k
      unfold Awaits
      rw [hq, hlog, since_append, since_singleton, List.mem_filter, hs.awaits_iff hc k]
      have hne : (.handed k : Mark κ) ∉ [.handed key] ↔ k ≠ key := by
        rw [List.mem_singleton, Mark.handed.injEq]
      rw [hne, decide_eq_true_iff]
      constructor
      · exact .inr
      · rintro (e | ha)
        · exact nomatch e
        · exact ha
    · have hin : h.log.filterMap Mark.readied? = h.log.filterMap Mark.handed? ++ h.queue.ready := hs.in_order
      unfold readied handedOut
      rw [hq, hlog, List.filterMap_append, List.filterMap_append, hin, hr]
      simp [Mark.readied?, Mark.handed?]

theorem release (hs : h.Sound) {key : κ} (hheld : h.Holds key) : (h.next (.release key)).Sound := by
  obtain ⟨keys, hkeys⟩ := h.queue.exists_ready_release key
  have hlog : (h.next (.release key)).log = h.log ++ .returned key :: keys.map .readied := by
    show h.log ++ (_ ++ (newlyReady h.queue (h.queue.release key)).map Mark.readied) = _
    rw [newlyReady_of_append hkeys]
    rfl
  refine ⟨hs.queue.release ((hs.holds_iff key).mpr hheld), hs.dirty_nodup, ?_, ?_, ?_, ?_⟩
  · show h.queue.closed = true ↔ _
    rw [hlog, Mark.mem_append_cons _ _ rfl, hs.closed_iff]
    simp
  · intro k
    show k ∈ (h.queue.release key).processing ↔ Since _ _ _
    rw [mem_processing_release, hlog, Mark.since_append_cons _ _ rfl rfl, hs.holds_iff k]
    simp [Holds]
  · intro hc k
    show k ∈ h.queue.dirty ↔ Since _ _ _
    rw [hlog, Mark.since_append_cons _ _ rfl rfl, hs.awaits_iff hc k]
    simp [Awaits]
  · show List.filterMap _ _ = List.filterMap _ _ ++ (h.queue.release key).ready
    rw [hlog, hkeys]
    exact Mark.in_order_append_cons h.log keys rfl rfl hs.in_order

theorem close (hs : h.Sound) : (h.next .close).Sound := by
  have hlog : (h.next .close).log = h.log ++ .closed :: [].map .readied := by
    have hnew : newlyReady h.queue h.queue.close = [] := newlyReady_of_eq rfl
    show h.log ++ ([.closed] ++ (newlyReady h.queue h.queue.close).map Mark.readied) = _
    rw [hnew]
    rfl
  refine ⟨hs.queue.close, hs.dirty_nodup, ?_, ?_, nofun, ?_⟩
  · rw [hlog]
    exact iff_of_true rfl (by simp)
  · intro k
    show k ∈ h.queue.processing ↔ Since _ _ _
    rw [hlog, Mark.since_append_cons _ _ rfl rfl, hs.holds_iff k]
    simp [Holds]
  · show List.filterMap _ _ = List.filterMap _ _ ++ h.queue.ready
    rw [hlog, ← List.append_nil h.queue.ready]
    exact Mark.in_order_append_cons h.log [] rfl rfl hs.in_order

theorem next (hs : h.Sound) {o : Operation κ} (hp : h.Permits o) : (h.next o).Sound := by
  cases o with
  | add key => exact hs.add key
  | take => exact hs.take
  | release key => exact hs.release hp
  | expire t =>
    -- a timer is gone, and then its key is added
    have hs' : (History.mk { h.queue with timers := h.queue.timers.erase t } h.log).Sound := hs.of_eq rfl rfl rfl rfl
    exact hs'.add t.key
  | retry now key => exact hs.quiet (marks_retry h.queue now key) rfl rfl rfl rfl
  | forget key => exact hs.quiet (marks_forget h.queue key) rfl rfl rfl rfl
  | close => exact hs.close

omit [DecidableEq κ] in
theorem closed_eq_false (hs : h.Sound) (hopen : .closed ∉ h.log) : h.queue.closed = false :=
  Bool.eq_false_iff.mpr fun hc => hopen (hs.closed_iff.mp hc)

omit [DecidableEq κ] in
theorem mem_ready_iff (hs : h.Sound) (hopen : h.queue.closed = false) (k : κ) :
    k ∈ h.queue.ready ↔ k ∈ h.queue.dirty ∧ k ∉ h.queue.processing :=
  ⟨fun hk => ⟨hs.queue.dirty_of_ready k hk, hs.queue.free_of_ready k hk⟩,
    fun hk => hs.queue.ready_of_dirty hopen k hk.1 hk.2⟩

end Sound

/-- **Every history that comes about is sound.** -/
theorem Reached.sound {h : History κ} (hr : Reached h) : h.Sound := by
  induction hr with
  | start => exact .start
  | next _ hp ih => exact ih.next hp

/-- **The collections of a work queue agree with each other and with its history**: no key is ready twice; a ready key
waits and nobody has it; those in use are those that were handed out and not given back; none is handed out while it is in
use; and until the queue is closed, a key waits if it is ready or was added again behind its taker. -/
theorem Reached.collections_agree {h : History κ} (hr : Reached h) :
    h.queue.ready.Nodup ∧
    (∀ k ∈ h.queue.ready, k ∈ h.queue.dirty ∧ k ∉ h.queue.processing) ∧
    (∀ k, k ∈ h.queue.processing ↔ h.Holds k) ∧
    (∀ k, h.queue.take.1 = .key k → k ∉ h.queue.processing) ∧
    (.closed ∉ h.log → ∀ k, (k ∈ h.queue.dirty ↔ k ∈ h.queue.ready ∨ h.Defers k) ∧
      (k ∈ h.queue.ready ↔ k ∈ h.queue.dirty ∧ k ∉ h.queue.processing)) := by
  have hs := hr.sound
  refine ⟨hs.queue.ready_nodup, ?_, hs.holds_iff, ?_, ?_⟩
  · intro k hk
    exact ⟨hs.queue.dirty_of_ready k hk, hs.queue.free_of_ready k hk⟩
  · intro k hk
    rcases h.queue.take_cases with ⟨-, hno⟩ | ⟨key, rest, -, hready, e⟩
    · exact absurd hk (hno k)
    · rw [e] at hk
      obtain rfl : key = k := by simpa using hk
      exact hs.queue.free_of_ready key (by simp [hready])
  · intro hopen k
    have hc := hs.closed_eq_false hopen
    refine ⟨?_, hs.mem_ready_iff hc k⟩
    rw [hs.mem_ready_iff hc k, Defers, ← hs.holds_iff k, ← hs.awaits_iff hc k]
    by_cases hp : k ∈ h.queue.processing <;> simp [hp]

/-- Two keys are added and handed out, one of them is added again, the other one fails, comes back by its timer, and is
handed out once more. -/
def rush : List (Operation String) :=
  [.add "a", .add "b", .take, .take, .add "a", .retry 0 "b", .release "b", .expire ⟨backoff 0, "b"⟩, .take, .add "c"]

theorem follows_rush : Follows start rush := by decide

/-- The first key waits behind its taker, since nobody has it ready. -/
theorem defers_rush : (rush.foldl next start).queue.dirty = ["c", "a"] ∧ (rush.foldl next start).queue.ready = ["c"] ∧
    (rush.foldl next start).Defers "a" := by
  have hdirty : (rush.foldl next start).queue.dirty = ["c", "a"] := by decide
  have hready : (rush.foldl next start).queue.ready = ["c"] := by decide
  have hopen : .closed ∉ (rush.foldl next start).log := by decide
  obtain ⟨-, -, -, -, hwaits⟩ := Reached.collections_agree (Reached.start.follow follows_rush)
  have ha := (hwaits hopen "a").1.mp (by rw [hdirty]; decide)
  rw [hready] at ha
  exact ⟨hdirty, hready, ha.resolve_left (by decide)⟩

end History

end FleetAtlas
