import FleetAtlas.Proofs.Queue.History
import FleetAtlas.Queue.Line

/-!
# Takers that wait for keys

* `Line.visit`: one look of a taker up to where it waits; `Line.pass` is one of them, or two (`pass_eq_visit`);
* `Hall κ`: a queue with those who wait for its keys, the keys that became ready, and what the takers have left with;
* `Hall.Permits`, `Hall.Follows`: takers come at any time, those who were woken look again at any time, and the queue is
  used in between;
* `Hall.Sound`: while somebody waits, at least as many are awake as keys are ready;
* `Hall.none_forgotten`: **nobody waits for a key that is ready, once all who were woken have looked**.
-/

namespace FleetAtlas

open Queue (Operation newlyReady)

/-! ### What is done to the queue -/

namespace Queue

variable {κ : Type} [DecidableEq κ]

/-- Keys become ready behind those that are. -/
theorem exists_ready_after (q : Queue κ) {o : Operation κ} (ho : o ≠ .take) :
    ∃ keys, (q.after o).ready = q.ready ++ keys := by
  cases o with
  | add key => exact q.exists_ready_add key
  | take => exact absurd rfl ho
  | release key => exact q.exists_ready_release key
  | expire t => exact exists_ready_add { q with timers := q.timers.erase t } t.key
  | retry now key => exact ⟨[], (List.append_nil _).symm⟩
  | forget key => exact ⟨[], (List.append_nil _).symm⟩
  | close => exact ⟨[], (List.append_nil _).symm⟩

theorem length_ready_add_le (q : Queue κ) (key : κ) : (q.add key).ready.length ≤ q.ready.length + 1 := by
  unfold add
  split
  · exact Nat.le_succ _
  · split <;> simp

/-- At most one key becomes ready. -/
theorem length_ready_after_le (q : Queue κ) {o : Operation κ} (ho : o ≠ .take) :
    (q.after o).ready.length ≤ q.ready.length + 1 := by
  cases o with
  | add key => exact q.length_ready_add_le key
  | take => exact absurd rfl ho
  | release key =>
    show (if q.dirty.contains key && !q.closed then q.ready ++ [key] else q.ready).length ≤ _
    split <;> simp
  | expire t => exact length_ready_add_le { q with timers := q.timers.erase t } t.key
  | retry now key => exact Nat.le_succ _
  | forget key => exact Nat.le_succ _
  | close => exact Nat.le_succ _

theorem closed_after (q : Queue κ) {o : Operation κ} (ho : o ≠ .take) (hclose : o ≠ .close) :
    (q.after o).closed = q.closed := by
  cases o with
  | add key => exact q.add_closed key
  | take => exact absurd rfl ho
  | release key => rfl
  | expire t => exact q.expire_closed t
  | retry now key => rfl
  | forget key => rfl
  | close => exact absurd rfl hclose

end Queue

/-! ### Who waits and who is awake -/

namespace Line

variable {κ : Type}

/-- **Nobody waits for a ready key in vain**: while somebody waits, there is a taker on its way to each ready key. -/
def Served (l : Line κ) : Prop := l.waiting ≠ [] → l.queue.ready.length ≤ l.woken.length

/-- Those in line, and those who are awake. -/
def takers (l : Line κ) : List Nat := l.waiting ++ l.woken

@[simp] theorem wake_queue (l : Line κ) : l.wake.queue = l.queue := by
  unfold wake
  split <;> rfl

theorem wake_takers (l : Line κ) : l.wake.takers.Perm l.takers := by
  unfold wake takers
  cases hw : l.waiting with
  | nil => simp
  | cons taker rest =>
    show (rest ++ (l.woken ++ [taker])).Perm (taker :: (rest ++ l.woken))
    rw [← List.append_assoc]
    exact List.perm_append_singleton taker (rest ++ l.woken)

theorem wake_waiting_eq_nil {l : Line κ} (h : l.waiting = []) : l.wake.waiting = [] := by
  unfold wake
  rw [h]

/-- A wake-up is one more who is awake, as long as somebody waits. -/
theorem length_woken_wake {l : Line κ} (h : l.wake.waiting ≠ []) :
    l.waiting ≠ [] ∧ l.wake.woken.length = l.woken.length + 1 := by
  unfold wake at h ⊢
  cases hw : l.waiting with
  | nil => simp [hw] at h
  | cons taker rest => simp

theorem Served.wake {l : Line κ} (h : l.Served) : l.wake.Served := by
  intro hw
  obtain ⟨hwaiting, hlength⟩ := length_woken_wake hw
  rw [wake_queue, hlength]
  exact Nat.le_succ_of_le (h hwaiting)

/-! ### Something is done to the queue -/

section Act

variable {l : Line κ} {change : Queue κ → Queue κ}

theorem act_cases (l : Line κ) (change : Queue κ → Queue κ) :
    (l.act change = Line.wake { l with queue := change l.queue }) ∨
    ((change l.queue).ready.length ≤ l.queue.ready.length ∧ l.act change = { l with queue := change l.queue }) := by
  by_cases h : l.queue.ready.length < (change l.queue).ready.length
  · exact .inl (if_pos h)
  · exact .inr ⟨Nat.le_of_not_lt h, if_neg h⟩

@[simp] theorem act_queue (l : Line κ) (change : Queue κ → Queue κ) : (l.act change).queue = change l.queue := by
  obtain e | ⟨-, e⟩ := l.act_cases change
  · rw [e, wake_queue]
  · rw [e]

theorem act_takers (l : Line κ) (change : Queue κ → Queue κ) : (l.act change).takers.Perm l.takers := by
  obtain e | ⟨-, e⟩ := l.act_cases change
  · rw [e]; exact wake_takers _
  · rw [e]; exact .refl _

theorem act_waiting_eq_nil (h : l.waiting = []) : (l.act change).waiting = [] := by
  obtain e | ⟨-, e⟩ := l.act_cases change
  · rw [e]; exact wake_waiting_eq_nil h
  · rw [e]; exact h

/-- One more key wakes one more taker. -/
theorem Served.act (h : l.Served) (hone : (change l.queue).ready.length ≤ l.queue.ready.length + 1) :
    (l.act change).Served := by
  intro hw
  obtain e | ⟨hfew, e⟩ := l.act_cases change <;> rw [e] at hw ⊢
  · obtain ⟨hwaiting, hlength⟩ := length_woken_wake hw
    rw [wake_queue, hlength]
    exact Nat.le_trans hone (Nat.succ_le_succ (h hwaiting))
  · exact Nat.le_trans hfew (h hw)

theorem close_takers (l : Line κ) : l.close.takers.Perm l.takers := by
  show (l.woken ++ l.waiting).Perm (l.waiting ++ l.woken)
  exact List.perm_append_comm

end Act

end Line

/-! ### One look -/

namespace Line

variable {κ : Type} [DecidableEq κ]

/-- A look of a taker, up to where it waits: it leaves, and may hand on the permit or the wake-up that it came with; or it
has used up a permit for nothing and will look again; or it joins the line. -/
def visit (l : Line κ) (taker : Nat) (handsOn : Bool) : Option (Option κ) × Line κ :=
  let after := { l.look.2 with woken := l.woken.erase taker }
  match l.look.1 with
  | some answer => (some answer, if handsOn then after.wake else after)
  | none =>
    if l.permit then (none, { after with woken := after.woken ++ [taker] })
    else (none, { after with waiting := after.waiting ++ [taker] })

/-- **What comes of a look**: the queue is closed, or empty, or its first key is taken. -/
theorem look_cases (l : Line κ) :
    (l.queue.closed = true ∧ l.look = (some none, { l with permit := false })) ∨
    (l.queue.closed = false ∧ l.queue.ready = [] ∧ l.look = (none, { l with permit := false })) ∨
    ∃ key queue, l.queue.ready = key :: queue.ready ∧ queue.closed = l.queue.closed ∧
      l.look = (some (some key), { l with queue, permit := false }) := by
  cases hc : l.queue.closed with
  | true => exact .inl ⟨rfl, by simp [look, Queue.take, hc]⟩
  | false =>
    right
    cases hr : l.queue.ready with
    | nil => exact .inl ⟨rfl, rfl, by simp [look, Queue.take, hc, hr]⟩
    | cons key rest =>
      exact .inr ⟨key, l.queue.take.2, by simp [Queue.take, hc, hr], by simp [Queue.take, hc, hr],
        by simp [look, Queue.take, hc, hr]⟩

/-- **A taker that comes looks once**, or a second time when it has used up a permit for nothing. -/
theorem pass_eq_visit (l : Line κ) {taker : Nat} (hnew : taker ∉ l.woken) :
    l.pass taker =
      if l.permit && l.look.1.isNone then (l.visit taker false).2.visit taker false else l.visit taker false := by
  have hsame : l.woken.erase taker = l.woken := List.erase_of_not_mem hnew
  obtain ⟨-, e⟩ | ⟨hc, hr, e⟩ | ⟨_, _, -, -, e⟩ := l.look_cases
  · simp [pass, visit, e, hsame]
  · cases hp : l.permit with
    | false => simp [pass, visit, e, hsame, hp]
    | true =>
      -- the second look finds the queue empty once more, and no permit
      have hfirst : l.visit taker false = (none, { l with permit := false, woken := l.woken ++ [taker] }) := by
        simp [visit, e, hsame, hp]
      have hsecond : look { l with permit := false, woken := l.woken ++ [taker] } =
          (none, { l with permit := false, woken := l.woken ++ [taker] }) := by
        simp [look, Queue.take, hc, hr]
      rw [hfirst]
      simp [pass, visit, e, hsecond, List.erase_append_right _ hnew]
  · simp [pass, visit, e, hsame]

/-- **What a look up to the wait comes to.**  The taker leaves, with a key or because the queue is closed; or there is no
key, and it stays, awake or in line. -/
theorem visit_cases (l : Line κ) (taker : Nat) (handsOn : Bool) :
    (∃ answer after, l.visit taker handsOn = (some answer, if handsOn then after.wake else after) ∧
      after.waiting = l.waiting ∧ after.woken = l.woken.erase taker ∧ after.queue.closed = l.queue.closed ∧
      l.queue.ready = answer.toList ++ after.queue.ready ∧ (answer = none → l.queue.closed = true)) ∨
    ∃ after, l.visit taker handsOn = (none, after) ∧ after.queue = l.queue ∧ l.queue.ready = [] ∧
      l.queue.closed = false ∧ after.takers.Perm (taker :: (l.waiting ++ l.woken.erase taker)) := by
  obtain ⟨hc, e⟩ | ⟨hc, hr, e⟩ | ⟨key, queue, hr, hc, e⟩ := l.look_cases
  · exact .inl ⟨none, { l with permit := false, woken := l.woken.erase taker }, by simp [visit, e], rfl, rfl, rfl, rfl,
      fun _ => hc⟩
  · right
    cases hp : l.permit with
    | true =>
      refine ⟨{ l with permit := false, woken := l.woken.erase taker ++ [taker] }, by simp [visit, e, hp], rfl, hr, hc, ?_⟩
      show (l.waiting ++ (l.woken.erase taker ++ [taker])).Perm _
      rw [← List.append_assoc]
      exact List.perm_append_singleton taker _
    | false =>
      refine ⟨{ l with permit := false, waiting := l.waiting ++ [taker], woken := l.woken.erase taker },
        by simp [visit, e, hp], rfl, hr, hc, ?_⟩
      show (l.waiting ++ [taker] ++ l.woken.erase taker).Perm _
      rw [List.append_assoc]
      exact List.perm_middle
  · exact .inl ⟨some key, { l with queue, permit := false, woken := l.woken.erase taker }, by simp [visit, e], rfl, rfl, hc,
      hr, nofun⟩

end Line

/-! ### The hall -/

/-- A queue with those who wait for its keys; in order, the keys that became ready and those who have left, with what they
left with. -/
structure Hall (κ : Type) where
  line : Line κ
  readied : List κ
  left : List (Nat × Option κ)

namespace Hall

/-- A taker looks, or something is done to the queue. -/
inductive Move (κ : Type) where
  | looked (taker : Nat) (handsOn : Bool)
  | did (operation : Operation κ)

variable {κ : Type}

/-- Nobody has come. -/
def start : Hall κ := ⟨.empty, [], []⟩

/-- The ones who have come: they wait, or are awake, or have left. -/
def people (h : Hall κ) : List Nat := h.line.takers ++ h.left.map Prod.fst

/-- A taker looks when it comes and when it was woken, and has something to hand on if it was woken or finds a permit. Keys
are taken by takers only, and only a timer that is set goes off. -/
def Permits (h : Hall κ) : Move κ → Prop
  | .looked taker handsOn =>
    taker ∉ h.line.waiting ∧ taker ∉ h.left.map Prod.fst ∧
      (handsOn = true → h.line.permit = true ∨ taker ∈ h.line.woken)
  | .did .take => False
  | .did (.expire t) => t ∈ h.line.queue.timers
  | .did (.add _) | .did (.release _) | .did (.retry ..) | .did (.forget _) | .did .close => True

variable [DecidableEq κ]

instance (h : Hall κ) : (m : Move κ) → Decidable (h.Permits m)
  | .looked .. => inferInstanceAs (Decidable (_ ∧ _))
  | .did .take => inferInstanceAs (Decidable False)
  | .did (.expire t) => inferInstanceAs (Decidable (t ∈ h.line.queue.timers))
  | .did (.add _) | .did (.release _) | .did (.retry ..) | .did (.forget _) | .did .close =>
    inferInstanceAs (Decidable True)

/-- Something is done to the queue, and wakes whom it wakes. -/
def did (h : Hall κ) (o : Operation κ) : Line κ :=
  match o with
  | .close => h.line.close
  | .add _ | .take | .release _ | .retry .. | .expire _ | .forget _ => h.line.act (·.after o)

def next (h : Hall κ) : Move κ → Hall κ
  | .looked taker handsOn =>
    match h.line.visit taker handsOn with
    | (some answer, line) => { h with line, left := h.left ++ [(taker, answer)] }
    | (none, line) => { h with line }
  | .did o =>
    { h with line := h.did o, readied := h.readied ++ newlyReady h.line.queue (h.line.queue.after o) }

/-- The moves may come one after the other. -/
def Follows : Hall κ → List (Move κ) → Prop
  | _, [] => True
  | h, m :: ms => h.Permits m ∧ Follows (h.next m) ms

instance Follows.decidable (h : Hall κ) : (ms : List (Move κ)) → Decidable (Follows h ms)
  | [] => inferInstanceAs (Decidable True)
  | m :: ms =>
    have := Follows.decidable (h.next m) ms
    inferInstanceAs (Decidable (_ ∧ _))

/-! ### The invariant -/

omit [DecidableEq κ] in
/-- **What holds of a hall all the time.** -/
structure Sound (h : Hall κ) : Prop where
  served : h.line.Served
  /-- Nobody waits for a closed queue. -/
  none_waiting : h.line.queue.closed = true → h.line.waiting = []
  /-- Everybody is in one place, and leaves once. -/
  distinct : h.people.Nodup
  /-- The takers leave with the keys in the order in which they became ready. -/
  in_order : h.readied = h.left.filterMap Prod.snd ++ h.line.queue.ready

section Looked

variable {h : Hall κ} {taker : Nat} {handsOn : Bool}

omit [DecidableEq κ] in
/-- All but one. -/
def others (h : Hall κ) (taker : Nat) : List Nat :=
  h.line.waiting ++ h.line.woken.erase taker ++ h.left.map Prod.fst

theorem people_looked (h : Hall κ) (taker : Nat) (handsOn : Bool) :
    (h.next (.looked taker handsOn)).people.Perm (taker :: h.others taker) := by
  obtain ⟨answer, after, e, hwaiting, hwoken, -⟩ | ⟨after, e, -, -, -, htakers⟩ := h.line.visit_cases taker handsOn
  · have hafter : (if handsOn then after.wake else after).takers.Perm (h.line.waiting ++ h.line.woken.erase taker) := by
      rw [← hwaiting, ← hwoken]
      cases handsOn with
      | true => exact after.wake_takers
      | false => exact .refl _
    have hpeople : (h.next (.looked taker handsOn)).people =
        (if handsOn then after.wake else after).takers ++ (h.left.map Prod.fst ++ [taker]) := by
      simp only [next, e, people, List.map_append, List.map_cons, List.map_nil]
    rw [hpeople, ← List.append_assoc]
    exact (List.perm_append_singleton taker _).trans ((hafter.append_right _).cons taker)
  · have hpeople : (h.next (.looked taker handsOn)).people = after.takers ++ h.left.map Prod.fst := by
      simp only [next, e, people]
    rw [hpeople]
    exact htakers.append_right _

namespace Sound

theorem looked (hs : h.Sound) (hp : h.Permits (.looked taker handsOn)) : (h.next (.looked taker handsOn)).Sound := by
  have hdistinct : (h.next (.looked taker handsOn)).people.Nodup := by
    have hsub : (h.others taker).Sublist h.people :=
      ((List.Sublist.refl _).append List.erase_sublist).append (.refl _)
    refine (people_looked h taker handsOn).nodup_iff.mpr (List.nodup_cons.mpr ⟨?_, hs.distinct.sublist hsub⟩)
    have hwoken : h.line.woken.Nodup := hs.distinct.sublist
      ((List.sublist_append_right _ _).trans (List.sublist_append_left _ _))
    have herase : taker ∉ h.line.woken.erase taker := hwoken.not_mem_erase
    simp only [others, List.mem_append, not_or]
    exact ⟨⟨hp.1, herase⟩, hp.2.1⟩
  obtain ⟨answer, after, e, hwaiting, hwoken, hclosed, hready, hnone⟩ | ⟨after, e, hqueue, hready, hopen, -⟩ :=
    h.line.visit_cases taker handsOn
  · have hserved : after.Served := by
      intro hw
      rw [hwaiting] at hw
      have hkey : answer.toList.length = 1 := by
        cases answer with
        | none => exact absurd (hs.none_waiting (hnone rfl)) hw
        | some key => rfl
      have hbefore : h.line.queue.ready.length ≤ h.line.woken.length := hs.served hw
      have herase : h.line.woken.length - 1 ≤ after.woken.length := hwoken ▸ List.le_length_erase
      rw [hready, List.length_append, hkey] at hbefore
      omega
    have hempty : after.queue.closed = true → after.waiting = [] := by
      rw [hclosed, hwaiting]
      exact hs.none_waiting
    have hnext : h.next (.looked taker handsOn) =
        { h with line := if handsOn then after.wake else after, left := h.left ++ [(taker, answer)] } := by
      simp only [next, e]
    have hqueue : (if handsOn then after.wake else after).queue = after.queue := by
      split
      · exact after.wake_queue
      · rfl
    rw [hnext] at hdistinct ⊢
    refine ⟨?_, ?_, hdistinct, ?_⟩
    · cases handsOn with
      | true => exact hserved.wake
      | false => exact hserved
    · rw [hqueue]
      intro hc
      cases handsOn with
      | true => exact Line.wake_waiting_eq_nil (hempty hc)
      | false => exact hempty hc
    · have hleft : (h.left ++ [(taker, answer)]).filterMap Prod.snd = h.left.filterMap Prod.snd ++ answer.toList := by
        rw [List.filterMap_append]
        cases answer <;> rfl
      rw [hqueue, hleft, List.append_assoc, ← hready]
      exact hs.in_order
  · have hnext : h.next (.looked taker handsOn) = { h with line := after } := by simp only [next, e]
    rw [hnext] at hdistinct ⊢
    refine ⟨?_, ?_, hdistinct, ?_⟩
    · intro _
      rw [hqueue, hready]
      exact Nat.zero_le _
    · intro hc
      rw [hqueue, hopen] at hc
      exact nomatch hc
    · rw [hqueue]
      exact hs.in_order

end Sound

end Looked

section Did

variable {h : Hall κ} {o : Operation κ}

theorem did_queue (h : Hall κ) (o : Operation κ) : (h.did o).queue = h.line.queue.after o := by
  cases o with
  | close => rfl
  | _ => exact Line.act_queue _ _

theorem did_takers (h : Hall κ) (o : Operation κ) : (h.did o).takers.Perm h.line.takers := by
  cases o with
  | close => exact h.line.close_takers
  | _ => exact Line.act_takers _ _

theorem did_eq_act (h : Hall κ) (hclose : o ≠ .close) : h.did o = h.line.act (·.after o) := by
  cases o with
  | close => exact absurd rfl hclose
  | _ => rfl

theorem people_did (h : Hall κ) (o : Operation κ) : (h.next (.did o)).people.Perm h.people :=
  (h.did_takers o).append_right _

theorem Sound.did (hs : h.Sound) (hp : h.Permits (.did o)) : (h.next (.did o)).Sound := by
  have htake : o ≠ .take := by
    rintro rfl
    exact hp
  have hserved : (h.did o).Served ∧ ((h.did o).queue.closed = true → (h.did o).waiting = []) := by
    by_cases hclose : o = .close
    · subst hclose
      exact ⟨fun hw => absurd rfl hw, fun _ => rfl⟩
    · rw [did_eq_act h hclose, Line.act_queue, h.line.queue.closed_after htake hclose]
      exact ⟨hs.served.act (h.line.queue.length_ready_after_le htake),
        fun hc => Line.act_waiting_eq_nil (hs.none_waiting hc)⟩
  refine ⟨hserved.1, hserved.2, (people_did h o).nodup_iff.mpr hs.distinct, ?_⟩
  obtain ⟨keys, hkeys⟩ := h.line.queue.exists_ready_after htake
  show h.readied ++ newlyReady h.line.queue (h.line.queue.after o) =
    h.left.filterMap Prod.snd ++ (h.did o).queue.ready
  rw [did_queue, Queue.newlyReady_of_append hkeys, hkeys, hs.in_order, List.append_assoc]

end Did

theorem Sound.next {h : Hall κ} (hs : h.Sound) {m : Move κ} (hp : h.Permits m) : (h.next m).Sound := by
  cases m with
  | looked taker handsOn => exact hs.looked hp
  | did o => exact hs.did hp

omit [DecidableEq κ] in
theorem Sound.start : (start : Hall κ).Sound where
  served hw := absurd rfl hw
  none_waiting _ := rfl
  distinct := .nil
  in_order := rfl

/-! ### Whole runs -/

/-- What every move keeps holds in the end, if it holds at first or comes about by one of the moves. -/
theorem lasts {p : Hall κ → Prop} (hkeep : ∀ h m, h.Permits m → p h → p (h.next m)) {h : Hall κ} {ms : List (Move κ)}
    (hm : Follows h ms) (hp : p h ∨ ∃ m ∈ ms, ∀ h : Hall κ, h.Permits m → p (h.next m)) : p (ms.foldl next h) := by
  induction ms generalizing h with
  | nil =>
    obtain hp | ⟨m, hmem, -⟩ := hp
    · exact hp
    · exact nomatch hmem
  | cons m ms ih =>
    refine ih hm.2 ?_
    obtain hp | ⟨m', hmem, hnew⟩ := hp
    · exact .inl (hkeep h m hm.1 hp)
    · obtain rfl | hmem := List.mem_cons.mp hmem
      · exact .inl (hnew h hm.1)
      · exact .inr ⟨m', hmem, hnew⟩

theorem closed_next (h : Hall κ) (m : Move κ) (hp : h.Permits m) (hc : h.line.queue.closed = true) :
    (h.next m).line.queue.closed = true := by
  cases m with
  | looked taker handsOn =>
    obtain ⟨answer, after, e, -, -, hclosed, -⟩ | ⟨after, e, hqueue, -⟩ := h.line.visit_cases taker handsOn
    · simp only [next, e]
      split
      · rw [Line.wake_queue, hclosed, hc]
      · rw [hclosed, hc]
    · simp only [next, e, hqueue, hc]
  | did o =>
    have htake : o ≠ .take := by
      rintro rfl
      exact hp
    show (h.did o).queue.closed = true
    rw [did_queue]
    by_cases hclose : o = .close
    · rw [hclose]
      rfl
    · rw [h.line.queue.closed_after htake hclose, hc]

theorem people_next {taker : Nat} (h : Hall κ) (m : Move κ) (ht : taker ∈ h.people) : taker ∈ (h.next m).people := by
  cases m with
  | looked t handsOn =>
    rw [(people_looked h t handsOn).mem_iff, List.mem_cons]
    by_cases hne : taker = t
    · exact .inl hne
    · right
      simp only [people, Line.takers, List.mem_append] at ht
      simp only [others, List.mem_append, List.mem_erase_of_ne hne]
      exact ht
  | did o => exact (people_did h o).mem_iff.mpr ht

/-- The hall after some moves. -/
def after (ms : List (Move κ)) : Hall κ := ms.foldl next start

/-- **No taker is forgotten.**  Once all who were woken have looked, nobody waits or no key is ready, and as long as somebody
is awake, it may look; nobody waits after the queue was closed; the takers leave with all the keys that became ready but for
those that still are, in this order; each taker leaves once at most, and until it does, it waits or is awake. -/
theorem none_forgotten {ms : List (Move κ)} (hm : Follows start ms) :
    ((after ms).line.woken = [] → (after ms).line.waiting = [] ∨ (after ms).line.queue.ready = []) ∧
    (∀ taker ∈ (after ms).line.woken, (after ms).Permits (.looked taker false)) ∧
    (.did .close ∈ ms → (after ms).line.waiting = []) ∧
    (after ms).readied = (after ms).left.filterMap Prod.snd ++ (after ms).line.queue.ready ∧
    ((after ms).line.waiting ++ (after ms).line.woken ++ (after ms).left.map Prod.fst).Nodup ∧
    ∀ taker handsOn, .looked taker handsOn ∈ ms →
      taker ∈ (after ms).line.waiting ++ (after ms).line.woken ++ (after ms).left.map Prod.fst := by
  have hs : (after ms).Sound := lasts (fun h m hp hs => hs.next hp) hm (.inl .start)
  refine ⟨?_, ?_, ?_, hs.in_order, hs.distinct, ?_⟩
  · intro hwoken
    by_cases hwaiting : (after ms).line.waiting = []
    · exact .inl hwaiting
    · have hready := hs.served hwaiting
      rw [hwoken] at hready
      exact .inr (List.eq_nil_of_length_eq_zero (Nat.le_zero.mp hready))
  · intro taker ht
    obtain ⟨htakers, -, hleft⟩ := List.nodup_append.mp hs.distinct
    have hwaiting := (List.nodup_append.mp htakers).2.2
    exact ⟨fun h => hwaiting taker h taker ht rfl, fun h => hleft taker (List.mem_append_right _ ht) taker h rfl,
      fun _ => .inr ht⟩
  · intro hclose
    refine hs.none_waiting (lasts (p := fun h => h.line.queue.closed = true) closed_next hm (.inr ⟨_, hclose, ?_⟩))
    exact fun h _ => congrArg Queue.closed (h.did_queue .close)
  · intro taker handsOn hlooked
    refine lasts (p := fun h => taker ∈ h.people) (fun h m _ => people_next h m) hm (.inr ⟨_, hlooked, ?_⟩)
    exact fun h _ => (people_looked h taker handsOn).mem_iff.mpr List.mem_cons_self

/-- Two takers wait; two keys wake them both, but a third taker comes first. -/
def crowd : List (Move String) :=
  [.looked 1 false, .looked 2 false, .did (.add "a"), .did (.add "b"), .looked 3 false, .looked 1 false, .looked 2 false]

theorem follows_crowd : Follows start crowd := by decide

/-- The second taker is in line again, and there is no key for it. -/
theorem ready_crowd : (after crowd).line.waiting = [2] ∧ (after crowd).line.queue.ready = [] ∧
    (after crowd).readied = [(3, some "a"), (1, some "b")].filterMap Prod.snd := by
  obtain ⟨hready, -, -, horder, -, -⟩ := none_forgotten follows_crowd
  have hwaiting : (after crowd).line.waiting = [2] := by decide
  have hleft : (after crowd).left = [(3, some "a"), (1, some "b")] := by decide
  have hempty := (hready (by decide)).resolve_left (by rw [hwaiting]; exact List.cons_ne_nil _ _)
  rw [hempty, hleft, List.append_nil] at horder
  exact ⟨hwaiting, hempty, horder⟩

end Hall

end FleetAtlas
