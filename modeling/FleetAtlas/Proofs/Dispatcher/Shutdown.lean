import FleetAtlas.Proofs.Dispatcher.Crew

/-!
# Dispatchers that were closed

* `Crew.next_of_closed`: with the queue closed, no move makes a key ready or has a handler called;
* `Desk ω κ`: a crew of visitors who come for one key each; they wait while there is none, and learn in the end whether there
  may be more to do;
* `Desk.Permits`, `Desk.Reached`: the visitors come in any order, and those who wait are woken in any order;
* `Desk.Sound`: what a visitor has done so far is what its stage says (`Reached.sound`);
* `Desk.busy_follow`: a visitor that has a key gives it back as soon as it moves on, before and after the end;
* `Desk.Reached.nothing_starts`: **nothing starts after the queue was closed, and what is under way comes to its end**.
-/

namespace FleetAtlas

/-! ### A closed queue -/

namespace Queue

variable {κ : Type} [DecidableEq κ] {q : Queue κ}

theorem foldl_add_of_closed (h : q.closed = true) (keys : List κ) : keys.foldl add q = q := by
  induction keys with
  | nil => rfl
  | cons key keys ih => rw [List.foldl_cons, add_of_closed h, ih]

theorem take_of_closed (h : q.closed = true) : q.take = (.closed, q) := if_pos h

omit [DecidableEq κ] in
theorem closed_take [DecidableEq κ] (q : Queue κ) : q.take.2.closed = q.closed := by
  obtain ⟨e, -⟩ | ⟨_, _, -, -, e⟩ := q.take_cases <;> rw [e]

theorem release_ready_of_closed (h : q.closed = true) (key : κ) : (q.release key).ready = q.ready := by
  simp [release, h]

theorem expire_ready_of_closed (h : q.closed = true) (t : Timer κ) : (q.expire t).ready = q.ready := by
  rw [expire, add_of_closed (q := { q with timers := q.timers.erase t }) h]

end Queue

/-- The key that a handler was called about. -/
def Deed.called? : Deed → Option ObjectKey
  | called key => some key
  | took _ | ended .. | released _ => none

theorem Phase.rank_pos {κ : Type} {p : Phase κ} {call : Call κ} (h : p.call? = some call) : 0 < p.rank := by
  cases p with
  | seeking => exact nomatch h
  | _ => exact Nat.succ_pos _

namespace Crew

variable {ω κ : Type} [DecidableEq ω] [ClusterObject κ]

omit [DecidableEq ω] [ClusterObject κ] in
theorem begin?_of_closed {d : Dispatcher κ} (h : d.queue.closed = true) : d.begin? = none := by
  rw [Dispatcher.begin?, Queue.take_of_closed h]

/-- Nothing has started since: the queue is closed, no key has become ready, and no handler was called. -/
structure Quiet (c c' : Crew ω κ) : Prop where
  closed : c'.dispatcher.queue.closed = true
  ready_eq : c'.dispatcher.queue.ready = c.dispatcher.queue.ready
  called_eq : ∀ w, (c'.deeds w).filterMap Deed.called? = (c.deeds w).filterMap Deed.called?

omit [DecidableEq ω] [ClusterObject κ] in
theorem Quiet.trans {c c' c'' : Crew ω κ} (h : Quiet c c') (h' : Quiet c' c'') : Quiet c c'' where
  closed := h'.closed
  ready_eq := h'.ready_eq.trans h.ready_eq
  called_eq w := (h'.called_eq w).trans (h.called_eq w)

omit [ClusterObject κ] in
theorem quiet_enter {c : Crew ω κ} {w : ω} {phase : Phase κ} {deeds : List Deed} {d : Dispatcher κ}
    (hclosed : d.queue.closed = true) (hready : d.queue.ready = c.dispatcher.queue.ready)
    (hdeeds : deeds.filterMap Deed.called? = []) : Quiet c (c.enter w phase deeds d) := by
  refine ⟨hclosed, hready, fun v => ?_⟩
  by_cases hv : v = w
  · rw [hv, enter_deeds_self, List.filterMap_append, hdeeds, List.append_nil]
  · rw [enter_deeds_of_ne hv]

omit [ClusterObject κ] in
theorem settle_ready (d : Dispatcher κ) (now : Nat) (call : Call κ) (result : Except Failure Unit) :
    (d.settle now call result).queue.ready = d.queue.ready := by
  unfold Dispatcher.settle
  split <;> rfl

/-- Only the one who closes the queue does. -/
theorem closed_next {c : Crew ω κ} {m : Move ω κ} (hp : c.Permits m) (hm : m ≠ .closed) :
    (c.next m).dispatcher.queue.closed = c.dispatcher.queue.closed := by
  cases hw : m.task? with
  | some w =>
    obtain ⟨call, d, -, hb, e⟩ | ⟨call, result, -, e⟩ | ⟨call, result, now, -, e⟩ | ⟨call, result, -, e⟩ :=
      next_of_task hp hw <;> rw [e, enter_dispatcher]
    · obtain ⟨-, -, -, hd⟩ := Dispatcher.begin?_cases hb
      rw [hd]
      exact Queue.closed_take _
    · exact Dispatcher.settle_closed ..
    · rw [Dispatcher.conclude_queue]
      rfl
  | none =>
    cases m with
    | noticed e =>
      obtain ⟨keys, hq⟩ := c.dispatcher.notify_queue_eq_foldl e
      exact (congrArg Queue.closed hq).trans (Queue.foldl_add_closed keys _)
    | cached _ => rfl
    | expired t => exact Queue.expire_closed ..
    | closed => exact absurd rfl hm
    | _ => exact nomatch hw

/-- **With the queue closed, nothing starts.** -/
theorem next_of_closed {c : Crew ω κ} (hc : c.dispatcher.queue.closed = true) {m : Move ω κ} (hp : c.Permits m) :
    Quiet c (c.next m) := by
  cases hm : m.task? with
  | some w =>
    obtain ⟨call, d, -, hb, -⟩ | ⟨call, result, -, e⟩ | ⟨call, result, now, -, e⟩ | ⟨call, result, -, e⟩ :=
      next_of_task hp hm
    · rw [begin?_of_closed hc] at hb
      exact nomatch hb
    · rw [e]
      exact quiet_enter hc rfl rfl
    · rw [e]
      exact quiet_enter ((Dispatcher.settle_closed _ _ _ _).trans hc) (settle_ready ..) rfl
    · rw [e]
      refine quiet_enter ?_ ?_ rfl
      · rw [Dispatcher.conclude_queue]
        exact hc
      · rw [Dispatcher.conclude_queue, Queue.release_ready_of_closed hc]
  | none =>
    obtain ⟨-, hdeeds, -⟩ := next_of_none (c := c) hm
    suffices hqueue : (c.next m).dispatcher.queue.closed = true ∧
        (c.next m).dispatcher.queue.ready = c.dispatcher.queue.ready from
      ⟨hqueue.1, hqueue.2, fun w => by rw [hdeeds]⟩
    cases m with
    | noticed e =>
      obtain ⟨keys, hq⟩ := c.dispatcher.notify_queue_eq_foldl e
      have hsame : (c.next (.noticed e)).dispatcher.queue = c.dispatcher.queue :=
        hq.trans (Queue.foldl_add_of_closed hc keys)
      rw [hsame]
      exact ⟨hc, rfl⟩
    | cached _ => exact ⟨hc, rfl⟩
    | expired t => exact ⟨(c.dispatcher.queue.expire_closed t).trans hc, Queue.expire_ready_of_closed hc t⟩
    | closed => exact ⟨rfl, rfl⟩
    | _ => exact nomatch hm

end Crew

/-! ### The desk -/

/-- Where a visitor is: not here, or waiting for a key, or awake again, or at work with a key, or gone with an answer. -/
inductive Stage where
  | absent
  | waiting
  | woken
  | busy
  | gone (answer : Bool)
deriving DecidableEq

/-- A crew whose tasks are visitors, each of whom comes for one key. -/
structure Desk (ω κ : Type) where
  crew : Crew ω κ
  stage : ω → Stage

namespace Desk

/-- A visitor looks for a key, or is woken; or one of the crew's other moves is made. -/
inductive Move (ω κ : Type) where
  | looked (visitor : ω)
  | stirred (visitor : ω)
  | made (move : Crew.Move ω κ)

variable {ω κ : Type}

/-- The visitor that goes on. -/
def Move.visitor? : Move ω κ → Option ω
  | looked w => some w
  | stirred _ => none
  | made m => m.task?

def start : Desk ω κ := ⟨.start, fun _ => .absent⟩

/-- A visitor looks when it comes and when it was woken. Which ones of those who wait are woken is left open, and so is
when; keys are taken by those who look. -/
def Permits (d : Desk ω κ) : Move ω κ → Prop
  | .looked w => d.stage w = .absent ∨ d.stage w = .woken
  | .stirred w => d.stage w = .waiting
  | .made (.took _) => False
  | .made m => d.crew.Permits m

variable [DecidableEq ω] [ClusterObject κ]

omit [ClusterObject κ] in
/-- A visitor gets to a stage. -/
def place (d : Desk ω κ) (w : ω) (s : Stage) : Desk ω κ := { d with stage := Function.update d.stage w s }

section Place

variable (d : Desk ω κ) (w : ω) (s : Stage)

omit [ClusterObject κ] in
@[simp] theorem place_crew : (d.place w s).crew = d.crew := rfl

omit [ClusterObject κ] in
@[simp] theorem place_stage_self : (d.place w s).stage w = s := Function.update_self ..

omit [ClusterObject κ] in
variable {d w s} in
theorem place_stage_of_ne {v : ω} (h : v ≠ w) : (d.place w s).stage v = d.stage v := Function.update_of_ne h ..

end Place

/-- Closing the queue wakes all who wait; a visitor that has given its key back leaves, and there may be more to do. -/
def next (d : Desk ω κ) : Move ω κ → Desk ω κ
  | .looked w =>
    match d.crew.dispatcher.queue.take.1 with
    | .closed => d.place w (.gone false)
    | .empty => d.place w .waiting
    | .key _ => { d with crew := d.crew.next (.took w) }.place w .busy
  | .stirred w => d.place w .woken
  | .made m =>
    let d' := { d with crew := d.crew.next m }
    match m with
    | .released w => d'.place w (.gone true)
    | .closed => { d' with stage := fun w => if d.stage w = .waiting then .woken else d.stage w }
    | .took _ | .ended .. | .settled .. | .noticed _ | .cached _ | .expired _ => d'

omit [DecidableEq ω] [ClusterObject κ] in
theorem permits_of_made {d : Desk ω κ} {m : Crew.Move ω κ} (hp : d.Permits (.made m)) : d.crew.Permits m := by
  cases m with
  | took _ => exact hp.elim
  | _ => exact hp

theorem next_made_crew (d : Desk ω κ) (m : Crew.Move ω κ) : (d.next (.made m)).crew = d.crew.next m := by
  cases m <;> rfl

/-- **The desks that come about.** -/
inductive Reached : Desk ω κ → Prop
  | start : Reached start
  | next {d : Desk ω κ} {m : Move ω κ} : Reached d → d.Permits m → Reached (d.next m)

/-- The moves may come one after the other. -/
def Follows : Desk ω κ → List (Move ω κ) → Prop
  | _, [] => True
  | d, m :: ms => d.Permits m ∧ Follows (d.next m) ms

/-! ### What a move is for one visitor -/

/-- **What a move is for one visitor**, which makes it or not, while the queue is closed or not: its stage and its phase
before, what it does, its stage and its phase then. -/
inductive Turn {κ : Type} (closed : Bool) : Bool → Stage → Phase κ → List Deed → Stage → Phase κ → Prop
  | rests (s : Stage) (p : Phase κ) : Turn closed false s p [] s p
  | stirs (p : Phase κ) : Turn closed false .waiting p [] .woken p
  | leaves {s : Stage} (p : Phase κ) (h : s = .absent ∨ s = .woken) (hc : closed = true) :
    Turn closed true s p [] (.gone false) p
  | waits {s : Stage} (p : Phase κ) (h : s = .absent ∨ s = .woken) (hc : closed = false) :
    Turn closed true s p [] .waiting p
  | takes {s : Stage} (call : Call κ) (h : s = .absent ∨ s = .woken) (hc : closed = false) :
    Turn closed true s .seeking call.opening .busy call.firstPhase
  | ends (call : Call κ) (result : Except Failure Unit) (h : call.target ≠ .gone) :
    Turn closed true .busy (.handling call) [.ended call.key result] .busy (.handled call result)
  | settles (call : Call κ) (result : Except Failure Unit) :
    Turn closed true .busy (.handled call result) [] .busy (.settled call result)
  | returns (call : Call κ) (result : Except Failure Unit) :
    Turn closed true .busy (.settled call result) [.released call.key] (.gone true) .seeking

/-- What a visitor in a stage has done so far. -/
def Fits {κ : Type} (p : Phase κ) (deeds : List Deed) : Stage → Prop
  | .absent | .waiting | .woken | .gone false => p = .seeking ∧ deeds = []
  | .busy => p.call?.isSome ∧ deeds = p.deeds
  | .gone true => p = .seeking ∧ ∃ (call : Call κ) (result : Except Failure Unit), deeds = call.visit result

namespace Turn

variable {κ : Type} {closed own : Bool} {s s' : Stage} {p p' : Phase κ} {deeds more : List Deed}

theorem fits (h : Turn closed own s p more s' p') (hf : Fits p deeds s) : Fits p' (deeds ++ more) s' := by
  cases h with
  | rests => rwa [List.append_nil]
  | stirs => rwa [List.append_nil]
  | leaves _ h =>
    rw [List.append_nil]
    obtain rfl | rfl := h <;> exact hf
  | waits _ h =>
    rw [List.append_nil]
    obtain rfl | rfl := h <;> exact hf
  | takes call h =>
    have hnone : deeds = [] := by obtain rfl | rfl := h <;> exact hf.2
    rw [hnone]
    exact ⟨by rw [Phase.call?_firstPhase]; rfl, (Phase.deeds_firstPhase call).symm⟩
  | ends call result h =>
    refine ⟨rfl, ?_⟩
    rw [hf.2, Phase.deeds, Phase.deeds, Call.ending_of_ne_gone h]
  | settles call result =>
    rw [List.append_nil]
    exact ⟨rfl, hf.2⟩
  | returns call result =>
    refine ⟨rfl, call, result, ?_⟩
    rw [hf.2]
    rfl

/-- A visitor that has a key goes on with it step by step, until it has given it back. -/
theorem of_busy {call : Call κ} (h : Turn closed own .busy p more s' p') (hc : p.call? = some call)
    (hf : Fits p deeds .busy) :
    (s' = .busy ∧ p'.call? = some call ∧ p'.rank + own.toNat = p.rank) ∨
    (s' = .gone true ∧ ∃ result, deeds ++ more = call.visit result) := by
  cases h with
  | rests => exact .inl ⟨rfl, hc, rfl⟩
  | leaves _ h => exact nomatch h
  | waits _ h => exact nomatch h
  | takes _ h => exact nomatch h
  | ends => exact .inl ⟨rfl, hc, rfl⟩
  | settles => exact .inl ⟨rfl, hc, rfl⟩
  | returns called result =>
    obtain rfl := Option.some.inj hc
    refine .inr ⟨rfl, result, ?_⟩
    rw [hf.2]
    rfl

/-- Whoever is gone stays away. -/
theorem of_gone {answer : Bool} (h : Turn closed own (.gone answer) p more s' p') : s' = .gone answer ∧ more = [] := by
  cases h with
  | rests => exact ⟨rfl, rfl⟩
  | leaves _ h => exact nomatch h
  | waits _ h => exact nomatch h
  | takes _ h => exact nomatch h

/-- Nobody joins the line for a closed queue. -/
theorem ne_waiting (h : Turn true own s p more s' p') (hs : s ≠ .waiting) : s' ≠ .waiting := by
  cases h with
  | rests => exact hs
  | waits _ _ hc => exact nomatch hc
  | _ => nofun

/-- Whoever looks finds the queue closed, and leaves. -/
theorem of_idle (h : Turn true own s p more s' p') (hs : s = .absent ∨ s = .woken) :
    s' = if own then .gone false else s := by
  cases h with
  | rests => rfl
  | stirs => exact nomatch hs
  | leaves => rfl
  | waits _ _ hc => exact nomatch hc
  | takes _ _ hc => exact nomatch hc
  | _ => exact nomatch hs

end Turn

/-! ### The invariant -/

/-- **What holds of a desk all the time.** -/
structure Sound (d : Desk ω κ) : Prop where
  crew : d.crew.Reached
  fits : ∀ w, Fits (d.crew.phase w) (d.crew.deeds w) (d.stage w)
  /-- Nobody waits for a closed queue. -/
  none_waiting : d.crew.dispatcher.queue.closed = true → ∀ w, d.stage w ≠ .waiting

namespace Sound

variable {d : Desk ω κ} {w : ω} {m : Move ω κ}

theorem start : (start : Desk ω κ).Sound where
  crew := .start
  fits _ := ⟨rfl, rfl⟩
  none_waiting := nofun

theorem stage_of_call? (hs : d.Sound) {call : Call κ} (hc : (d.crew.phase w).call? = some call) : d.stage w = .busy := by
  have hfits := hs.fits w
  have hne : d.crew.phase w ≠ .seeking := fun e => by
    rw [e] at hc
    exact nomatch hc
  cases hstage : d.stage w with
  | busy => rfl
  | gone answer =>
    rw [hstage] at hfits
    cases answer <;> exact absurd hfits.1 hne
  | _ =>
    rw [hstage] at hfits
    exact absurd hfits.1 hne

/-- A visitor that looks finds the queue closed, or empty, or takes a key. -/
theorem looked_cases (hs : d.Sound) (hp : d.Permits (.looked w)) :
    (d.crew.dispatcher.queue.closed = true ∧ d.next (.looked w) = d.place w (.gone false)) ∨
    (d.crew.dispatcher.queue.closed = false ∧ d.next (.looked w) = d.place w .waiting) ∨
    ∃ call d', d.crew.dispatcher.queue.closed = false ∧ d.crew.phase w = .seeking ∧
      d.crew.dispatcher.begin? = some (call, d') ∧
      d.next (.looked w) = { d with crew := d.crew.enter w call.firstPhase call.opening d' }.place w .busy := by
  have hphase : d.crew.phase w = .seeking := by
    have hfits := hs.fits w
    obtain h | h : d.stage w = .absent ∨ d.stage w = .woken := hp <;> rw [h] at hfits <;> exact hfits.1
  cases hc : d.crew.dispatcher.queue.closed with
  | true => exact .inl ⟨rfl, by simp only [next, Queue.take_of_closed hc]⟩
  | false =>
    right
    cases hr : d.crew.dispatcher.queue.ready with
    | nil =>
      have ht : d.crew.dispatcher.queue.take.1 = .empty := by simp [Queue.take, hc, hr]
      exact .inl ⟨rfl, by simp only [next, ht]⟩
    | cons key rest =>
      have ht : d.crew.dispatcher.queue.take.1 = .key key := by simp [Queue.take, hc, hr]
      have hsome : d.crew.dispatcher.begin?.isSome := by simp [Dispatcher.begin?, Queue.take, hc, hr]
      obtain ⟨⟨call, d'⟩, hb⟩ := Option.isSome_iff_exists.mp hsome
      exact .inr ⟨call, d', rfl, hphase, hb, by simp only [next, ht, Crew.next_took hb]⟩

/-- The visitor that makes a move. -/
theorem turn_self (hs : d.Sound) (hp : d.Permits m) (hw : m.visitor? = some w) :
    ∃ more, (d.next m).crew.deeds w = d.crew.deeds w ++ more ∧
      Turn d.crew.dispatcher.queue.closed true (d.stage w) (d.crew.phase w) more ((d.next m).stage w)
        ((d.next m).crew.phase w) := by
  cases m with
  | looked v =>
    obtain rfl := Option.some.inj hw
    obtain ⟨hc, e⟩ | ⟨hc, e⟩ | ⟨call, d', hc, hphase, -, e⟩ := hs.looked_cases hp <;>
      rw [e, place_stage_self, place_crew]
    · exact ⟨[], (List.append_nil _).symm, .leaves _ hp hc⟩
    · exact ⟨[], (List.append_nil _).symm, .waits _ hp hc⟩
    · rw [Crew.enter_deeds_self, Crew.enter_phase_self, hphase]
      exact ⟨_, rfl, .takes call hp hc⟩
  | stirred v => exact nomatch hw
  | made m =>
    cases m with
    | took v => exact hp.elim
    | ended v result =>
      obtain rfl := Option.some.inj hw
      obtain ⟨call, hphase⟩ := hp
      have hcall : (d.crew.phase v).call? = some call := by rw [hphase]; rfl
      have hstage := hs.stage_of_call? hcall
      have habout := hs.crew.sound.about v call hphase
      simp only [next, Crew.next_ended hphase, Crew.enter_deeds_self, Crew.enter_phase_self, hstage, hphase]
      exact ⟨_, rfl, .ends call result habout⟩
    | settled v now =>
      obtain rfl := Option.some.inj hw
      obtain ⟨call, result, hphase⟩ := hp
      have hcall : (d.crew.phase v).call? = some call := by rw [hphase]; rfl
      have hstage := hs.stage_of_call? hcall
      simp only [next, Crew.next_settled hphase, Crew.enter_deeds_self, Crew.enter_phase_self, hstage, hphase]
      exact ⟨_, rfl, .settles call result⟩
    | released v =>
      obtain rfl := Option.some.inj hw
      obtain ⟨call, result, hphase⟩ := hp
      have hcall : (d.crew.phase v).call? = some call := by rw [hphase]; rfl
      have hstage := hs.stage_of_call? hcall
      simp only [next, place_crew, place_stage_self, Crew.next_released hphase, Crew.enter_deeds_self,
        Crew.enter_phase_self, hstage, hphase]
      exact ⟨_, rfl, .returns call result⟩
    | _ => exact nomatch hw

/-- The others stay as they are, but for one who waits and is woken. -/
theorem next_of_ne (hs : d.Sound) (hp : d.Permits m) (hw : m.visitor? ≠ some w) :
    (d.next m).crew.deeds w = d.crew.deeds w ∧ (d.next m).crew.phase w = d.crew.phase w ∧
      ((d.next m).stage w = d.stage w ∨ (d.stage w = .waiting ∧ (d.next m).stage w = .woken)) := by
  cases m with
  | looked v =>
    have hne : w ≠ v := fun e => hw (e ▸ rfl)
    obtain ⟨-, e⟩ | ⟨-, e⟩ | ⟨call, d', -, -, -, e⟩ := hs.looked_cases hp <;>
      rw [e, place_crew, place_stage_of_ne hne]
    · exact ⟨rfl, rfl, .inl rfl⟩
    · exact ⟨rfl, rfl, .inl rfl⟩
    · exact ⟨Crew.enter_deeds_of_ne hne, Crew.enter_phase_of_ne hne, .inl rfl⟩
  | stirred v =>
    refine ⟨rfl, rfl, ?_⟩
    by_cases hv : w = v
    · subst hv
      exact .inr ⟨hp, place_stage_self ..⟩
    · exact .inl (place_stage_of_ne hv)
  | made m =>
    obtain ⟨hphase, hdeeds⟩ := Crew.next_of_ne (permits_of_made hp) hw
    cases m with
    | took v => exact hp.elim
    | released v => exact ⟨hdeeds, hphase, .inl (place_stage_of_ne fun e => hw (e ▸ rfl))⟩
    | closed =>
      refine ⟨hdeeds, hphase, ?_⟩
      by_cases hwait : d.stage w = .waiting
      · exact .inr ⟨hwait, if_pos hwait⟩
      · exact .inl (if_neg hwait)
    | _ => exact ⟨hdeeds, hphase, .inl rfl⟩

/-- **A move is a turn of every visitor.** -/
theorem turn (hs : d.Sound) (hp : d.Permits m) (w : ω) :
    ∃ more, (d.next m).crew.deeds w = d.crew.deeds w ++ more ∧
      Turn d.crew.dispatcher.queue.closed (m.visitor? = some w) (d.stage w) (d.crew.phase w) more ((d.next m).stage w)
        ((d.next m).crew.phase w) := by
  by_cases hw : m.visitor? = some w
  · rw [decide_eq_true hw]
    exact hs.turn_self hp hw
  · obtain ⟨hdeeds, hphase, hstage⟩ := hs.next_of_ne hp hw
    refine ⟨[], by rw [hdeeds, List.append_nil], ?_⟩
    rw [decide_eq_false hw, hphase]
    obtain e | ⟨e, e'⟩ := hstage
    · rw [e]
      exact .rests _ _
    · rw [e, e']
      exact .stirs _

/-- A move at the desk is a move of the crew, or the crew stays as it is. -/
theorem crew_next (hs : d.Sound) (hp : d.Permits m) :
    (d.next m).crew = d.crew ∨
    ∃ m', d.crew.Permits m' ∧ (d.next m).crew = d.crew.next m' ∧ (m' = .closed → m = .made .closed) := by
  cases m with
  | looked w =>
    obtain ⟨-, e⟩ | ⟨-, e⟩ | ⟨call, d', -, hphase, hb, e⟩ := hs.looked_cases hp <;> rw [e, place_crew]
    · exact .inl rfl
    · exact .inl rfl
    · exact .inr ⟨.took w, ⟨hphase, by rw [hb]; rfl⟩, (Crew.next_took hb).symm, nofun⟩
  | stirred w => exact .inl rfl
  | made m =>
    exact .inr ⟨m, permits_of_made hp, next_made_crew d m, fun e => by rw [e]⟩

theorem next (hs : d.Sound) (hp : d.Permits m) : (d.next m).Sound := by
  refine ⟨?_, ?_, ?_⟩
  · obtain e | ⟨m', hp', e, -⟩ := hs.crew_next hp <;> rw [e]
    · exact hs.crew
    · exact hs.crew.next hp'
  · intro w
    obtain ⟨more, hdeeds, hturn⟩ := hs.turn hp w
    rw [hdeeds]
    exact hturn.fits (hs.fits w)
  · intro hc w
    by_cases hm : m = .made .closed
    · subst hm
      show (if d.stage w = .waiting then Stage.woken else d.stage w) ≠ .waiting
      split
      · nofun
      · assumption
    · -- the queue was closed before, and nobody waited
      have hclosed : d.crew.dispatcher.queue.closed = true := by
        obtain e | ⟨m', hp', e, hm'⟩ := hs.crew_next hp <;> rw [e] at hc
        · exact hc
        · rwa [Crew.closed_next hp' fun h => hm (hm' h)] at hc
      obtain ⟨more, -, hturn⟩ := hs.turn hp w
      rw [hclosed] at hturn
      exact hturn.ne_waiting (hs.none_waiting hclosed w)

end Sound

/-- **Every desk that comes about is sound.** -/
theorem Reached.sound {d : Desk ω κ} (hr : Reached d) : d.Sound := by
  induction hr with
  | start => exact .start
  | next _ hp ih => exact ih.next hp

/-! ### Whole runs -/

/-- The desk after some moves. -/
def after (d : Desk ω κ) (ms : List (Move ω κ)) : Desk ω κ := ms.foldl next d

theorem Reached.follow {d : Desk ω κ} (hr : Reached d) {ms : List (Move ω κ)} (hm : Follows d ms) :
    Reached (d.after ms) := by
  induction ms generalizing d with
  | nil => exact hr
  | cons m ms ih => exact ih (hr.next hm.1) hm.2

variable {d : Desk ω κ} {w : ω} {ms : List (Move ω κ)}

theorem after_cons (d : Desk ω κ) (m : Move ω κ) (ms : List (Move ω κ)) : d.after (m :: ms) = (d.next m).after ms := rfl

theorem quiet_follow (hs : d.Sound) (hc : d.crew.dispatcher.queue.closed = true) (hm : Follows d ms) :
    Crew.Quiet d.crew (d.after ms).crew := by
  induction ms generalizing d with
  | nil => exact ⟨hc, rfl, fun _ => rfl⟩
  | cons m ms ih =>
    have hstep : Crew.Quiet d.crew (d.next m).crew := by
      obtain e | ⟨m', hp', e, -⟩ := hs.crew_next hm.1 <;> rw [e]
      · exact ⟨hc, rfl, fun _ => rfl⟩
      · exact Crew.next_of_closed hc hp'
    exact hstep.trans (ih (hs.next hm.1) hstep.closed hm.2)

theorem gone_follow (hs : d.Sound) {answer : Bool} (hstage : d.stage w = .gone answer) (hm : Follows d ms) :
    (d.after ms).stage w = .gone answer ∧ (d.after ms).crew.deeds w = d.crew.deeds w := by
  induction ms generalizing d with
  | nil => exact ⟨hstage, rfl⟩
  | cons m ms ih =>
    obtain ⟨more, hdeeds, hturn⟩ := hs.turn hm.1 w
    rw [hstage] at hturn
    obtain ⟨hstage', rfl⟩ := hturn.of_gone
    obtain ⟨h, h'⟩ := ih (hs.next hm.1) hstage' hm.2
    exact ⟨h, by rw [after_cons, h', hdeeds, List.append_nil]⟩

/-- **A visitor that has a key** still has it, a move closer to the end with each one of its own, or has given it back. -/
theorem busy_follow (hs : d.Sound) {call : Call κ} (hc : (d.crew.phase w).call? = some call) (hm : Follows d ms) :
    (((d.after ms).crew.phase w).call? = some call ∧ ((d.after ms).crew.phase w).rank +
      (ms.filter fun m => m.visitor? = some w).length = (d.crew.phase w).rank) ∨
    ((d.after ms).stage w = .gone true ∧
      ∃ result, (d.after ms).crew.deeds w = call.visit result) := by
  induction ms generalizing d with
  | nil => exact .inl ⟨hc, rfl⟩
  | cons m ms ih =>
    have hs' := hs.next hm.1
    obtain ⟨more, hdeeds, hturn⟩ := hs.turn hm.1 w
    have hstage := hs.stage_of_call? hc
    have hfits := hs.fits w
    rw [hstage] at hturn hfits
    obtain ⟨-, hc', hrank⟩ | ⟨hgone, result, hvisit⟩ := hturn.of_busy hc hfits
    · obtain ⟨h, hrank'⟩ | h := ih hs' hc' hm.2
      · left
        refine ⟨h, ?_⟩
        rw [after_cons, List.filter_cons]
        cases hown : decide (m.visitor? = some w) <;> rw [hown] at hrank
        · exact hrank'.trans hrank
        · rw [if_pos rfl, List.length_cons, ← Nat.add_assoc, hrank']
          exact hrank
      · exact .inr h
    · obtain ⟨h, h'⟩ := gone_follow hs' hgone hm.2
      exact .inr ⟨h, result, by rw [after_cons, h', hdeeds, hvisit]⟩

omit [DecidableEq ω] [ClusterObject κ] in
/-- A visitor that has a key can move on. -/
theorem exists_permits {call : Call κ} (hc : (d.crew.phase w).call? = some call) :
    ∃ m : Move ω κ, m.visitor? = some w ∧ d.Permits m := by
  obtain ⟨m, hm, hp⟩ := Crew.exists_permits hc
  refine ⟨.made m, hm, ?_⟩
  cases m with
  | took v =>
    obtain rfl := Option.some.inj hm
    rw [hp.1] at hc
    exact nomatch hc
  | _ => exact hp

theorem stage_looked_of_closed (hc : d.crew.dispatcher.queue.closed = true) (w : ω) :
    (d.next (.looked w)).stage w = .gone false := by
  simp only [next, Queue.take_of_closed hc, place_stage_self]

/-- All that a visitor without a key does by itself is to look. -/
theorem eq_looked_of_idle (hs : d.Sound) {m : Move ω κ} (hp : d.Permits m)
    (hstage : d.stage w = .absent ∨ d.stage w = .woken) (hw : m.visitor? = some w) : m = .looked w := by
  have hnone : ∀ call, (d.crew.phase w).call? ≠ some call := by
    intro call hc
    rw [hs.stage_of_call? hc] at hstage
    exact nomatch hstage
  cases m with
  | looked v => rw [Option.some.inj hw]
  | stirred v => exact nomatch hw
  | made m =>
    obtain ⟨call, hc⟩ : ∃ call, (d.crew.phase w).call? = some call := by
      cases m with
      | took v => exact hp.elim
      | ended v result =>
        obtain rfl := Option.some.inj hw
        obtain ⟨call, hphase⟩ := hp
        exact ⟨call, by rw [hphase]; rfl⟩
      | settled v now =>
        obtain rfl := Option.some.inj hw
        obtain ⟨call, result, hphase⟩ := hp
        exact ⟨call, by rw [hphase]; rfl⟩
      | released v =>
        obtain rfl := Option.some.inj hw
        obtain ⟨call, result, hphase⟩ := hp
        exact ⟨call, by rw [hphase]; rfl⟩
      | _ => exact nomatch hw
    exact absurd hc (hnone call)

/-- A visitor that finds the queue closed leaves as soon as it looks. -/
theorem idle_follow (hs : d.Sound) (hc : d.crew.dispatcher.queue.closed = true)
    (hstage : d.stage w = .absent ∨ d.stage w = .woken) (hm : Follows d ms) :
    (.looked w ∈ ms → (d.after ms).stage w = .gone false) ∧
    (.looked w ∉ ms → (d.after ms).Permits (.looked w)) := by
  induction ms generalizing d with
  | nil => exact ⟨nofun, fun _ => hstage⟩
  | cons m ms ih =>
    have hs' := hs.next hm.1
    obtain ⟨more, -, hturn⟩ := hs.turn hm.1 w
    rw [hc] at hturn
    have hstage' := hturn.of_idle hstage
    by_cases hw : m.visitor? = some w
    · obtain rfl := eq_looked_of_idle hs hm.1 hstage hw
      rw [if_pos (decide_eq_true hw)] at hstage'
      exact ⟨fun _ => (gone_follow hs' hstage' hm.2).1, fun h => absurd List.mem_cons_self h⟩
    · have hne : Move.looked w ≠ m := fun e => hw (e ▸ rfl)
      rw [if_neg (by simpa using hw)] at hstage'
      rw [List.mem_cons, or_iff_right hne]
      have hstep : Follows d [m] := ⟨hm.1, trivial⟩
      exact ih hs' (quiet_follow hs hc hstep).closed (hstage' ▸ hstage) hm.2

/-- **Nothing starts after the queue was closed.**  It stays closed, whatever comes then, no key becomes ready and no handler
is called; whoever waited for a key, was on the way to one or comes later leaves as soon as it looks, and is told that there
is nothing more to do; whoever had a key still has it and can move on, or has completed its visit and is told that there may
be more, and that is so once it has made its own moves. -/
theorem Reached.nothing_starts (hr : Reached d) (hm : Follows d (.made .closed :: ms)) :
    (d.after (.made .closed :: ms)).crew.dispatcher.queue.closed = true ∧
    (d.after (.made .closed :: ms)).crew.dispatcher.queue.ready = d.crew.dispatcher.queue.ready ∧
    (∀ w, ((d.after (.made .closed :: ms)).crew.deeds w).filterMap Deed.called? =
      (d.crew.deeds w).filterMap Deed.called?) ∧
    (∀ w, d.stage w = .absent ∨ d.stage w = .waiting ∨ d.stage w = .woken →
      (.looked w ∈ ms → (d.after (.made .closed :: ms)).stage w = .gone false) ∧
      (.looked w ∉ ms → (d.after (.made .closed :: ms)).Permits (.looked w) ∧
        ((d.after (.made .closed :: ms)).next (.looked w)).stage w = .gone false)) ∧
    ∀ w, d.stage w = .busy → ∃ call, (d.crew.phase w).call? = some call ∧
      (((d.after (.made .closed :: ms)).stage w = .busy ∧
          ∃ m, m.visitor? = some w ∧ (d.after (.made .closed :: ms)).Permits m) ∨
        ((d.after (.made .closed :: ms)).stage w = .gone true ∧
          ∃ result, (d.after (.made .closed :: ms)).crew.deeds w = call.visit result)) ∧
      ((d.crew.phase w).rank ≤ (ms.filter fun m => m.visitor? = some w).length →
        (d.after (.made .closed :: ms)).stage w = .gone true) := by
  have hs := hr.sound
  have hs' := hs.next hm.1
  have hclosed : (d.next (.made .closed)).crew.dispatcher.queue.closed = true := rfl
  have hquiet := quiet_follow hs' hclosed hm.2
  refine ⟨hquiet.closed, hquiet.ready_eq, hquiet.called_eq, ?_, ?_⟩
  · intro w hw
    have hidle : (d.next (.made .closed)).stage w = .absent ∨ (d.next (.made .closed)).stage w = .woken := by
      show (if d.stage w = .waiting then Stage.woken else d.stage w) = _ ∨ (if _ then _ else _) = _
      obtain h | h | h := hw <;> simp [h]
    obtain ⟨hlooked, hidle'⟩ := idle_follow hs' hclosed hidle hm.2
    exact ⟨hlooked, fun h => ⟨hidle' h, stage_looked_of_closed hquiet.closed w⟩⟩
  · intro w hw
    have hfits := hs.fits w
    rw [hw] at hfits
    obtain ⟨call, hc⟩ := Option.isSome_iff_exists.mp hfits.1
    have hc' : ((d.next (.made .closed)).crew.phase w).call? = some call := hc
    have hend := busy_follow hs' hc' hm.2
    refine ⟨call, hc, ?_, ?_⟩
    · obtain ⟨hcall, -⟩ | hgone := hend
      · exact .inl ⟨(hr.follow hm).sound.stage_of_call? hcall, exists_permits hcall⟩
      · exact .inr hgone
    · intro hrank
      obtain ⟨hcall, hleft⟩ | ⟨hgone, -⟩ := hend
      · -- whoever has a key has a move left
        have hpos := Phase.rank_pos hcall
        have hsame : (d.next (.made .closed)).crew.phase w = d.crew.phase w := rfl
        rw [hsame] at hleft
        omega
      · exact hgone

/-- A visitor is at work on an object, and another one waits. -/
def morning : List (Move Nat Namespace) :=
  [.made (.cached (.ofList [Crew.version "1"])), .made (.noticed (.apply (Crew.version "1"))), .looked 0, .looked 1]

/-- After the end, the object changes, the call that is under way fails, its key comes up once more, the one who waited looks
again, and one more comes. -/
def evening : List (Move Nat Namespace) :=
  [.made (.noticed (.apply (Crew.version "2"))), .made (.ended 0 (.error (.storage .malformed))), .made (.settled 0 7),
    .made (.released 0), .made (.expired ⟨12, ⟨none, "a"⟩⟩), .looked 1, .looked 2]

theorem follows_morning : Follows start morning := ⟨trivial, trivial, .inl rfl, .inl rfl, trivial⟩

theorem follows_evening : Follows (start.after morning) (.made .closed :: evening) :=
  ⟨trivial, trivial, ⟨_, rfl⟩, ⟨_, _, rfl⟩, ⟨_, _, rfl⟩, .head _, .inr rfl, .inl rfl, trivial⟩

theorem nothing_starts_evening :
    ((start.after morning).after (.made .closed :: evening)).crew.dispatcher.queue.ready = [] ∧
    ((start.after morning).after (.made .closed :: evening)).stage 0 = .gone true ∧
    ((start.after morning).after (.made .closed :: evening)).stage 1 = .gone false ∧
    ((start.after morning).after (.made .closed :: evening)).stage 2 = .gone false := by
  obtain ⟨-, hready, -, hidle, hbusy⟩ :=
    Reached.nothing_starts (Reached.start.follow follows_morning) follows_evening
  obtain ⟨call, hc, -, hgone⟩ := hbusy 0 rfl
  have hrank : ((start.after morning).crew.phase 0).rank = 3 := rfl
  refine ⟨hready, hgone (by rw [hrank]; decide), (hidle 1 (.inr (.inl rfl))).1 ?_, (hidle 2 (.inl rfl)).1 ?_⟩
  · simp [evening]
  · simp [evening]

end Desk

end FleetAtlas
