import FleetAtlas.Task.Run

/-!
# How tasks end

* `t.MayEnd cached s result s'`: from the site `s`, the task `t` may end with this result and leave the site `s'`, where the
  flag that asks tasks to end may be raised at any moment;
* `mayEnd_run`: a run is such an end, one in which nobody raises the flag midway.

A task sees the flag only when it asks, so that it was raised in between comes to an answer which the site does not give.
-/

namespace FleetAtlas

namespace Task

variable {α : Type}

/-- **How a task may end** when the flag may be raised while it runs, but is not taken down; `cached` are the pods all the
while. -/
def MayEnd (cached : List Pod) (s : Site) : Task α → Except Failure α → Site → Prop
  | done a, result, s' => result = .ok a ∧ s' = s
  | fail e, result, s' => result = .error e ∧ s' = s
  | set f r next, result, s' =>
    match s.service.set f r with
    | (.ok (), service) => MayEnd cached { s with service } next result s'
    | (.error e, service) => result = .error (.storage e) ∧ s' = { s with service }
  | get f uid next, result, s' =>
    match s.service.get f uid with
    | (.ok answer, service) => MayEnd cached { s with service } (next answer) result s'
    | (.error e, service) => result = .error (.storage e) ∧ s' = { s with service }
  | list f selection next, result, s' =>
    match s.service.list f selection with
    | (.ok answer, service) => MayEnd cached { s with service } (next answer) result s'
    | (.error e, service) => result = .error (.storage e) ∧ s' = { s with service }
  | now next, result, s' => MayEnd cached s.tick (next s.time) result s'
  | pods next, result, s' => MayEnd cached s (next cached) result s'
  | stopping next, result, s' =>
    ∃ flag, (s.stopping = true → flag = true) ∧ MayEnd cached { s with stopping := flag } (next flag) result s'
  | counted next, result, s' => MayEnd cached { s with metrics := s.metrics.countStopped 1 } next result s'

/-- A run is an end of its task. -/
theorem mayEnd_run (cached : List Pod) (t : Task α) (s : Site) :
    t.MayEnd cached s (run cached t s).1 (run cached t s).2 := by
  induction t generalizing s with
  | done a => exact ⟨rfl, rfl⟩
  | fail e => exact ⟨rfl, rfl⟩
  | set f r next ih =>
    unfold MayEnd run
    rcases s.service.set f r with ⟨_ | _, service⟩
    · exact ⟨rfl, rfl⟩
    · exact ih { s with service }
  | get f uid next ih =>
    unfold MayEnd run
    rcases s.service.get f uid with ⟨e | answer, service⟩
    · exact ⟨rfl, rfl⟩
    · exact ih answer { s with service }
  | list f selection next ih =>
    unfold MayEnd run
    rcases s.service.list f selection with ⟨e | answer, service⟩
    · exact ⟨rfl, rfl⟩
    · exact ih answer { s with service }
  | now next ih => exact ih s.time s.tick
  | pods next ih => exact ih cached s
  | stopping next ih => exact ⟨s.stopping, id, ih s.stopping s⟩
  | counted next ih => exact ih { s with metrics := s.metrics.countStopped 1 }

end Task

end FleetAtlas
