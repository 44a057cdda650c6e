import FleetAtlas.Proofs.Task.Independence
import FleetAtlas.Proofs.Task.Writes

/-!
# Tasks that only store entities

* `Task.Stores P t`: the task stores entities under uids that `P` admits, and it never looks at what is stored;
* `Stores.bind`, `stores_store`: the rules;
* `Stores.within`, `Stores.writes`: **so where it stores is all that there is to know**, be it alone or one of many;
* `Within.spares`, `Within.keeps`: what the uids that a task has to do with cannot break is kept.
-/

namespace FleetAtlas.Task

variable {α β : Type} {P Q : Family → String → Prop}

/-- **The task only stores entities**, each under a uid that `P` admits; it may ask for the time, and for nothing else. -/
def Stores (P : Family → String → Prop) : Task α → Prop
  | done _ | fail _ => True
  | set f r next => (∃ e : Entity f, r = e.toRecord ∧ P f e.uid.text) ∧ Stores P next
  | now next => ∀ time, Stores P (next time)
  | get _ _ _ | list _ _ _ | pods _ | stopping _ | counted _ => False

/-! ### Rules -/

theorem Stores.bind {t : Task α} {k : α → Task β} (h : t.Stores P) (hk : ∀ a, (k a).Stores P) : (t.bind k).Stores P := by
  induction t with
  | done a => exact hk a
  | fail e => trivial
  | set f r next ih => exact ⟨h.1, ih h.2⟩
  | now next ih => exact fun time => ih time (h time)
  | get | list | pods | stopping | counted => exact h.elim

theorem stores_store {f : Family} {e : Entity f} (h : P f e.uid.text) : (store e).Stores P := ⟨⟨e, rfl, h⟩, trivial⟩

theorem Stores.mono {t : Task α} (h : t.Stores P) (hPQ : ∀ f uid, P f uid → Q f uid) : t.Stores Q := by
  induction t with
  | done a => trivial
  | fail e => trivial
  | set f r next ih =>
    obtain ⟨⟨e, hr, he⟩, hnext⟩ := h
    exact ⟨⟨e, hr, hPQ f _ he⟩, ih hnext⟩
  | now next ih => exact fun time => ih time (h time)
  | get | list | pods | stopping | counted => exact h.elim

/-! ### What follows -/

theorem Stores.within {t : Task α} (h : t.Stores P) : t.Within P := by
  induction t with
  | done a => trivial
  | fail e => trivial
  | set f r next ih =>
    obtain ⟨⟨e, rfl, he⟩, hnext⟩ := h
    exact ⟨he, ih hnext⟩
  | now next ih => exact fun time => ih time (h time)
  | get | list | pods | stopping | counted => exact h.elim

theorem Stores.writes {W : Store → Family → Record → Prop} {L : List Pod → Prop} {t : Task α} (h : t.Stores P)
    (hW : ∀ s f (e : Entity f), P f e.uid.text → W s f e.toRecord) (s : Store) : t.Writes W L (fun _ _ => True) s := by
  induction t generalizing s with
  | done a => trivial
  | fail e => trivial
  | set f r next ih =>
    obtain ⟨⟨e, rfl, he⟩, hnext⟩ := h
    exact ⟨hW s f e he, fun s' _ => ih hnext s'⟩
  | now next ih => exact fun time => ih time (h time) s
  | get | list | pods | stopping | counted => exact h.elim

theorem Within.mono {t : Task α} (h : t.Within P) (hPQ : ∀ f uid, P f uid → Q f uid) : t.Within Q := by
  induction t with
  | done a => trivial
  | fail e => trivial
  | set f r next ih => exact ⟨hPQ f _ h.1, ih h.2⟩
  | get f uid next ih => exact ⟨hPQ f uid h.1, fun answer => ih answer (h.2 answer)⟩
  | list f selection next ih => exact h.elim
  | now next ih => exact fun time => ih time (h time)
  | pods next ih => exact fun pods => ih pods (h pods)
  | stopping next ih => exact fun flag => ih flag (h flag)
  | counted next ih => exact ih h

/-- A family of which no uid is among these is spared. -/
theorem Within.spares {g : Family} {t : Task α} (h : t.Within P) (hg : ∀ uid, ¬ P g uid) : t.Spares g := by
  induction t with
  | done a => trivial
  | fail e => trivial
  | set f r next ih =>
    have hne : f ≠ g := by
      rintro rfl
      exact hg r.uid h.1
    exact ⟨hne, ih h.2⟩
  | get f uid next ih => exact fun answer => ih answer (h.2 answer)
  | list f selection next ih => exact h.elim
  | now next ih => exact fun time => ih time (h time)
  | pods next ih => exact fun pods => ih pods (h pods)
  | stopping next ih => exact fun flag => ih flag (h flag)
  | counted next ih => exact ih h

/-- **What no write under these uids breaks** is kept. -/
theorem Within.keeps {I : Store → Prop} {L : List Pod → Prop} {t : Task α} (h : t.Within P)
    (hI : ∀ {s s' f r}, P f r.uid → I s → s.set f r = .ok s' → I s') : t.Keeps I L fun _ => True := by
  induction t with
  | done a => trivial
  | fail e => trivial
  | set f r next ih => exact fun s s' hs hset => ⟨hI h.1 hs hset, ih h.2⟩
  | get f uid next ih => exact fun _ answer _ _ => ih answer (h.2 answer)
  | list f selection next ih => exact h.elim
  | now next ih => exact fun time => ih time (h time)
  | pods next ih => exact fun pods _ => ih pods (h pods)
  | stopping next ih => exact fun flag => ih flag (h flag)
  | counted next ih => exact ih h

end FleetAtlas.Task
