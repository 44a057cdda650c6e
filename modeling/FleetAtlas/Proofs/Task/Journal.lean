import FleetAtlas.Proofs.Task.Writes

/-!
# What a run has written

* `Task.Trace W s writes s'`: admitted writes, one after the other, lead from one store to another; `Trace.stable`: they
  keep what admitted writes keep;
* `Trace.get_of_notMem`, `Trace.exists_last`: a record that is not written stays as it is; of one that is, the last write
  is what there is in the end;
* `Writes.exists_trace`: **a run makes such writes, and its journal says which**;
* `Wrote before after f uid`: something was stored under a uid, as the journals say;
* `Writes.wrote_or_same`, `Writes.exists_last`: **a record was written last by an admitted write, or it is as it was**.

Any call may fail, and a run that fails has written what it has written.
-/

namespace FleetAtlas

/-- The record that a write is of, among all records. -/
def keyOf (write : Family × Record) : Family × String := (write.1, write.2.uid)

/-- Something was stored under a uid between two moments, as the journals say. -/
def Wrote (before after : Site) (f : Family) (uid : String) : Prop :=
  ∃ written, after.service.journal = written ++ before.service.journal ∧ (f, uid) ∈ written

theorem Wrote.of_mem {before after : Site} {f : Family} {uid : String} (hbefore : before.service.journal = [])
    (h : (f, uid) ∈ after.service.journal) : Wrote before after f uid := by
  refine ⟨after.service.journal, ?_, h⟩
  rw [hbefore, List.append_nil]

namespace Task

variable {α : Type} {W : Store → Family → Record → Prop} {L : List Pod → Prop} {Q : α → Store → Prop}
  {s s' : Store} {writes : List (Family × Record)} {f : Family} {uid : String}

/-! ### Writes one after the other -/

/-- **Writes that are admitted when they are made**, one after the other. -/
inductive Trace (W : Store → Family → Record → Prop) : Store → List (Family × Record) → Store → Prop
  | nil {s : Store} : Trace W s [] s
  | cons {s s₁ s' : Store} {f : Family} {r : Record} {writes : List (Family × Record)} :
    W s f r → s.set f r = .ok s₁ → Trace W s₁ writes s' → Trace W s ((f, r) :: writes) s'

namespace Trace

theorem stable {I : Store → Prop} (hI : Stable W I) (h : Trace W s writes s') (hs : I s) : I s' := by
  induction h with
  | nil => exact hs
  | cons hW hset _ ih => exact ih (hI hs hW hset)

/-- **A record that is not written** stays as it is. -/
theorem get_of_notMem (h : Trace W s writes s') (hnot : (f, uid) ∉ writes.map keyOf) : s'.get f uid = s.get f uid := by
  induction h with
  | nil => rfl
  | cons _ hset _ ih =>
    rw [List.map_cons, List.mem_cons, not_or] at hnot
    rw [ih hnot.2]
    refine Store.get_set_of_ne hset ?_
    rintro ⟨rfl, rfl⟩
    exact hnot.1 rfl

/-- A write of a record, after which it was not written any more. -/
structure Last (W : Store → Family → Record → Prop) (s : Store) (f : Family) (uid : String) (s' : Store) (s₁ : Store)
    (r : Record) (s₂ : Store) : Prop where
  earlier : ∃ writes, Trace W s writes s₁
  uid_eq : r.uid = uid
  admitted : W s₁ f r
  set : s₁.set f r = .ok s₂
  get_eq : s'.get f uid = s₂.get f uid

/-- **Of a record that is written**, the last write is what there is in the end. -/
theorem exists_last (h : Trace W s writes s') (hmem : (f, uid) ∈ writes.map keyOf) : ∃ s₁ r s₂, Last W s f uid s' s₁ r s₂ := by
  induction h with
  | nil => exact nomatch hmem
  | @cons s s₁ s' g q rest hW hset hrest ih =>
    by_cases hlater : (f, uid) ∈ rest.map keyOf
    · obtain ⟨s₂, r, s₃, hlast⟩ := ih hlater
      obtain ⟨writes, hwrites⟩ := hlast.earlier
      exact ⟨s₂, r, s₃, { hlast with earlier := ⟨_, .cons hW hset hwrites⟩ }⟩
    · rcases List.mem_cons.mp hmem with heq | hmem
      · obtain ⟨rfl, rfl⟩ := Prod.mk.inj heq
        exact ⟨s, q, s₁, ⟨[], .nil⟩, rfl, hW, hset, hrest.get_of_notMem hlater⟩
      · exact absurd hmem hlater

end Trace

/-! ### Runs -/

/-- **A run makes admitted writes, and notes them down.** -/
theorem Writes.exists_trace {t : Task α} {cached : List Pod} (site : Site) (h : t.Writes W L Q site.service.store)
    (hl : L cached) : ∃ writes, Trace W site.service.store writes (run cached t site).2.service.store ∧
      (run cached t site).2.service.journal = (writes.map keyOf).reverse ++ site.service.journal := by
  induction t generalizing site with
  | done a => exact ⟨[], .nil, rfl⟩
  | fail e => exact ⟨[], .nil, rfl⟩
  | set f r next ih =>
    rcases site.service.set_cases f r with ⟨e, s', hset, hstore⟩ | ⟨s', hset, hstore⟩ <;> rw [run, hset]
    · exact ⟨[], by rw [hstore]; exact .nil, Service.journal_of_set_error hset⟩
    · obtain ⟨writes, htrace, hjournal⟩ := ih { site with service := s' } (h.2 _ hstore)
      refine ⟨(f, r) :: writes, .cons h.1 hstore htrace, ?_⟩
      rw [hjournal, Service.journal_of_set_ok hset]
      simp [keyOf]
  | get f uid next ih =>
    have hjournal := site.service.journal_get f uid
    obtain ⟨s', hstore, ⟨e, hget⟩ | ⟨answer, hget, hanswer⟩⟩ := site.service.get_cases f uid <;>
      rw [hget] at hjournal <;> rw [run, hget]
    · exact ⟨[], by rw [hstore]; exact .nil, hjournal⟩
    · have hnext := ih answer { site with service := s' } (hstore ▸ h answer hanswer)
      rwa [hstore, hjournal] at hnext
  | list f selection next ih =>
    have hjournal := site.service.journal_list f selection
    obtain ⟨s', hstore, ⟨e, hlist⟩ | ⟨answer, hlist, hanswer⟩⟩ := site.service.list_cases f selection <;>
      rw [hlist] at hjournal <;> rw [run, hlist]
    · exact ⟨[], by rw [hstore]; exact .nil, hjournal⟩
    · have hnext := ih answer { site with service := s' } (hstore ▸ h answer hanswer)
      rwa [hstore, hjournal] at hnext
  | now next ih => exact ih _ site.tick (h _)
  | pods next ih => exact ih _ site (h _ hl)
  | stopping next ih => exact ih _ site (h _)
  | counted next ih => exact ih { site with metrics := site.metrics.countStopped 1 } h

/-- **A record was written last by an admitted write, or it is as it was.** -/
theorem Writes.wrote_or_same {t : Task α} {cached : List Pod} {site : Site} (h : t.Writes W L Q site.service.store)
    (hl : L cached) (f : Family) (uid : String) :
    (Wrote site (run cached t site).2 f uid ∧
      ∃ s₁ r s₂, Trace.Last W site.service.store f uid (run cached t site).2.service.store s₁ r s₂) ∨
      (¬ Wrote site (run cached t site).2 f uid ∧
        (run cached t site).2.service.store.get f uid = site.service.store.get f uid) := by
  obtain ⟨writes, htrace, hjournal⟩ := h.exists_trace site hl
  by_cases hmem : (f, uid) ∈ writes.map keyOf
  · exact .inl ⟨⟨_, hjournal, List.mem_reverse.mpr hmem⟩, htrace.exists_last hmem⟩
  · refine .inr ⟨?_, htrace.get_of_notMem hmem⟩
    rintro ⟨written, hwritten, hin⟩
    obtain rfl : (writes.map keyOf).reverse = written := List.append_cancel_right (hjournal.symm.trans hwritten)
    exact hmem (List.mem_reverse.mp hin)

/-- **What was written** was written last by an admitted write. -/
theorem Writes.exists_last {t : Task α} {cached : List Pod} {site : Site} (h : t.Writes W L Q site.service.store)
    (hl : L cached) (hwrote : Wrote site (run cached t site).2 f uid) :
    ∃ s₁ r s₂, Trace.Last W site.service.store f uid (run cached t site).2.service.store s₁ r s₂ := by
  rcases h.wrote_or_same hl f uid with ⟨-, hlast⟩ | ⟨hnot, -⟩
  · exact hlast
  · exact absurd hwrote hnot

end Task

end FleetAtlas
