import FleetAtlas.Proofs.Storage.Rewrite
import FleetAtlas.Proofs.Task.Keeps

/-!
# What tasks write when they are left alone

* `Task.Writes W L Q t s`: left alone with the store `s`, the task makes only writes that `W` admits for what is stored at
  that moment; when it is done, `Q` holds of its result and of what is stored;
* `Writes.bind`, `writes_store`, `writes_fetch`, …: the rules, one for each way of making a task;
* `Stable W I`: admitted writes keep `I`; `Writes.stable`: so it can be relied on throughout;
* `Writes.leads`, `Writes.of_run`: **what this says of the steps of a task and of its runs**, where any call may fail.

Unlike `Keeps`, this is about a task whose store nobody else writes: what it has read is still there when it writes.
-/

namespace FleetAtlas

/-- Reading and looking up are the same, as long as what is stored can be read. -/
theorem Store.fetch?_of_read {f : Family} {s : Store} {uid : Uid f} {stored : Option (Entity f)}
    (h : s.read uid = .ok stored) : s.fetch? uid = stored := by
  unfold read at h
  unfold fetch?
  split at h
  · exact nomatch h
  · next hget =>
    rw [hget]
    exact Except.ok.inj h
  · next r hget =>
    rw [hget]
    split at h
    · next e he =>
      show Entity.ofRecord? f r = stored
      rw [he]
      exact Except.ok.inj h
    · exact nomatch h

namespace Task

variable {α β : Type}

/-- **Left alone with a store**, the task makes only writes that `W` admits for what is stored then; the pods that are
shown satisfy `L`, and its result and what it leaves satisfy `Q`. -/
def Writes (W : Store → Family → Record → Prop) (L : List Pod → Prop) (Q : α → Store → Prop) : Task α → Store → Prop
  | done a, s => Q a s
  | fail _, _ => True
  | set f r next, s => W s f r ∧ ∀ s', s.set f r = .ok s' → Writes W L Q next s'
  | get f uid next, s => ∀ answer, s.get f uid = .ok answer → Writes W L Q (next answer) s
  | list f selection next, s => ∀ answer, s.list f selection = .ok answer → Writes W L Q (next answer) s
  | now next, s => ∀ time, Writes W L Q (next time) s
  | pods next, s => ∀ pods, L pods → Writes W L Q (next pods) s
  | stopping next, s => ∀ flag, Writes W L Q (next flag) s
  | counted next, s => Writes W L Q next s

/-- Admitted writes keep `I`. -/
def Stable (W : Store → Family → Record → Prop) (I : Store → Prop) : Prop :=
  ∀ ⦃s s' : Store⦄ ⦃f : Family⦄ ⦃r : Record⦄, I s → W s f r → s.set f r = .ok s' → I s'

variable {W : Store → Family → Record → Prop} {L : List Pod → Prop} {Q : α → Store → Prop} {R : β → Store → Prop}
  {I : Store → Prop} {s : Store}

/-! ### Rules -/

theorem Writes.bind {t : Task α} {k : α → Task β} (h : t.Writes W L Q s)
    (hk : ∀ a s', Q a s' → (k a).Writes W L R s') : (t.bind k).Writes W L R s := by
  induction t generalizing s with
  | done a => exact hk a s h
  | fail e => trivial
  | set f r next ih => exact ⟨h.1, fun s' hset => ih (h.2 s' hset)⟩
  | get f uid next ih => exact fun answer hget => ih answer (h answer hget)
  | list f selection next ih => exact fun answer hlist => ih answer (h answer hlist)
  | now next ih => exact fun time => ih time (h time)
  | pods next ih => exact fun pods hl => ih pods (h pods hl)
  | stopping next ih => exact fun flag => ih flag (h flag)
  | counted next ih => exact ih h

theorem Writes.mono {Q' : α → Store → Prop} {t : Task α} (h : t.Writes W L Q s) (hQ : ∀ a s', Q a s' → Q' a s') :
    t.Writes W L Q' s := by
  rw [← bind_done t]
  exact h.bind hQ

theorem writes_store {f : Family} {e : Entity f} {Q : Unit → Store → Prop} (h : W s f e.toRecord)
    (hQ : ∀ s', s.set f e.toRecord = .ok s' → Q () s') : (store e).Writes W L Q s :=
  ⟨h, hQ⟩

theorem writes_decode (f : Family) (r : Record) :
    (decode f r).Writes W L (fun e s' => Entity.ofRecord? f r = some e ∧ s' = s) s := by
  unfold decode
  cases hr : Entity.ofRecord? f r with
  | none => trivial
  | some e => exact ⟨rfl, rfl⟩

/-- What is decoded is what the records hold, in their order. -/
theorem writes_decodeAll (f : Family) (rs : List Record) : (decodeAll f rs).Writes W L (fun es s' => s' = s ∧
    es.map (fun e => e.uid.text) = rs.map Record.uid ∧ ∀ e ∈ es, ∃ r ∈ rs, Entity.ofRecord? f r = some e) s := by
  induction rs with
  | nil => exact ⟨rfl, rfl, nofun⟩
  | cons r rs ih =>
    refine (writes_decode f r).bind ?_
    rintro e s' ⟨hr, rfl⟩
    refine ih.bind ?_
    rintro es s'' ⟨rfl, huids, hread⟩
    refine ⟨rfl, ?_, fun e' he' => ?_⟩
    · rw [List.map_cons, List.map_cons, huids, Store.uid_of_ofRecord? hr]
    · rcases List.mem_cons.mp he' with rfl | he'
      · exact ⟨r, List.mem_cons_self, hr⟩
      · obtain ⟨r', hmem, hr'⟩ := hread e' he'
        exact ⟨r', .tail _ hmem, hr'⟩

/-- What is fetched is what is stored. -/
theorem writes_fetch {f : Family} {uid : Uid f} {Q : Option (Entity f) → Store → Prop}
    (hQ : ∀ stored, s.read uid = .ok stored → Q stored s) : (fetch f uid).Writes W L Q s := by
  intro answer hget
  cases answer with
  | none =>
    have hread : s.read uid = .ok none := by simp only [Store.read, hget]
    exact hQ none hread
  | some r =>
    refine (writes_decode f r).bind ?_
    rintro e s' ⟨hr, rfl⟩
    have hread : s'.read uid = .ok (some e) := by simp only [Store.read, hget, hr]
    exact hQ (some e) hread

theorem writes_ofExcept (e : Except Failure α) : (ofExcept e).Writes W L (fun a s' => e = .ok a ∧ s' = s) s := by
  cases e with
  | error x => trivial
  | ok a => exact ⟨rfl, rfl⟩

/-- **What admitted writes keep** holds whenever the task is done. -/
theorem Writes.stable (hI : Stable W I) {t : Task α} (h : t.Writes W L Q s) (hs : I s) :
    t.Writes W L (fun a s' => Q a s' ∧ I s') s := by
  induction t generalizing s with
  | done a => exact ⟨h, hs⟩
  | fail e => trivial
  | set f r next ih => exact ⟨h.1, fun s' hset => ih (h.2 s' hset) (hI hs h.1 hset)⟩
  | get f uid next ih => exact fun answer hget => ih answer (h answer hget) hs
  | list f selection next ih => exact fun answer hlist => ih answer (h answer hlist) hs
  | now next ih => exact fun time => ih time (h time) hs
  | pods next ih => exact fun pods hl => ih pods (h pods hl) hs
  | stopping next ih => exact fun flag => ih flag (h flag) hs
  | counted next ih => exact ih h hs

/-! ### Steps and runs -/

/-- **One step** makes an admitted write, or it leaves the store as it is. -/
theorem Writes.step {t : Task α} {cached : List Pod} {site : Site} (h : t.Writes W L Q site.service.store)
    (hl : L cached) :
    ((step cached t site).2.service.store = site.service.store ∨
      ∃ f r, W site.service.store f r ∧ site.service.store.set f r = .ok (step cached t site).2.service.store) ∧
      (step cached t site).1.Writes W L Q (step cached t site).2.service.store := by
  cases t with
  | done a => exact ⟨.inl rfl, h⟩
  | fail e => exact ⟨.inl rfl, trivial⟩
  | set f r next =>
    rcases site.service.set_cases f r with ⟨e, s', hset, hstore⟩ | ⟨s', hset, hstore⟩ <;>
      simp only [Task.step, resume, hset]
    · exact ⟨.inl hstore, trivial⟩
    · exact ⟨.inr ⟨f, r, h.1, hstore⟩, h.2 _ hstore⟩
  | get f uid next =>
    obtain ⟨s', hstore, ⟨e, hget⟩ | ⟨answer, hget, hanswer⟩⟩ := site.service.get_cases f uid <;>
      simp only [Task.step, resume, hget]
    · exact ⟨.inl hstore, trivial⟩
    · refine ⟨.inl hstore, ?_⟩
      rw [hstore]
      exact h answer hanswer
  | list f selection next =>
    obtain ⟨s', hstore, ⟨e, hlist⟩ | ⟨answer, hlist, hanswer⟩⟩ := site.service.list_cases f selection <;>
      simp only [Task.step, resume, hlist]
    · exact ⟨.inl hstore, trivial⟩
    · refine ⟨.inl hstore, ?_⟩
      rw [hstore]
      exact h answer hanswer
  | now next => exact ⟨.inl rfl, h _⟩
  | pods next => exact ⟨.inl rfl, h _ hl⟩
  | stopping next => exact ⟨.inl rfl, h _⟩
  | counted next => exact ⟨.inl rfl, h⟩

/-- **All steps**: what admitted writes keep is kept, and the rest of the task makes only admitted writes. -/
theorem Writes.leads (hI : Stable W I) {t t' : Task α} {s' : Store} (hsteps : Leads L t s t' s')
    (h : t.Writes W L Q s) (hs : I s) : I s' ∧ t'.Writes W L Q s' := by
  induction hsteps with
  | refl => exact ⟨hs, h⟩
  | step cached hl site _ ih =>
    obtain ⟨hstep, hrest⟩ := h.step hl
    refine ih hrest ?_
    rcases hstep with hsame | ⟨f, r, hW, hset⟩
    · rw [hsame]
      exact hs
    · exact hI hs hW hset

/-- **A run that is done** has its result, and has left what is stored, as the task says. -/
theorem Writes.of_run {t : Task α} {cached : List Pod} {site : Site} {a : α}
    (h : t.Writes W L Q site.service.store) (hl : L cached) (hok : (run cached t site).1 = .ok a) :
    Q a (run cached t site).2.service.store := by
  induction t generalizing site with
  | done b =>
    obtain rfl := Except.ok.inj hok
    exact h
  | fail e => cases hok
  | set f r next ih =>
    rcases site.service.set_cases f r with ⟨e, s', hset, -⟩ | ⟨s', hset, hstore⟩ <;> rw [run, hset] at hok ⊢
    · cases hok
    · exact ih (h.2 _ hstore) hok
  | get f uid next ih =>
    obtain ⟨s', hstore, ⟨e, hget⟩ | ⟨answer, hget, hanswer⟩⟩ := site.service.get_cases f uid <;>
      rw [run, hget] at hok ⊢
    · cases hok
    · exact ih answer (hstore ▸ h answer hanswer) hok
  | list f selection next ih =>
    obtain ⟨s', hstore, ⟨e, hlist⟩ | ⟨answer, hlist, hanswer⟩⟩ := site.service.list_cases f selection <;>
      rw [run, hlist] at hok ⊢
    · cases hok
    · exact ih answer (hstore ▸ h answer hanswer) hok
  | now next ih => exact ih _ (h _) hok
  | pods next ih => exact ih _ (h _ hl) hok
  | stopping next ih => exact ih _ (h _) hok
  | counted next ih => exact ih h hok

end Task

end FleetAtlas
