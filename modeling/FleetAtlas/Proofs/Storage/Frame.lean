import FleetAtlas.Proofs.Storage.Merge

/-!
# Records do not disturb each other

* `Store.Request`, `Store.after`: the requests that change a store, and what they leave, made one after the other; one
  that is refused changes nothing;
* `Store.Alike P s₀ s`: outside of `P`, what `s` shows is what `s₀` showed; `Alike.list_eq`: so do the lists;
* `Store.set_independent`: **a record that is stored leaves every other record, in every list, as it is**, and two records
  are stored in either order.
-/

namespace FleetAtlas

namespace Store

/-! ### Requests one after the other -/

/-- What a store can be asked to change. -/
inductive Request where
  | set (f : Family) (r : Record)
  | drop

/-- The store after a request; a record that is refused changes nothing. -/
def perform (s : Store) : Request → Store
  | .set f r => (s.set f r).toOption.getD s
  | .drop => s.drop

/-- The store after requests, one after the other. -/
def after (s : Store) (requests : List Request) : Store := requests.foldl perform s

variable {s s' : Store} {f : Family} {r : Record}

theorem perform_of_ok (h : s.set f r = .ok s') : s.perform (.set f r) = s' := by
  rw [perform, h]
  rfl

theorem perform_of_error {e : StorageError} (h : s.set f r = .error e) : s.perform (.set f r) = s := by
  rw [perform, h]
  rfl

theorem after_concat (s : Store) (requests : List Request) (request : Request) :
    s.after (requests ++ [request]) = (s.after requests).perform request := by
  rw [after, List.foldl_append]
  rfl

theorem filed_drop (s : Store) : s.drop.Filed := by
  cases s with
  | documents d => exact Documents.Filed.empty
  | graph g => trivial

theorem Filed.perform (h : s.Filed) (request : Request) : (s.perform request).Filed := by
  cases request with
  | set f r =>
    cases hs : s.set f r with
    | error e => rwa [perform_of_error hs]
    | ok s' =>
      rw [perform_of_ok hs]
      exact h.set hs
  | drop => exact s.filed_drop

theorem Filed.after (h : s.Filed) (requests : List Request) : (s.after requests).Filed := by
  induction requests generalizing s with
  | nil => exact h
  | cons request requests ih => exact ih (h.perform request)

/-! ### What stays as it is -/

/-- Documents are filed, and outside of `P` the store shows what another one showed. -/
structure Alike (P : Family → String → Prop) (s₀ s : Store) : Prop where
  filed : s.Filed
  get_eq : ∀ f uid, ¬ P f uid → s.get f uid = s₀.get f uid

namespace Alike

variable {P : Family → String → Prop} {s₀ s s' : Store}

theorem refl (h : s.Filed) : s.Alike P s := ⟨h, fun _ _ _ => rfl⟩

theorem set (h : s₀.Alike P s) {f : Family} {r : Record} (hP : P f r.uid) (hs : s.set f r = .ok s') : s₀.Alike P s' where
  filed := h.filed.set hs
  get_eq g uid hg := by
    have hne : ¬ (g = f ∧ uid = r.uid) := by
      rintro ⟨rfl, rfl⟩
      exact hg hP
    rw [Store.get_set_of_ne hs hne]
    exact h.get_eq g uid hg

/-- **Lists show the same** of what lies outside. -/
theorem list_eq (h : s₀.Alike P s) (h₀ : s₀.Filed) {f : Family} {q : Record → Bool} (hq : ∀ r, q r = true → ¬ P f r.uid)
    (selection : Selection) :
    (s.list f selection).map (List.filter q) = (s₀.list f selection).map (List.filter q) := by
  obtain ⟨rs, hlist, hmem⟩ := h.filed.exists_list f selection
  obtain ⟨rs₀, hlist₀, hmem₀⟩ := h₀.exists_list f selection
  have hsorted := (h.filed.sorted_list hlist).filter q
  have hsorted₀ := (h₀.sorted_list hlist₀).filter q
  have hsame : ∀ r, r ∈ rs.filter q ↔ r ∈ rs₀.filter q := by
    intro r
    rw [List.mem_filter, List.mem_filter, hmem, hmem₀]
    refine and_congr_left fun hr => ?_
    rw [h.get_eq f r.uid (hq r hr)]
  rw [hlist, hlist₀]
  exact congrArg Except.ok (Record.eq_of_sorted hsorted hsorted₀ hsame)

end Alike

/-! ### Two records -/

/-- The records of a list other than the one of a family with a uid. -/
def others (f : Family) (uid : String) (h : Family) (rs : List Record) : List Record :=
  rs.filter fun q => !decide (h = f ∧ q.uid = uid)

/-- **A record that is stored disturbs no other.**  After any requests to an empty store of either model, and for two
records of different keys that it takes: the one that is stored changes neither what a look-up of the other shows nor
what a list shows of all records but itself, and both are stored in either order, whichever refers to the other. -/
theorem set_independent (start : Store) (requests : List Request) {f g : Family} {r q : Record} {s₁ s₂ : Store}
    (hr : (start.drop.after requests).set f r = .ok s₁) (hq : (start.drop.after requests).set g q = .ok s₂)
    (hne : ¬ (f = g ∧ r.uid = q.uid)) :
    (∃ answer, (start.drop.after requests).get g q.uid = .ok answer ∧ s₁.get g q.uid = .ok answer) ∧
      (∀ h selection, ∃ rs rs₁, (start.drop.after requests).list h selection = .ok rs ∧ s₁.list h selection = .ok rs₁ ∧
        others f r.uid h rs₁ = others f r.uid h rs) ∧
      ∃ s₃, s₁.set g q = .ok s₃ ∧ s₂.set f r = .ok s₃ := by
  have hfiled : (start.drop.after requests).Filed := start.filed_drop.after requests
  refine ⟨?_, fun h selection => ?_, set_comm hr hq hne⟩
  · obtain ⟨answer, hget, -⟩ := hfiled.exists_get g q.uid
    refine ⟨answer, hget, ?_⟩
    rw [get_set_of_ne hr fun e => hne ⟨e.1.symm, e.2.symm⟩]
    exact hget
  · have halike : (start.drop.after requests).Alike (fun h uid => h = f ∧ uid = r.uid) s₁ :=
      (Alike.refl hfiled).set ⟨rfl, rfl⟩ hr
    obtain ⟨rs, hlist, -⟩ := hfiled.exists_list h selection
    obtain ⟨rs₁, hlist₁, -⟩ := halike.filed.exists_list h selection
    have heq := halike.list_eq hfiled (f := h) (q := fun p => !decide (h = f ∧ p.uid = r.uid))
      (fun p hp => by simpa only [Bool.not_eq_true', decide_eq_false_iff_not] using hp) selection
    rw [hlist, hlist₁] at heq
    exact ⟨rs, rs₁, hlist, hlist₁, Except.ok.inj heq⟩

/-- An event is stored again, as another kind, and the instance that it refers to is stored, which is a stub so far. -/
theorem set_independent_stub : ∃ s₁ s₂ s₃,
    ((graph .empty).drop.after [.set .event (Graph.eventOf .failedToStart)]).set .event (Graph.eventOf .failedToPull) =
      .ok s₁ ∧
    ((graph .empty).drop.after [.set .event (Graph.eventOf .failedToStart)]).set .deploymentInstance
      (Graph.instanceOn (some "n1")) = .ok s₂ ∧
    s₁.get .deploymentInstance (Graph.instanceOn (some "n1")).uid = .ok none ∧
    s₁.set .deploymentInstance (Graph.instanceOn (some "n1")) = .ok s₃ ∧
    s₂.set .event (Graph.eventOf .failedToPull) = .ok s₃ := by
  obtain ⟨s₁, h₁⟩ : Takes ((graph .empty).drop.after [.set .event (Graph.eventOf .failedToStart)]) .event
      (Graph.eventOf .failedToPull) := by decide +kernel
  obtain ⟨s₂, h₂⟩ : Takes ((graph .empty).drop.after [.set .event (Graph.eventOf .failedToStart)]) .deploymentInstance
      (Graph.instanceOn (some "n1")) := by decide +kernel
  have hstub : ((graph .empty).drop.after [.set .event (Graph.eventOf .failedToStart)]).get .deploymentInstance
      (Graph.instanceOn (some "n1")).uid = .ok none := by decide +kernel
  obtain ⟨⟨answer, hget, hget₁⟩, -, s₃, h₁₃, h₂₃⟩ := set_independent (graph .empty)
    [.set .event (Graph.eventOf .failedToStart)] h₁ h₂ (by decide +kernel)
  obtain rfl : answer = none := Except.ok.inj (hget.symm.trans hstub)
  exact ⟨s₁, s₂, s₃, h₁, h₂, hget₁, h₁₃, h₂₃⟩

end Store

end FleetAtlas
