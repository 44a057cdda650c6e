import FleetAtlas.Proofs.Entity.Envelope
import FleetAtlas.Proofs.Storage.Frame
import FleetAtlas.Proofs.Storage.Saved

/-!
# What lists show

A list selects among documents or nodes before they are read as records, and a look-up goes another way.

* `Store.Filed.list_unset`: a selection shows of all records those in which its property is missing or `null`;
* `Store.Saved.select_unset`: the running instances are the instances that are not stopped;
* `Store.saved_after`: requests that store entities lead to a store of entities;
* `Store.lists_agree`: **a list shows, in the order of the uids, the selected ones of the records that look-ups show**.
-/

namespace FleetAtlas

/-! ### Selections -/

/-- What is selected because a property is not set. -/
theorem Selection.admits_unset_iff {name : String} {properties : Dict String Json} :
    (unset name).admits properties = true ↔ properties.get? name = none ∨ properties.get? name = some .null := by
  unfold admits holds
  dsimp only
  cases properties.get? name with
  | none => simp
  | some j => cases j <;> simp [Json.isNull]

/-- An instance is selected as running unless it is stopped. -/
theorem DeploymentInstance.admits_unset_iff (i : DeploymentInstance) :
    (Selection.unset "stopped").admits i.toRecord.properties = true ↔ i.info.stopped = none := by
  rw [Selection.admits_unset_iff, i.get?_stopped]
  cases i.info.stopped <;> simp [Json.ofTime?, Json.ofOption, Json.ofTime]

namespace Store

variable {s : Store}

/-- **Records that a property selects are those of the whole list** in which it is missing or `null`. -/
theorem Filed.list_unset (h : s.Filed) {f : Family} {rs : List Record} (hall : s.list f .all = .ok rs) (name : String) :
    s.list f (.unset name) =
      .ok (rs.filter fun r => r.properties.get? name = none ∨ r.properties.get? name = some .null) := by
  obtain ⟨rs', hall', hmem⟩ := h.exists_list f .all
  obtain rfl : rs = rs' := Except.ok.inj (hall.symm.trans hall')
  obtain ⟨selected, hunset, hselected⟩ := h.exists_list f (.unset name)
  have hsame : ∀ r, r ∈ selected ↔
      r ∈ rs.filter fun r => r.properties.get? name = none ∨ r.properties.get? name = some .null := by
    intro r
    have hshown : r ∈ rs ↔ s.get f r.uid = .ok (some r) := (hmem r).trans (and_iff_left rfl)
    rw [hselected, List.mem_filter, hshown, Selection.admits_unset_iff, decide_eq_true_iff]
  rw [hunset, Record.eq_of_sorted (h.sorted_list hunset) ((h.sorted_list hall).filter _) hsame]

/-! ### Stores of entities -/

section Entities

/-- An instance is shown without a time of its stop unless it has one. -/
theorem unset_shown (s : Store) (i : DeploymentInstance) : decide ((s.shown i).properties.get? "stopped" = none ∨
    (s.shown i).properties.get? "stopped" = some .null) = !i.isStopped := by
  have hadmits := i.admits_unset_iff
  rw [← s.admits_shown, Selection.admits_unset_iff] at hadmits
  rw [Bool.eq_iff_iff, decide_eq_true_iff, hadmits, DeploymentInstance.isStopped]
  cases i.info.stopped <;> simp

variable {P : (f : Family) → Entity f → Prop}

/-- What is listed as entities is read as them. -/
theorem select_of_list {f : Family} {selection : Selection} {es : List (Entity f)}
    (hlist : s.list f selection = .ok (es.map s.shown)) : ((Service.on s).select f selection).1 = .ok es := by
  show (do (← s.list f selection).mapM (Service.decode f) : Except StorageError (List (Entity f))) = _
  rw [hlist]
  show (es.map s.shown).mapM (Service.decode f) = .ok es
  rw [mapM_map_eq_ok (g := id) (fun e => s.decode_shown e), List.map_id]

/-- **The running instances** are those of all instances that are not stopped. -/
theorem Saved.select_unset (h : s.Saved P) : ∃ is : List DeploymentInstance,
    ((Service.on s).select .deploymentInstance .all).1 = .ok is ∧
      ((Service.on s).select .deploymentInstance (.unset "stopped")).1 =
        .ok (is.filter fun i : DeploymentInstance => !i.isStopped) := by
  obtain ⟨is, hall, -, -⟩ := h.exists_list .deploymentInstance .all
  have hrunning : s.list .deploymentInstance (.unset "stopped") =
      .ok ((is.filter fun i : DeploymentInstance => !i.isStopped).map s.shown) := by
    rw [h.filed.list_unset hall "stopped", List.filter_map]
    exact congrArg (fun q => Except.ok ((is.filter q).map s.shown)) (funext s.unset_shown)
  exact ⟨is, select_of_list hall, select_of_list hrunning⟩

theorem saved_drop (s : Store) : s.drop.Saved P := by
  cases s with
  | documents d => exact .documents
  | graph g => exact .graph

theorem Saved.perform (h : s.Saved P) {request : Request}
    (htyped : ∀ f r, request = .set f r → ∃ e : Entity f, r = e.toRecord ∧ P f e) : (s.perform request).Saved P := by
  cases request with
  | set f r =>
    obtain ⟨e, rfl, he⟩ := htyped f r rfl
    cases hs : s.set f e.toRecord with
    | error _ => rwa [perform_of_error hs]
    | ok s' =>
      rw [perform_of_ok hs]
      exact h.save he hs
  | drop => exact s.saved_drop

/-- Requests that store entities lead to a store of entities. -/
theorem saved_after (start : Store) {requests : List Request}
    (htyped : ∀ f r, Request.set f r ∈ requests → ∃ e : Entity f, r = e.toRecord ∧ P f e) :
    (start.drop.after requests).Saved P := by
  induction requests using List.reverseRecOn with
  | nil => exact start.saved_drop
  | append_singleton requests request ih =>
    rw [after_concat]
    have hbefore := ih fun f r hmem => htyped f r (List.mem_append_left _ hmem)
    refine hbefore.perform ?_
    rintro f r rfl
    exact htyped f r (by simp)

end Entities

/-- **Lists and look-ups agree.**  After any requests to an empty store of either model, a list of a family succeeds: it is in
the order of the uids, without repetition, and shows exactly the records that look-ups show and that are selected; so of all
records, those are selected for a property in which it is missing or `null`.  If only entities were stored, the running
instances are the instances that are not stopped. -/
theorem lists_agree (start : Store) (requests : List Request) :
    (∀ f selection, ∃ rs, (start.drop.after requests).list f selection = .ok rs ∧
      rs.Pairwise (fun r r' => r.uid < r'.uid) ∧
      ∀ r, r ∈ rs ↔ (start.drop.after requests).get f r.uid = .ok (some r) ∧ selection.admits r.properties = true) ∧
    (∀ f name, ∃ rs, (start.drop.after requests).list f .all = .ok rs ∧
      (start.drop.after requests).list f (.unset name) =
        .ok (rs.filter fun r => r.properties.get? name = none ∨ r.properties.get? name = some .null)) ∧
    ((∀ f r, Request.set f r ∈ requests → ∃ e : Entity f, r = e.toRecord) → ∃ is : List DeploymentInstance,
      ((Service.on (start.drop.after requests)).select .deploymentInstance .all).1 = .ok is ∧
        ((Service.on (start.drop.after requests)).select .deploymentInstance (.unset "stopped")).1 =
          .ok (is.filter fun i : DeploymentInstance => !i.isStopped)) := by
  have hfiled : (start.drop.after requests).Filed := start.filed_drop.after requests
  refine ⟨?_, ?_, ?_⟩
  · intro f selection
    obtain ⟨rs, hlist, hmem⟩ := hfiled.exists_list f selection
    exact ⟨rs, hlist, hfiled.sorted_list hlist, hmem⟩
  · intro f name
    obtain ⟨rs, hall, -⟩ := hfiled.exists_list f .all
    exact ⟨rs, hall, hfiled.list_unset hall name⟩
  · intro htyped
    have hsaved : (start.drop.after requests).Saved fun _ _ => True := start.saved_after fun f r hmem => by
      obtain ⟨e, he⟩ := htyped f r hmem
      exact ⟨e, he, trivial⟩
    exact hsaved.select_unset

/-- The instance of a pod, of a deployment that is not stored. -/
def instanceOn (pod : String) : DeploymentInstance :=
  .deploymentInstance (.deployment "t1" "a1" "Dev" "4") pod .epoch ⟨"t1/a1/Dev/m1/a"⟩ ⟨"t1/a1/Dev/m1/r"⟩ none

/-- One instance that runs is stored, and one that is stopped. -/
def twoInstances : List Request :=
  [.set .deploymentInstance (instanceOn "p1").toRecord, .set .deploymentInstance ((instanceOn "p2").stop .epoch).toRecord]

/-- Of two instances in a graph, those that run are listed; the stub of their deployment is not shown. -/
theorem lists_agree_twoInstances :
    (∃ is : List DeploymentInstance,
      ((Service.on ((graph .empty).drop.after twoInstances)).select .deploymentInstance .all).1 = .ok is ∧
        ((Service.on ((graph .empty).drop.after twoInstances)).select .deploymentInstance (.unset "stopped")).1 =
          .ok (is.filter fun i : DeploymentInstance => !i.isStopped)) ∧
    ((graph .empty).drop.after twoInstances).list .deployment .all = .ok [] := by
  refine ⟨(lists_agree (graph .empty) twoInstances).2.2 ?_, by decide +kernel⟩
  intro f r hmem
  simp only [twoInstances, List.mem_cons, List.not_mem_nil, or_false, Request.set.injEq] at hmem
  rcases hmem with ⟨rfl, rfl⟩ | ⟨rfl, rfl⟩
  · exact ⟨_, rfl⟩
  · exact ⟨_, rfl⟩

end Store

end FleetAtlas
