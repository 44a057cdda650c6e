import FleetAtlas.Proofs.Entity.Uid
import FleetAtlas.Proofs.Storage.Graph
import FleetAtlas.Storage.Store
import Mathlib.Data.List.Sort

/-!
# Laws of stores

* `Store.Built`: the stores that come about by storing records; `Store.Filed`: what their look-ups rely on;
* `Store.get_set_of_ne`, `Filed.exists_get`, `Filed.exists_list`, `Filed.sorted_list`: the laws of both models;
* `Store.fetch?`: the entity that is stored under a uid; `Store.fetch?_set_self`: **what was stored last**, up to links
  that a graph keeps, and `Store.fetch?_set_of_ne`: **nothing else changes**.
-/

namespace FleetAtlas

/-- Records in the order of their uids are known by what is among them. -/
theorem Record.eq_of_sorted {rs rs' : List Record} (h : rs.Pairwise fun r r' => r.uid < r'.uid)
    (h' : rs'.Pairwise fun r r' => r.uid < r'.uid) (hmem : ∀ r, r ∈ rs ↔ r ∈ rs') : rs = rs' := by
  have hirrefl : Std.Irrefl fun r r' : Record => r.uid < r'.uid := ⟨fun r => String.lt_irrefl r.uid⟩
  have hantisymm : Std.Antisymm fun r r' : Record => r.uid < r'.uid :=
    ⟨fun r r' hlt hgt => absurd (String.lt_trans hlt hgt) (String.lt_irrefl r.uid)⟩
  exact h.eq_of_mem_iff h' hmem

namespace Store

/-- The stores that come about by storing records of any kind. -/
inductive Built : Store → Prop
  | documents : Built (documents .empty)
  | graph : Built (graph .empty)
  | set {s s' : Store} {f : Family} {r : Record} : Built s → s.set f r = .ok s' → Built s'

/-- What look-ups rely on: documents are those of records, under their uids. -/
def Filed : Store → Prop
  | documents d => d.Filed
  | graph _ => True

theorem Filed.set {s s' : Store} {f : Family} {r : Record} (h : s.Filed) (hs : s.set f r = .ok s') : s'.Filed := by
  cases s with
  | documents d =>
    obtain rfl : documents (d.set f r) = s' := Except.ok.inj hs
    exact Documents.Filed.set h f r
  | graph g =>
    simp only [Store.set] at hs
    cases hg : g.set f r with
    | error e => rw [hg] at hs; exact nomatch hs
    | ok g' =>
      rw [hg] at hs
      obtain rfl : graph g' = s' := Except.ok.inj hs
      trivial

theorem Built.filed {s : Store} (h : s.Built) : s.Filed := by
  induction h with
  | documents => exact Documents.Filed.empty
  | graph => trivial
  | set _ hs ih => exact ih.set hs

/-! ### Laws of both models -/

theorem set_graph_eq_ok {g : Graph} {f : Family} {r : Record} {s' : Store} (h : (graph g).set f r = .ok s') :
    ∃ g', g.set f r = .ok g' ∧ s' = graph g' := by
  simp only [Store.set] at h
  cases hg : g.set f r with
  | error e => rw [hg] at h; exact nomatch h
  | ok g' => rw [hg] at h; exact ⟨g', rfl, (Except.ok.inj h).symm⟩

/-- **Storing a record leaves the others as they are.** -/
theorem get_set_of_ne {s s' : Store} {f g : Family} {r : Record} {uid : String} (h : s.set f r = .ok s')
    (hne : ¬ (g = f ∧ uid = r.uid)) : s'.get g uid = s.get g uid := by
  cases s with
  | documents d =>
    obtain rfl : documents (d.set f r) = s' := Except.ok.inj h
    exact (d.get_set f g r uid).trans (if_neg hne)
  | graph g' =>
    obtain ⟨g'', hg, rfl⟩ := set_graph_eq_ok h
    exact congrArg Except.ok (Graph.get_set_of_ne hg hne)

theorem covers_get_set {s s' : Store} {f : Family} {e : Entity f} (h : s.set f e.toRecord = .ok s') :
    ∃ r, s'.get f e.uid.text = .ok (some r) ∧ r.Covers e := by
  cases s with
  | documents d =>
    obtain rfl : documents (d.set f e.toRecord) = s' := Except.ok.inj h
    exact ⟨e.toRecord, (d.get_set f f e.toRecord e.uid.text).trans (if_pos ⟨rfl, rfl⟩), .refl e⟩
  | graph g =>
    obtain ⟨g', hg, rfl⟩ := set_graph_eq_ok h
    obtain ⟨r, hr, hcovers⟩ := Graph.covers_get_set hg
    exact ⟨r, congrArg Except.ok hr, hcovers⟩

namespace Filed

variable {s : Store} (h : s.Filed)

include h

/-- A look-up succeeds, and what it shows has the uid. -/
theorem exists_get (f : Family) (uid : String) :
    ∃ answer, s.get f uid = .ok answer ∧ ∀ r ∈ answer, r.uid = uid := by
  cases s with
  | documents d => exact Documents.Filed.get_eq h uid
  | graph g => exact ⟨g.get f uid, rfl, fun r hr => Graph.get_uid hr⟩

/-- A list succeeds, and it shows the selected records, those that look-ups show. -/
theorem exists_list (f : Family) (selection : Selection) : ∃ rs, s.list f selection = .ok rs ∧ ∀ r : Record,
    r ∈ rs ↔ s.get f r.uid = .ok (some r) ∧ selection.admits r.properties = true := by
  cases s with
  | documents d => exact Documents.Filed.exists_list h selection
  | graph g =>
    refine ⟨g.list f selection, rfl, fun r => ?_⟩
    rw [Graph.mem_list_iff]
    exact and_congr_left fun _ => ⟨congrArg Except.ok, Except.ok.inj⟩

/-- **A list is in the order of the uids.** -/
theorem sorted_list {f : Family} {selection : Selection} {rs : List Record}
    (hlist : s.list f selection = .ok rs) : rs.Pairwise fun r r' => r.uid < r'.uid := by
  cases s with
  | documents d => exact Documents.Filed.sorted_list h hlist
  | graph g =>
    obtain rfl := Except.ok.inj hlist
    exact g.sorted_list f selection

end Filed

/-- A store takes a record. -/
def Takes (s : Store) (f : Family) (r : Record) : Prop := ∃ s', s.set f r = .ok s'

instance (s : Store) (f : Family) (r : Record) : Decidable (s.Takes f r) :=
  match h : s.set f r with
  | .ok s' => .isTrue ⟨s', h⟩
  | .error _ => .isFalse fun ⟨_, hs⟩ => nomatch h.symm.trans hs

/-- **What a store takes depends on its model alone.** -/
theorem takes_set {s s' : Store} {f g : Family} {r q : Record} (h : s.set f r = .ok s') :
    s'.Takes g q ↔ s.Takes g q := by
  cases s with
  | documents d =>
    obtain rfl : documents (d.set f r) = s' := Except.ok.inj h
    exact ⟨fun _ => ⟨_, rfl⟩, fun _ => ⟨_, rfl⟩⟩
  | graph g₁ =>
    obtain ⟨g₂, -, rfl⟩ := set_graph_eq_ok h
    have key : ∀ g₃ : Graph, (graph g₃).Takes g q ↔ ∃ g₄, g₃.set g q = .ok g₄ := fun g₃ =>
      ⟨fun ⟨_, hs⟩ => (set_graph_eq_ok hs).imp fun _ e => e.1,
        fun ⟨g₄, hg⟩ => ⟨graph g₄, by simp only [Store.set, hg]; rfl⟩⟩
    rw [key, key, Graph.exists_set_iff]

/-! ### Entities -/

/-- The entity that is stored under a uid. -/
def fetch? {f : Family} (s : Store) (uid : Uid f) : Option (Entity f) :=
  match s.get f uid.text with
  | .ok (some r) => Entity.ofRecord? f r
  | _ => none

/-- It depends on the record alone. -/
theorem fetch?_congr {f : Family} {s s' : Store} {uid : Uid f} (h : s'.get f uid.text = s.get f uid.text) :
    s'.fetch? uid = s.fetch? uid := by
  unfold fetch?
  rw [h]

theorem exists_get_of_fetch? {f : Family} {s : Store} {uid : Uid f} {e : Entity f} (h : s.fetch? uid = some e) :
    ∃ r, s.get f uid.text = .ok (some r) ∧ Entity.ofRecord? f r = some e := by
  unfold fetch? at h
  split at h
  · next r hget => exact ⟨r, hget, h⟩
  · exact nomatch h

theorem uid_of_ofRecord? {f : Family} {r : Record} {e : Entity f} (h : Entity.ofRecord? f r = some e) :
    e.uid.text = r.uid := by
  rw [Entity.ofRecord?_eq] at h
  obtain ⟨p, -, h⟩ := Option.bind_eq_some_iff.mp h
  obtain ⟨l, -, rfl⟩ := Option.map_eq_some_iff.mp h
  rfl

theorem Filed.fetch?_uid {s : Store} (h : s.Filed) {f : Family} {uid : Uid f} {e : Entity f}
    (he : s.fetch? uid = some e) : e.uid = uid := by
  obtain ⟨answer, hget, huid⟩ := h.exists_get f uid.text
  cases answer with
  | none => simp [fetch?, hget] at he
  | some r =>
    simp only [fetch?, hget] at he
    exact Uid.eq_of_text ((uid_of_ofRecord? he).trans (huid r rfl))

/-- **What is stored under a uid is what was stored last**, up to links that a graph keeps. -/
theorem fetch?_set_self {s s' : Store} {f : Family} {e : Entity f} (h : s.set f e.toRecord = .ok s') :
    ∃ e', s'.fetch? e.uid = some e' ∧ e'.properties = e.properties := by
  obtain ⟨r, hget, hcovers⟩ := covers_get_set h
  obtain ⟨e', he', hp⟩ := hcovers.exists_ofRecord?
  exact ⟨e', by simp only [fetch?, hget, he'], hp⟩

/-- **Nothing else changes.** -/
theorem fetch?_set_of_ne {s s' : Store} {f g : Family} {r : Record} {uid : Uid g} (h : s.set f r = .ok s')
    (hne : ¬ (g = f ∧ uid.text = r.uid)) : s'.fetch? uid = s.fetch? uid :=
  fetch?_congr (get_set_of_ne h hne)

end Store

end FleetAtlas
