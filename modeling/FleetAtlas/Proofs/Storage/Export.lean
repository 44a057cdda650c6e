import FleetAtlas.Proofs.Storage.Saved
import FleetAtlas.Proofs.Text.Cut
import Mathlib.Data.List.Nodup

/-!
# Exports of stores of entities

* `Export.Marks f mark`: what may stand in front of the uids of a family; it tells the family, and where the uid begins
  (`Marks.family_unique`, `Text.mark_inj`);
* `Export.gatherFrom_eq_ok`, `Store.Saved.exists_lines`: the lines of an export, family by family;
* `Store.Saved.exported_resolves`: **no two lines have the same uid, and what a link is exported as is the uid of exactly the
  line of its target**, if that is stored.

Uids may contain colons, so it is the first colon that counts.
-/

namespace FleetAtlas

namespace Export

/-! ### What stands in front of a uid -/

/-- What stands in front of the uids of a family. -/
def Marks (f : Family) (mark : String) : Prop := mark = f.label ∨ f = .event ∧ ∃ kind : EventKind, mark = kind.name

theorem marks_ownPrefix {f : Family} {e : Entity f} (h : e.Made) : Marks f (ownPrefix f e.kind) := by
  unfold ownPrefix
  split
  · next hf =>
    rcases h.kind with hkind | ⟨-, kind, hkind⟩
    · exact .inl hkind
    · exact .inr ⟨hf, kind, hkind⟩
  · exact .inl rfl

theorem label_ne_name (f : Family) (kind : EventKind) : f.label ≠ kind.name := by
  cases f <;> cases kind <;> decide

theorem Marks.family_unique {f g : Family} {mark : String} (hf : Marks f mark) (hg : Marks g mark) : f = g := by
  rcases hf with rfl | ⟨rfl, kind, rfl⟩ <;> rcases hg with hg | ⟨rfl, kind', hg⟩
  · exact Family.label_inj hg
  · exact absurd hg (label_ne_name f kind')
  · exact absurd hg.symm (label_ne_name g kind)
  · rfl

theorem Marks.colon_notMem {f : Family} {mark : String} (h : Marks f mark) : ':' ∉ mark.toList := by
  rcases h with rfl | ⟨-, kind, rfl⟩
  · cases f <;> decide
  · cases kind <;> decide

/-! ### Lines -/

/-- The lines of an export, family by family. -/
theorem gatherFrom_eq_ok {ε : Type} {list : Family → Except ε (List Record)} {records : Family → List Record}
    (h : ∀ f, list f = .ok (records f)) (fs : List Family) :
    gatherFrom list fs = .ok (fs.flatMap fun f => (records f).map (prefixed f)) := by
  induction fs with
  | nil => rfl
  | cons f fs ih =>
    rw [gatherFrom, h, ih]
    rfl

/-- A line is the only one with its uid if all uids are different. -/
theorem filter_uid_eq_singleton {lines : List Record} (h : (lines.map Record.uid).Nodup) {line : Record}
    (hline : line ∈ lines) : (lines.filter fun l => l.uid = line.uid) = [line] := by
  induction lines with
  | nil => exact nomatch hline
  | cons first rest ih =>
    rw [List.map_cons, List.nodup_cons] at h
    have hne : ∀ l ∈ rest, l.uid ≠ first.uid := fun l hl e => h.1 (List.mem_map.mpr ⟨l, hl, e⟩)
    rcases List.mem_cons.mp hline with rfl | hline
    · rw [List.filter_cons_of_pos (by simp), List.filter_eq_nil_iff.mpr (by simpa using hne)]
    · rw [List.filter_cons_of_neg (by simpa using (hne line hline).symm), ih h.2 hline]

end Export

namespace Store

/-- The record is stored in the family. -/
def Has (s : Store) (f : Family) (r : Record) : Prop := s.get f r.uid = .ok (some r)

namespace Saved

open Export

variable {s : Store} (h : s.Saved fun _ e => e.Made)

include h

theorem marks {f : Family} {r : Record} (hr : s.Has f r) : Marks f (ownPrefix f r.kind) := by
  obtain ⟨e, -, rfl, e₀, hmade, -, hkind⟩ := h.exists_shown hr
  have hshown : (s.shown e).kind = e₀.kind := by
    rw [← hkind]
    cases s <;> rfl
  rw [hshown]
  exact marks_ownPrefix hmade

/-- **The uid of a line tells the family and the uid of its record.** -/
theorem prefixed_uid_inj {f g : Family} {r q : Record} (hr : s.Has f r) (hq : s.Has g q)
    (huid : (prefixed f r).uid = (prefixed g q).uid) : f = g ∧ r.uid = q.uid := by
  have hmark := h.marks hr
  have hmark' := h.marks hq
  obtain ⟨hsame, huids⟩ := Text.mark_inj ':' hmark.colon_notMem hmark'.colon_notMem huid
  exact ⟨hmark.family_unique (hsame ▸ hmark'), huids⟩

/-- The lines of an export are those of the stored records, and their uids are different. -/
theorem exists_lines : ∃ lines, s.exported = .ok lines ∧ (lines.map Record.uid).Nodup ∧
    ∀ line, line ∈ lines ↔ ∃ f r, s.Has f r ∧ line = prefixed f r := by
  choose records hlist hmem using fun f => h.filed.exists_list f .all
  have hhas : ∀ f r, r ∈ records f ↔ s.Has f r := fun f r =>
    (hmem f r).trans ⟨fun hr => hr.1, fun hr => ⟨hr, rfl⟩⟩
  refine ⟨_, gatherFrom_eq_ok hlist Family.all, ?_, fun line => ?_⟩
  · rw [List.map_flatMap, List.nodup_flatMap]
    constructor
    · -- within a family the uids are in order
      intro f _
      rw [List.map_map, List.Nodup, List.pairwise_map]
      refine (h.filed.sorted_list (hlist f)).imp_of_mem fun {r q} hr hq hlt huid => ?_
      have heq := (h.prefixed_uid_inj ((hhas f r).mp hr) ((hhas f q).mp hq) huid).2
      rw [heq] at hlt
      exact LinearKey.irrefl _ hlt
    · have hall : Family.all.Nodup := by decide
      refine hall.imp fun {f g} hne => ?_
      simp only [Function.onFun, List.disjoint_left, List.mem_map]
      rintro uid ⟨_, ⟨r, hr, rfl⟩, rfl⟩ ⟨_, ⟨q, hq, rfl⟩, huid⟩
      exact hne (h.prefixed_uid_inj ((hhas g q).mp hq) ((hhas f r).mp hr) huid).1.symm
  · simp only [List.mem_flatMap, List.mem_map, hhas]
    constructor
    · rintro ⟨f, -, r, hr, rfl⟩
      exact ⟨f, r, hr, rfl⟩
    · rintro ⟨f, r, hr, rfl⟩
      exact ⟨f, f.mem_all, r, hr, rfl⟩

omit h in
/-- A link is exported under the label of the family that it leads to, which is never that of events. -/
theorem get?_links_prefixed {f : Family} {r target : Record} {name : String} {l : Link} (hl : f.link? name = some l)
    (hname : r.links.get? name = some target.uid) :
    (prefixed f r).links.get? name = some (prefixed l.target target).uid := by
  have hevent : ∀ l ∈ f.links, l.target ≠ .event := by cases f <;> decide
  unfold prefixed
  rw [Dict.get?_mapValues, hname]
  simp only [Option.map_some, hl, ownPrefix, if_neg (hevent l (Family.mem_of_link? hl).1)]

/-- **An export has different uids, and its references resolve**: where the target of a link is stored, the link is
exported as the uid of just one line, which is the line of the target. -/
theorem exported_resolves : ∃ lines, s.exported = .ok lines ∧ (lines.map Record.uid).Nodup ∧
    (∀ line, line ∈ lines ↔ ∃ f r, s.Has f r ∧ line = prefixed f r) ∧
    ∀ f r, s.Has f r → ∀ name uid, r.links.get? name = some uid → ∃ l, f.link? name = some l ∧
      ∀ target, s.get l.target uid = .ok (some target) → ∃ text, (prefixed f r).links.get? name = some text ∧
        (lines.filter fun line => line.uid = text) = [prefixed l.target target] := by
  obtain ⟨lines, hexported, hnodup, hlines⟩ := h.exists_lines
  refine ⟨lines, hexported, hnodup, hlines, fun f r hr name uid hname => ?_⟩
  obtain ⟨l, hl⟩ : ∃ l, f.link? name = some l := by
    obtain ⟨e, -, rfl, -⟩ := h.exists_shown hr
    have hgiven : e.toRecord.links.get? name = some uid := by cases s <;> exact hname
    have hsome : (e.toRecord.links.get? name).isSome := by rw [hgiven]; rfl
    exact Option.isSome_iff_exists.mp (Links.isSome_link? (Entity.isSome_links_iff.mp hsome))
  refine ⟨l, hl, fun target htarget => ?_⟩
  obtain rfl : target.uid = uid := h.filed.keyed l.target uid target htarget
  exact ⟨_, get?_links_prefixed hl hname,
    filter_uid_eq_singleton hnodup ((hlines _).mpr ⟨l.target, target, htarget, rfl⟩)⟩

end Saved

end Store

/-- The graph after the first of three entities: an application, its customer, and a node that goes by the customer's name. -/
def namesakes (count : Nat) : Store :=
  .graph (.afterAll (List.take count [(.application, (Entity.application "t1" "a1" "One").toRecord),
    (.customer, (Entity.customer "t1" "First").toRecord), (.node, (Entity.node "t1" "host" "image" "large").toRecord)]))

theorem saved_namesakes : (namesakes 3).Saved fun _ e => e.Made := by
  have hfirst : (namesakes 1).Saved fun _ e => e.Made := .save .graph (.application "t1" "a1" "One") (by decide +kernel)
  have hsecond : (namesakes 2).Saved fun _ e => e.Made := .save hfirst (.customer "t1" "First") (by decide +kernel)
  exact .save hsecond (.node "t1" "host" "image" "large") (by decide +kernel)

/-- The application is exported with a link to its customer, not to the node of the same name. -/
theorem exported_namesakes : ∃ lines, (namesakes 3).exported = .ok lines ∧
    lines.map Record.uid = ["Node:t1", "Customer:t1", "Application:t1/a1"] ∧
    (Export.prefixed .application (Entity.application "t1" "a1" "One").toNode).links.get? "ownedBy" = some "Customer:t1" ∧
    (lines.filter fun line => line.uid = "Customer:t1") =
      [Export.prefixed .customer (Entity.customer "t1" "First").toNode] := by
  obtain ⟨lines, hexported, -, -, hresolves⟩ := saved_namesakes.exported_resolves
  have happlication : (namesakes 3).Has .application (Entity.application "t1" "a1" "One").toNode := by
    unfold Store.Has
    decide +kernel
  obtain ⟨l, hl, hresolves⟩ := hresolves _ _ happlication "ownedBy" "t1" (by decide +kernel)
  obtain rfl : (⟨"ownedBy", "OwnedBy", .customer⟩ : Link) = l := Option.some.inj hl
  obtain ⟨text, htext, hfilter⟩ := hresolves (Entity.customer "t1" "First").toNode (by decide +kernel)
  have hlink : (Export.prefixed .application (Entity.application "t1" "a1" "One").toNode).links.get? "ownedBy" =
      some "Customer:t1" := by decide +kernel
  obtain rfl : "Customer:t1" = text := Option.some.inj (hlink.symm.trans htext)
  have huids : (namesakes 3).exported.map (List.map Record.uid) =
      .ok ["Node:t1", "Customer:t1", "Application:t1/a1"] := by decide +kernel
  rw [hexported] at huids
  exact ⟨lines, hexported, Except.ok.inj huids, hlink, hfilter⟩

end FleetAtlas
