import FleetAtlas.Proofs.Storage.Agreement
import Mathlib.Data.Set.List

/-!
# Stores of entities

* `Store.Saved P`: the stores that come about by saving entities of which `P` holds, in any order and over each other;
* `Links.savedOver`: the links that a graph shows of an entity that was saved over another one;
* `Graph.exists_entity`: **what a graph of entities holds is again an entity**, of a kind that was saved;
* `Saved.exists_shown`, `Saved.exists_list`: so look-ups and lists show entities, in both models;
* `Saved.get_set`: what is saved with the kind and the links that were shown is shown itself.
-/

namespace FleetAtlas

/-! ### Links over links -/

namespace DeploymentInstanceLinks

/-- The links of an instance that is saved over another one in a graph: a node to be scheduled on stays. -/
def savedOver (new old : DeploymentInstanceLinks) : DeploymentInstanceLinks :=
  { new with scheduledOn := new.scheduledOn.or old.scheduledOn }

theorem mem_fields_iff {l : DeploymentInstanceLinks} {name uid : String} :
    (name, uid) ∈ Links.fields .deploymentInstance l ↔ (name = "instanceOf" ∧ uid = l.instanceOf.text) ∨
      (name = "usesArtifactConfiguration" ∧ uid = l.usesArtifactConfiguration.text) ∨
      (name = "usesRuntimeConfiguration" ∧ uid = l.usesRuntimeConfiguration.text) ∨
      (name = "scheduledOn" ∧ ∃ node ∈ l.scheduledOn, uid = node.text) := by
  obtain ⟨of, artifact, runtime, node⟩ := l
  cases node <;> simp [Links.fields]

theorem mem_fields_savedOver_iff {new old : DeploymentInstanceLinks} {name uid : String} :
    (name, uid) ∈ Links.fields .deploymentInstance (new.savedOver old) ↔
      (name, uid) ∈ Links.fields .deploymentInstance new ∨
        name ∉ (Links.fields .deploymentInstance new).map Prod.fst ∧ (name, uid) ∈ Links.fields .deploymentInstance old := by
  have hnames := Links.names_fields_instance new
  rw [hnames, mem_fields_iff, mem_fields_iff, mem_fields_iff]
  by_cases hname : name = "scheduledOn"
  · subst hname
    obtain ⟨of, artifact, runtime, node⟩ := new
    cases node <;> simp [savedOver]
  · have hgiven : name ∈ ["instanceOf", "usesArtifactConfiguration", "usesRuntimeConfiguration"] ++
        (new.scheduledOn.map fun _ => "scheduledOn").toList ↔ name = "instanceOf" ∨
          name = "usesArtifactConfiguration" ∨ name = "usesRuntimeConfiguration" := by simp [Ne.symm hname]
    simp only [hgiven, hname, savedOver, false_and, or_false]
    refine ⟨.inl, fun h => h.resolve_right ?_⟩
    rintro ⟨hnot, hold⟩
    exact hnot (hold.imp And.left (.imp And.left And.left))

end DeploymentInstanceLinks

/-- The links of an entity that is saved over another one in a graph. -/
def Links.savedOver : (f : Family) → Links f → Links f → Links f
  | .deploymentInstance, new, old => DeploymentInstanceLinks.savedOver new old
  | _, new, _ => new

theorem Links.savedOver_of_ne {f : Family} (hf : f ≠ .deploymentInstance) (new old : Links f) : savedOver f new old = new := by
  cases f
  case deploymentInstance => exact absurd rfl hf
  all_goals rfl

/-- A link is the new one of its name, or the old one if there is none. -/
theorem Links.mem_fields_savedOver_iff {f : Family} {new old : Links f} {name uid : String} :
    (name, uid) ∈ fields f (savedOver f new old) ↔ (name, uid) ∈ fields f new ∨
      name ∉ (fields f new).map Prod.fst ∧ (name, uid) ∈ fields f old := by
  by_cases hf : f = .deploymentInstance
  · subst hf
    exact DeploymentInstanceLinks.mem_fields_savedOver_iff
  · have hnames : (name, uid) ∈ fields f old → name ∈ (fields f new).map Prod.fst := by
      intro hmem
      rw [names_fields hf, ← names_fields hf old]
      exact List.mem_map.mpr ⟨_, hmem, rfl⟩
    rw [savedOver_of_ne hf]
    exact ⟨.inl, fun h => h.resolve_right fun h => h.1 (hnames h.2)⟩

/-- The links of an entity by name. -/
def Links.toDict (f : Family) (l : Links f) : Dict String String := .ofList (fields f l)

theorem Links.get?_toDict_savedOver {f : Family} (new old : Links f) (name : String) :
    (toDict f (savedOver f new old)).get? name = ((toDict f new).get? name).or ((toDict f old).get? name) := by
  have hmem : ∀ (l : Links f) uid, (toDict f l).get? name = some uid ↔ (name, uid) ∈ fields f l :=
    fun l uid => Dict.get?_ofList (nodup_fields f l)
  have hnone : (toDict f new).get? name = none ↔ name ∉ (fields f new).map Prod.fst := by
    rw [Option.eq_none_iff_forall_ne_some]
    simp [hmem]
  refine Option.ext fun uid => ?_
  rw [Option.or_eq_some_iff, hmem, hmem, hmem, hnone]
  exact mem_fields_savedOver_iff

/-! ### What graphs of entities hold -/

namespace Graph

variable {f : Family} {uid : String} {calls : List (Family × Record)}

theorem mem_of_mem_taken {r : Record} (h : r ∈ taken calls f uid) : (f, r) ∈ calls ∧ r.uid = uid := by
  obtain ⟨⟨f', r'⟩, hcall, rfl⟩ := List.mem_map.mp h
  obtain ⟨hmem, hcall⟩ := List.mem_filter.mp hcall
  simp only [Bool.and_eq_true, decide_eq_true_iff] at hcall
  exact ⟨hcall.1.1 ▸ hmem, hcall.1.2⟩

/-- **The targets that entities gave last are those of links**, of the last entity over the ones before. -/
theorem exists_links {records : List Record} (h : ∀ r ∈ records, ∃ e : Entity f, r = e.toRecord) (hne : records ≠ []) :
    ∃ l : Links f, ∀ name, lastTarget records name = (Links.toDict f l).get? name := by
  induction records using List.reverseRecOn with
  | nil => exact absurd rfl hne
  | append_singleton records r ih =>
    obtain ⟨e, rfl⟩ := h r (by simp)
    by_cases hfirst : records = []
    · refine ⟨e.links, fun name => ?_⟩
      rw [lastTarget_concat, hfirst]
      exact Option.or_none
    · obtain ⟨old, hold⟩ := ih (fun r hr => h r (List.mem_append_left _ hr)) hfirst
      refine ⟨Links.savedOver f e.links old, fun name => ?_⟩
      rw [lastTarget_concat, hold, Links.get?_toDict_savedOver]
      rfl

/-- The kinds that were ever given to a record. -/
def kindsOf (calls : List (Family × Record)) (f : Family) (uid kind : String) : Prop :=
  ∃ r ∈ taken calls f uid, kind = r.kind

/-- **What a graph of entities shows is an entity**: the last one, with the links of earlier ones that it lacks, and the
foremost of their kinds. -/
theorem exists_entity {P : (f : Family) → Entity f → Prop}
    (h : ∀ f r, (f, r) ∈ calls → ∃ e : Entity f, r = e.toRecord ∧ P f e) {r : Record}
    (hget : (afterAll calls).get f uid = some r) :
    ∃ e : Entity f, e.uid.text = uid ∧ r = e.toNode ∧ Foremost f (kindsOf calls f uid) e.kind ∧
      Holds f ((afterAll calls).nodeAt f uid) e.toRecord.nonNull e.toRecord.links.get? (kindsOf calls f uid) := by
  have htaken : ∀ r ∈ taken calls f uid, ∃ e : Entity f, r = e.toRecord := by
    intro r hr
    obtain ⟨e, he, -⟩ := h f r (mem_of_mem_taken hr).1
    exact ⟨e, he⟩
  have hholds := holds_afterAll calls f uid
  have hne : taken calls f uid ≠ [] := by
    intro hnil
    rw [get_eq_recordOf?, recordOf?, hholds.properties, hnil] at hget
    cases hget
  obtain ⟨l, hlinks⟩ := exists_links htaken hne
  have hnames : ∀ name, (lastTarget (taken calls f uid) name).isSome → (f.link? name).isSome :=
    fun name hname => isSome_link?_of_lastTarget hname
  obtain ⟨records, last, hrecords⟩ : ∃ records last, taken calls f uid = records ++ [last] :=
    ⟨_, _, (List.dropLast_concat_getLast hne).symm⟩
  have hlast : last ∈ taken calls f uid := by simp [hrecords]
  obtain ⟨e, rfl⟩ := htaken last hlast
  have hkind := (hholds.kindOf_eq_iff ⟨_, _, hlast, rfl⟩).mp rfl
  have hshown := hholds.get?_linksOf hnames
  rw [hrecords, lastProperties_concat, ← hrecords] at hholds
  rw [hholds.get_eq_some (Record.isEmpty_nonNull (exists_property e))] at hget
  have htargets : linksOf f ((afterAll calls).nodeAt f uid) = Links.toDict f l :=
    Dict.ext_get? fun name => (hshown name).trans (hlinks name)
  rw [funext hlinks] at hholds
  refine ⟨⟨⟨uid⟩, kindOf f ((afterAll calls).nodeAt f uid), e.properties, l⟩, rfl, ?_, hkind, hholds⟩
  rw [← Option.some.inj hget, htargets]
  rfl

/-- An entity is shown as it was saved if its node held its links and its kind before. -/
theorem get_set_of_holds {g g' : Graph} {e : Entity f} {properties : Dict String Json} {kinds : String → Prop}
    (hholds : Holds f (g.nodeAt f e.uid.text) properties e.toRecord.links.get? kinds) (hkind : Foremost f kinds e.kind)
    (hset : g.set f e.toRecord = .ok g') : g'.get f e.uid.text = some e.toNode := by
  have hstep := holds_set_self (r := e.toRecord) hholds hset
  have hkind' : kindOf f (g'.nodeAt f e.toRecord.uid) = e.kind := by
    refine (hstep.kindOf_eq_iff ⟨_, .inl rfl⟩).mpr ⟨.inl rfl, ?_⟩
    rintro k (rfl | hk)
    · exact (em (e.kind = f.label)).imp_right fun hne => ⟨hne, LinearKey.irrefl e.kind⟩
    · exact hkind.2 k hk
  have hlinks : linksOf f (g'.nodeAt f e.toRecord.uid) = e.toRecord.links := by
    refine Dict.ext_get? fun name => (hstep.get?_linksOf (fun name hname => ?_) name).trans Option.or_self
    rw [Option.or_self] at hname
    exact Links.isSome_link? (Entity.isSome_links_iff.mp hname)
  have hget := hstep.get_eq_some (Record.isEmpty_nonNull (exists_property e))
  rw [hkind', hlinks] at hget
  exact hget

end Graph

/-! ### Stores of entities -/

namespace Store

/-- The stores that come about by saving entities of which `P` holds. -/
inductive Saved (P : (f : Family) → Entity f → Prop) : Store → Prop
  | documents : Saved P (documents .empty)
  | graph : Saved P (graph .empty)
  | save {s s' : Store} {f : Family} {e : Entity f} : Saved P s → P f e → s.set f e.toRecord = .ok s' → Saved P s'

/-! ### Records that are shown -/

section

variable {f : Family} {e e' : Entity f} (s : Store)

@[simp] theorem uid_shown (e : Entity f) : (s.shown e).uid = e.uid.text := by cases s <;> rfl

theorem ofRecord?_shown (e : Entity f) : Entity.ofRecord? f (s.shown e) = some e := by
  cases s with
  | documents d => exact e.ofRecord?_toRecord
  | graph g => exact e.ofRecord?_toNode

variable {s}

theorem shown_inj (h : s.shown e = s.shown e') : e = e' := by
  have hread := s.ofRecord?_shown e
  rw [h, s.ofRecord?_shown] at hread
  exact (Option.some.inj hread).symm

theorem admits_shown (s : Store) (selection : Selection) (e : Entity f) :
    selection.admits (s.shown e).properties = selection.admits e.toRecord.properties := by
  cases s with
  | documents d => rfl
  | graph g => exact selection.admits_nonNull e.toRecord

/-- An entity is taken for its kind: its links are always those of its family. -/
theorem Takes.of_kind (h : s.Takes f e.toRecord) (hkind : e'.kind = e.kind) : s.Takes f e'.toRecord := by
  cases s with
  | documents d => exact ⟨_, rfl⟩
  | graph g =>
    obtain ⟨s', hs⟩ := h
    obtain ⟨g', hg, -⟩ := set_graph_eq_ok hs
    have haccepts := Graph.exists_set_iff_accepts.mp ⟨g', hg⟩
    have haccepts' : Graph.accepts f e'.toRecord = true := by
      unfold Graph.accepts at haccepts ⊢
      rw [Bool.and_eq_true, List.all_eq_true] at haccepts ⊢
      refine ⟨fun name hname => ?_, ?_⟩
      · exact Links.isSome_link? (Entity.isSome_links_iff.mp (Dict.mem_keys_iff.mp hname))
      · show (decide (e'.kind = f.label) || isIdentifier e'.kind) = true
        rw [hkind]
        exact haccepts.2
    obtain ⟨g'', hg''⟩ := Graph.exists_set_iff_accepts.mpr haccepts'
    exact ⟨_, set_graph_of_ok hg''⟩

end

namespace Saved

variable {P : (f : Family) → Entity f → Prop} {s s' : Store} {f : Family} {uid : String} {r : Record}

theorem filed (h : s.Saved P) : s.Filed := by
  induction h with
  | documents => exact Built.documents.filed
  | graph => exact Built.graph.filed
  | save _ _ hset ih => exact ih.set hset

theorem exists_entity {d : Documents} (h : (Store.documents d).Saved P) (hget : d.get f uid = .ok (some r)) :
    ∃ e : Entity f, e.uid.text = uid ∧ r = e.toRecord ∧ P f e := by
  generalize hs : Store.documents d = s at h
  induction h generalizing d with
  | documents =>
    obtain rfl := Store.documents.inj hs
    exact nomatch hget
  | graph => exact nomatch hs
  | @save s s' g e _ hP hset ih =>
    subst hs
    cases s with
    | documents d' =>
      obtain rfl : d'.set g e.toRecord = d := Store.documents.inj (Except.ok.inj hset)
      rw [Documents.get_set] at hget
      split at hget
      · next heq =>
        obtain ⟨rfl, rfl⟩ := heq
        exact ⟨e, rfl, (Option.some.inj (Except.ok.inj hget)).symm, hP⟩
      · exact ih hget rfl
    | graph g' =>
      obtain ⟨_, -, hs⟩ := set_graph_eq_ok hset
      exact nomatch hs

/-- A graph of entities is what the calls that saved them leave. -/
theorem exists_calls {g : Graph} (h : (Store.graph g).Saved P) : ∃ calls, g = Graph.afterAll calls ∧
    ∀ f r, (f, r) ∈ calls → ∃ e : Entity f, r = e.toRecord ∧ P f e := by
  generalize hs : Store.graph g = s at h
  induction h generalizing g with
  | documents => exact nomatch hs
  | graph =>
    obtain rfl := Store.graph.inj hs
    exact ⟨[], rfl, nofun⟩
  | @save s s' f e _ hP hset ih =>
    subst hs
    cases s with
    | documents d => exact nomatch Except.ok.inj hset
    | graph g' =>
      obtain ⟨g'', hg, hs⟩ := set_graph_eq_ok hset
      obtain rfl := Store.graph.inj hs
      obtain ⟨calls, rfl, hcalls⟩ := ih rfl
      refine ⟨calls ++ [(f, e.toRecord)], (Graph.afterAll_concat_of_ok hg).symm, fun f' r hmem => ?_⟩
      rcases List.mem_append.mp hmem with hmem | hmem
      · exact hcalls f' r hmem
      · obtain ⟨rfl, rfl⟩ := Prod.mk.inj (List.mem_singleton.mp hmem)
        exact ⟨e, rfl, hP⟩

/-- **What such a store shows is an entity**, of a kind that was saved. -/
theorem exists_shown (h : s.Saved P) (hget : s.get f uid = .ok (some r)) :
    ∃ e : Entity f, e.uid.text = uid ∧ r = s.shown e ∧
      ∃ e₀ : Entity f, P f e₀ ∧ s.Takes f e₀.toRecord ∧ e.kind = e₀.kind := by
  cases s with
  | documents d =>
    obtain ⟨e, huid, hr, hP⟩ := h.exists_entity hget
    exact ⟨e, huid, hr, e, hP, ⟨_, rfl⟩, rfl⟩
  | graph g =>
    obtain ⟨calls, rfl, hcalls⟩ := h.exists_calls
    obtain ⟨e, huid, hr, ⟨⟨r₀, hr₀, hkind⟩, -⟩, -⟩ := Graph.exists_entity hcalls (Except.ok.inj hget)
    obtain ⟨e₀, rfl, hP⟩ := hcalls f r₀ (Graph.mem_of_mem_taken hr₀).1
    obtain ⟨g', hset⟩ := Graph.exists_set_iff_accepts (g := .afterAll calls).mpr (Graph.accepts_of_mem_taken hr₀)
    exact ⟨e, huid, hr, e₀, hP, ⟨_, set_graph_of_ok hset⟩, hkind⟩

/-- **Its kind is one that was saved under its uid.** -/
theorem exists_kind (h : s.Saved P) (hget : s.get f uid = .ok (some r)) {e : Entity f}
    (he : Entity.ofRecord? f r = some e) : ∃ e₀ : Entity f, P f e₀ ∧ e₀.uid.text = uid ∧ e.kind = e₀.kind := by
  cases s with
  | documents d =>
    obtain ⟨e₀, huid, rfl, hP⟩ := h.exists_entity hget
    obtain rfl : e₀ = e := Option.some.inj (e₀.ofRecord?_toRecord.symm.trans he)
    exact ⟨e₀, hP, huid, rfl⟩
  | graph g =>
    obtain ⟨calls, rfl, hcalls⟩ := h.exists_calls
    obtain ⟨e₁, -, rfl, ⟨⟨r₀, hr₀, hkind⟩, -⟩, -⟩ := Graph.exists_entity hcalls (Except.ok.inj hget)
    obtain rfl : e₁ = e := Option.some.inj (e₁.ofRecord?_toNode.symm.trans he)
    obtain ⟨hcall, huid⟩ := Graph.mem_of_mem_taken hr₀
    obtain ⟨e₀, rfl, hP⟩ := hcalls f r₀ hcall
    exact ⟨e₀, hP, huid, hkind⟩

/-- The stored entity with a uid is the one that is shown. -/
theorem fetch?_eq_some_iff (h : s.Saved P) {e : Entity f} :
    s.fetch? e.uid = some e ↔ s.get f e.uid.text = .ok (some (s.shown e)) := by
  unfold fetch?
  constructor
  · intro hfetch
    split at hfetch
    · next r hget =>
      obtain ⟨e', -, rfl, -⟩ := h.exists_shown hget
      rw [s.ofRecord?_shown] at hfetch
      rw [hget, Option.some.inj hfetch]
    · exact nomatch hfetch
  · intro hget
    rw [hget]
    exact s.ofRecord?_shown e

/-- **A list shows the selected entities**, in the order of their uids. -/
theorem exists_list (h : s.Saved P) (f : Family) (selection : Selection) : ∃ es : List (Entity f),
    s.list f selection = .ok (es.map s.shown) ∧ es.Pairwise (fun e e' => e.uid.text < e'.uid.text) ∧
      ∀ e, e ∈ es ↔ s.fetch? e.uid = some e ∧ selection.admits e.toRecord.properties = true := by
  obtain ⟨rs, hlist, hmem⟩ := h.filed.exists_list f selection
  have hentities : ∀ r ∈ rs, ∃ e : Entity f, s.shown e = r := by
    intro r hr
    obtain ⟨e, -, he, -⟩ := h.exists_shown ((hmem r).mp hr).1
    exact ⟨e, he.symm⟩
  obtain ⟨es, rfl⟩ : rs ∈ Set.range (List.map fun e : Entity f => s.shown e) := by
    rw [Set.range_list_map]
    exact hentities
  refine ⟨es, hlist, ?_, fun e => ?_⟩
  · have hsorted := h.filed.sorted_list hlist
    simpa [List.pairwise_map] using hsorted
  · have hshown : s.shown e ∈ es.map s.shown ↔ e ∈ es := by
      refine ⟨fun hmap => ?_, fun he => List.mem_map.mpr ⟨e, he, rfl⟩⟩
      obtain ⟨e', he', heq⟩ := List.mem_map.mp hmap
      exact shown_inj heq ▸ he'
    rw [← hshown, hmem, uid_shown, admits_shown, h.fetch?_eq_some_iff]

/-- **An entity that is saved over the one that is shown**, with the same kind and links, is shown itself. -/
theorem get_set (h : s.Saved P) {e e' : Entity f} (hget : s.get f e.uid.text = .ok (some (s.shown e)))
    (huid : e'.uid = e.uid) (hkind : e'.kind = e.kind) (hlinks : e'.links = e.links)
    (hset : s.set f e'.toRecord = .ok s') : s'.get f e.uid.text = .ok (some (s'.shown e')) := by
  cases s with
  | documents d =>
    obtain rfl : Store.documents (d.set f e'.toRecord) = s' := Except.ok.inj hset
    exact (d.get_set f f e'.toRecord e.uid.text).trans (if_pos ⟨rfl, congrArg Uid.text huid.symm⟩)
  | graph g =>
    obtain ⟨g', hg, rfl⟩ := set_graph_eq_ok hset
    obtain ⟨calls, rfl, hcalls⟩ := h.exists_calls
    obtain ⟨e₁, -, he₁, hforemost, hholds⟩ := Graph.exists_entity hcalls (Except.ok.inj hget)
    obtain rfl : e = e₁ := shown_inj (s := .graph (.afterAll calls)) he₁
    have hlinks' : e'.toRecord.links = e.toRecord.links := congrArg (Links.toDict f) hlinks
    rw [← huid, ← hlinks'] at hholds
    rw [← huid, ← hkind] at hforemost
    rw [← huid]
    exact congrArg Except.ok (Graph.get_set_of_holds hholds hforemost hg)

end Saved

end Store

end FleetAtlas
