import FleetAtlas.Proofs.Storage.Merge
import FleetAtlas.Proofs.Storage.Service
import Mathlib.Logic.Function.Basic

/-!
# Both models answer alike

* `Operation`, `Service.answers`: what the repositories are asked to do, and what they answer, one operation after the other;
* `Holdings`: the plain maps from uids to entities that a store stands for, and `Holdings.answers`, what these answer;
* `Entity.Made`, `Regular`: the entities as they are observed, and the histories in which no entity is stored over one that
  a graph would go on showing;
* `Store.Shows`: a store of either model shows these entities and no others; `Shows.save`: it still does after a save;
  `Shows.get_eq`, `Shows.list_eq`, `Shows.answer_eq`: so it answers as the plain maps do;
* `Regular.answers_eq`: **both models give the same answers**.
-/

namespace FleetAtlas

/-! ### Operations -/

/-- What the repositories are asked to do. -/
inductive Operation where
  | save (f : Family) (e : Entity f)
  | fetch (f : Family) (uid : String)
  | select (f : Family) (selection : Selection)
  | drop

inductive Answer where
  | saved (result : Except StorageError Unit)
  | found (f : Family) (result : Except StorageError (Option (Entity f)))
  | listed (f : Family) (result : Except StorageError (List (Entity f)))
  | dropped

namespace Service

def perform (s : Service) : Operation → Answer × Service
  | .save _ e => ((.saved (s.save e).1), (s.save e).2)
  | .fetch f uid => (.found f (s.fetch f uid).1, (s.fetch f uid).2)
  | .select f selection => (.listed f (s.select f selection).1, (s.select f selection).2)
  | .drop => (.dropped, s.drop)

/-- The answers to operations, one after the other. -/
def answers (s : Service) : List Operation → List Answer
  | [] => []
  | o :: os => (s.perform o).1 :: answers (s.perform o).2 os

end Service

/-! ### Plain maps -/

/-- The entities of every family, by uid. -/
abbrev Holdings := (f : Family) → Dict String (Entity f)

namespace Holdings

def empty : Holdings := fun _ => ∅

def save (h : Holdings) {f : Family} (e : Entity f) : Holdings := Function.update h f ((h f).insert e.uid.text e)

def next (h : Holdings) : Operation → Holdings
  | .save _ e => h.save e
  | .fetch _ _ => h
  | .select _ _ => h
  | .drop => empty

/-- The selected entities, by uid. -/
def select (h : Holdings) (f : Family) (selection : Selection) : List (Entity f) :=
  (h f).values.filter fun e => selection.admits e.toRecord.properties

def answer (h : Holdings) : Operation → Answer
  | .save _ _ => .saved (.ok ())
  | .fetch f uid => .found f (.ok ((h f).get? uid))
  | .select f selection => .listed f (.ok (h.select f selection))
  | .drop => .dropped

def answers (h : Holdings) : List Operation → List Answer
  | [] => []
  | o :: os => h.answer o :: answers (h.next o) os

/-- The entities that are left by operations. -/
def after (os : List Operation) : Holdings := os.foldl next empty

theorem after_concat (os : List Operation) (o : Operation) : after (os ++ [o]) = (after os).next o := by
  rw [after, List.foldl_append]
  rfl

theorem get?_save (h : Holdings) {f : Family} (e : Entity f) (uid : String) :
    (h.save e f).get? uid = if uid = e.uid.text then some e else (h f).get? uid := by
  unfold save
  rw [Function.update_self, Dict.get?_insert]

theorem save_of_ne (h : Holdings) {f g : Family} (e : Entity f) (hne : g ≠ f) : h.save e g = h g :=
  Function.update_of_ne hne _ _

/-- Entities are held under their uids. -/
def Keyed (h : Holdings) : Prop := ∀ (f : Family) (uid : String), ∀ e ∈ (h f).get? uid, e.uid.text = uid

/-- **Where an entity comes from**: it was saved, and nothing was dropped since. -/
theorem exists_save_of_after {os : List Operation} {f : Family} {uid : String} {e : Entity f}
    (h : (after os f).get? uid = some e) :
    e.uid.text = uid ∧ ∃ before between, os = before ++ .save f e :: between ∧ .drop ∉ between := by
  induction os using List.reverseRecOn with
  | nil => cases h
  | append_singleton os o ih =>
    rw [after_concat] at h
    -- an operation that leaves the entity in place comes after its save
    have hlater : (after os f).get? uid = some e → o ≠ .drop →
        e.uid.text = uid ∧ ∃ before between, os ++ [o] = before ++ .save f e :: between ∧ .drop ∉ between := by
      intro hget hdrop
      obtain ⟨huid, before, between, hos, hnot⟩ := ih hget
      refine ⟨huid, before, between ++ [o], by simp [hos], fun hmem => ?_⟩
      rcases List.mem_append.mp hmem with hmem | hmem
      · exact hnot hmem
      · exact hdrop (List.mem_singleton.mp hmem).symm
    cases o with
    | save f' e' =>
      by_cases hf : f = f'
      · subst hf
        have hget := h
        rw [next, get?_save] at hget
        split at hget
        · next huid =>
          obtain rfl := Option.some.inj hget
          exact ⟨huid.symm, os, [], rfl, List.not_mem_nil⟩
        · exact hlater hget (by simp)
      · rw [next, save_of_ne _ _ hf] at h
        exact hlater h (by simp)
    | fetch f' uid' => exact hlater h (by simp)
    | select f' selection => exact hlater h (by simp)
    | drop => cases h

theorem keyed_after (os : List Operation) : (after os).Keyed := fun _ _ _ h => (exists_save_of_after h).1

end Holdings

/-! ### Entities as they are observed -/

def DeploymentInstance.scheduledOn (i : DeploymentInstance) : Option (Uid .node) := DeploymentInstanceLinks.scheduledOn i.links

/-- Entities as they are observed; an instance may have been stopped since. -/
inductive Entity.Made : {f : Family} → Entity f → Prop
  | node (name hostname image nodeType : String) : Made (Entity.node name hostname image nodeType)
  | customer (id name : String) : Made (Entity.customer id name)
  | application (customerId id name : String) : Made (Entity.application customerId id name)
  | environment (customerId applicationId name : String) : Made (Entity.environment customerId applicationId name)
  | artifact (customerId id : String) : Made (Entity.artifact customerId id)
  | artifactVersion (customerId artifactId name : String) (released : Option Timestamp) :
      Made (Entity.artifactVersion customerId artifactId name released)
  | runtimeVersion (major minor patch : UInt32) (prerelease : Option String) (released : Option Timestamp) :
      Made (Entity.runtimeVersion major minor patch prerelease released)
  | deployment (customerId applicationId environmentName revision name : String) (created : Timestamp)
      (version : Uid .artifactVersion) (runtime : Uid .runtimeVersion) :
      Made (Entity.deployment customerId applicationId environmentName revision name created version runtime)
  | artifactConfiguration (customerId applicationId environmentName artifactId hash : String) :
      Made (Entity.artifactConfiguration customerId applicationId environmentName artifactId hash)
  | runtimeConfiguration (customerId applicationId environmentName artifactId hash : String) :
      Made (Entity.runtimeConfiguration customerId applicationId environmentName artifactId hash)
  | deploymentInstance (of : Uid .deployment) (id : String) (started : Timestamp)
      (configuration : Uid .artifactConfiguration) (runtime : Uid .runtimeConfiguration) (on : Option (Uid .node)) :
      Made (Entity.deploymentInstance of id started configuration runtime on)
  | stopped {i : DeploymentInstance} (time : Timestamp) : Made i → Made (i.stop time)
  | event (uid : Uid .event) (kind : EventKind) (count : Int32) (first last : Timestamp) (platform : Bool)
      (subject : Uid .deploymentInstance) : Made (Entity.event uid kind count first last platform subject)

/-- Histories of entities as they are observed, in which no event is saved as one of two kinds, and no instance is saved
without a node after it was saved with one, unless all was dropped in between. -/
structure Regular (os : List Operation) : Prop where
  made : ∀ (f : Family) (e : Entity f), .save f e ∈ os → e.Made
  kinds : ∀ e e' : Event, .save .event e ∈ os → .save .event e' ∈ os → e.uid = e'.uid → e.kind = e'.kind
  scheduled : ∀ (before between later : List Operation) (i i' : DeploymentInstance),
    os = before ++ .save .deploymentInstance i :: (between ++ .save .deploymentInstance i' :: later) →
      .drop ∉ between → i.uid = i'.uid → i.scheduledOn.isSome → i'.scheduledOn.isSome

namespace Entity

variable {f : Family} {e : Entity f}

theorem Made.kind (h : e.Made) : e.kind = f.label ∨ f = .event ∧ ∃ kind : EventKind, e.kind = kind.name := by
  induction h with
  | stopped time _ ih =>
    unfold DeploymentInstance.stop
    split <;> exact ih
  | event _ kind => exact .inr ⟨rfl, kind, rfl⟩
  | _ => exact .inl rfl

theorem isSome_links_iff {name : String} :
    (e.toRecord.links.get? name).isSome ↔ name ∈ (Links.fields f e.links).map Prod.fst := by
  rw [← Dict.mem_keys_iff]
  constructor
  · intro h
    obtain ⟨⟨name, uid⟩, hmem, rfl⟩ := List.mem_map.mp h
    have hget := (Dict.get?_ofList (Links.nodup_fields f e.links)).mp (Dict.mem_toList_iff.mp hmem)
    exact List.mem_map.mpr ⟨_, hget, rfl⟩
  · intro h
    obtain ⟨⟨name, uid⟩, hmem, rfl⟩ := List.mem_map.mp h
    have hget := (Dict.get?_ofList (Links.nodup_fields f e.links)).mpr hmem
    exact Dict.mem_keys_iff.mpr (Option.isSome_iff_exists.mpr ⟨uid, hget⟩)

end Entity

theorem Links.names_fields {f : Family} (hf : f ≠ .deploymentInstance) (l : Links f) :
    (fields f l).map Prod.fst = f.links.map Link.name := by
  cases f
  case deploymentInstance => exact absurd rfl hf
  all_goals rfl

theorem Links.names_fields_instance (l : Links .deploymentInstance) : (fields .deploymentInstance l).map Prod.fst =
    ["instanceOf", "usesArtifactConfiguration", "usesRuntimeConfiguration"] ++
      ((DeploymentInstanceLinks.scheduledOn l).map fun _ => "scheduledOn").toList := by
  obtain ⟨of, artifact, runtime, scheduledOn⟩ := l
  cases scheduledOn <;> rfl

theorem Links.isSome_link? {f : Family} {l : Links f} {name : String} (h : name ∈ (fields f l).map Prod.fst) :
    (f.link? name).isSome := by
  have hname : name ∈ f.links.map Link.name := by
    by_cases hf : f = .deploymentInstance
    · subst hf
      have hnames : ∀ name ∈ ["instanceOf", "usesArtifactConfiguration", "usesRuntimeConfiguration", "scheduledOn"],
          name ∈ Family.deploymentInstance.links.map Link.name := by decide
      rw [Links.names_fields_instance] at h
      refine hnames name ?_
      rcases List.mem_append.mp h with h | h
      · exact List.mem_append_left ["scheduledOn"] h
      · obtain ⟨_, -, rfl⟩ := Option.map_eq_some_iff.mp (Option.mem_toList.mp h)
        decide
    · rwa [Links.names_fields hf] at h
  obtain ⟨link, hlink, rfl⟩ := List.mem_map.mp hname
  exact List.find?_isSome.mpr ⟨link, hlink, by simp⟩

theorem Entity.Made.accepts {f : Family} {e : Entity f} (h : e.Made) : Graph.accepts f e.toRecord = true := by
  unfold Graph.accepts
  rw [Bool.and_eq_true, List.all_eq_true, Bool.or_eq_true, decide_eq_true_iff]
  refine ⟨fun name hname => ?_, ?_⟩
  · exact Links.isSome_link? (Entity.isSome_links_iff.mp (Dict.mem_keys_iff.mp hname))
  · rcases h.kind with hkind | ⟨-, kind, hkind⟩
    · exact .inl hkind
    · refine .inr ?_
      show isIdentifier e.kind = true
      rw [hkind]
      cases kind <;> decide

/-! ### What stores show -/

/-- An entity that is saved over another one leaves a graph nothing more to show of that. -/
def Entity.Covered {f : Family} (old new : Entity f) : Prop :=
  old.kind = new.kind ∧ ∀ name, (old.toRecord.links.get? name).isSome → (new.toRecord.links.get? name).isSome

/-- The record of an entity in a graph. -/
def Entity.toNode {f : Family} (e : Entity f) : Record := { e.toRecord with properties := e.toRecord.nonNull }

theorem Entity.ofRecord?_toNode {f : Family} (e : Entity f) : ofRecord? f e.toNode = some e := by
  have hcovers : e.toNode.Covers e := ⟨rfl, e.toRecord.filter_nonNull, id⟩
  exact hcovers.ofRecord?_eq rfl rfl

theorem Selection.admits_nonNull (selection : Selection) (r : Record) :
    selection.admits r.nonNull = selection.admits r.properties := by
  cases selection with
  | all => rfl
  | unset property =>
    unfold admits holds
    simp only [Record.nonNull, Dict.get?_filter]
    cases r.properties.get? property with
    | none => rfl
    | some j => cases hj : j.isNull <;> simp [Option.filter, hj]

namespace Graph

/-- The node of a uid holds what an entity says, if there is one. -/
def Bears (g : Graph) (f : Family) (uid : String) (e? : Option (Entity f)) : Prop :=
  Holds f (g.nodeAt f uid) (e?.elim ∅ fun e => e.toRecord.nonNull)
    (fun name => e?.bind fun e => e.toRecord.links.get? name) (fun kind => ∃ e ∈ e?, kind = e.kind)

variable {g g' : Graph} {f : Family} {uid : String} {e : Entity f} {e? : Option (Entity f)}

theorem bears_none (hholds : Holds f (g.nodeAt f uid) ∅ (fun _ => none) (fun _ => False)) : g.Bears f uid none := by
  obtain ⟨hproperties, hedges, hlabels⟩ := hholds
  exact ⟨hproperties, hedges, fun kind hne => (hlabels kind hne).trans (by simp)⟩

theorem Bears.set_self (h : g.Bears f e.uid.text e?) (hset : g.set f e.toRecord = .ok g')
    (hcovered : ∀ old ∈ e?, old.Covered e) : g'.Bears f e.uid.text (some e) := by
  have hstep := holds_set_self (r := e.toRecord) h hset
  refine ⟨hstep.properties, fun l hl => (hstep.edges l hl).trans (congrArg _ ?_), fun kind hne => ?_⟩
  · show (e.toRecord.links.get? l.name).or (e?.bind fun e => e.toRecord.links.get? l.name) = e.toRecord.links.get? l.name
    cases hlink : e.toRecord.links.get? l.name with
    | some uid => rfl
    | none =>
      rw [Option.none_or, ← Option.not_isSome_iff_eq_none]
      intro hsome
      obtain ⟨uid, huid⟩ := Option.isSome_iff_exists.mp hsome
      obtain ⟨old, hold, hget⟩ := Option.bind_eq_some_iff.mp huid
      have hnew := (hcovered old hold).2 l.name (hget ▸ rfl)
      rw [hlink] at hnew
      exact nomatch hnew
  · refine (hstep.labels kind hne).trans ?_
    constructor
    · rintro (hkind | ⟨old, hold, hkind⟩)
      · exact ⟨e, rfl, hkind⟩
      · exact ⟨e, rfl, hkind.trans (hcovered old hold).1⟩
    · rintro ⟨e', he', hkind⟩
      obtain rfl := Option.some.inj he'
      exact .inl hkind

theorem recordOf?_of_bears (h : g.Bears f uid e?) (huid : ∀ e ∈ e?, e.uid.text = uid) :
    recordOf? f uid (g.nodeAt f uid) = e?.map Entity.toNode := by
  cases e? with
  | none =>
    rw [recordOf?, h.properties]
    rfl
  | some e =>
    have hkind : kindOf f (g.nodeAt f uid) = e.kind := by
      refine (h.kindOf_eq_iff ⟨e.kind, e, rfl, rfl⟩).mpr ⟨⟨e, rfl, rfl⟩, ?_⟩
      rintro kind ⟨e', he', rfl⟩
      rw [← Option.some.inj he']
      exact (em (e.kind = f.label)).imp_right fun hne => ⟨hne, LinearKey.irrefl e.kind⟩
    have hlinks : linksOf f (g.nodeAt f uid) = e.toRecord.links := by
      refine Dict.ext_get? fun name => h.get?_linksOf (fun name hname => ?_) name
      exact Links.isSome_link? (Entity.isSome_links_iff.mp hname)
    have hrecord := h.get_eq_some (Record.isEmpty_nonNull (exists_property e))
    rw [get_eq_recordOf?] at hrecord
    rw [hrecord, hkind, hlinks, ← huid e rfl]
    rfl

/-- A node that is not there counts as one without a record. -/
theorem bind_labelled (g : Graph) (f : Family) (uid : String) (selection : Selection) :
    ((g.labelled f.label).get? uid).bind (fun node =>
        if selection.admits node.properties then recordOf? f uid node else none) =
      if selection.admits (g.nodeAt f uid).properties then recordOf? f uid (g.nodeAt f uid) else none := by
  unfold nodeAt find?
  cases (g.labelled f.label).get? uid with
  | none => exact (ite_self none).symm
  | some node => rfl

theorem list_eq (g : Graph) (f : Family) (selection : Selection) :
    g.list f selection = ((g.labelled f.label).filterMap fun uid node =>
      if selection.admits node.properties then recordOf? f uid node else none).values := by
  unfold list findAll
  rw [Dict.values_filterMap, List.filterMap_filter]

end Graph

namespace Store

/-- A store shows these entities, and no others. -/
def Shows (h : Holdings) : Store → Prop
  | documents d => ∀ (f : Family) (uid : String),
      d.find? f.collection uid = ((h f).get? uid).map fun e => e.toRecord.toDocument
  | graph g => ∀ (f : Family) (uid : String), g.Bears f uid ((h f).get? uid)

/-- The record that a store shows of an entity. -/
def shown {f : Family} (s : Store) (e : Entity f) : Record :=
  match s with
  | documents _ => e.toRecord
  | graph _ => e.toNode

theorem decode_shown {f : Family} (s : Store) (e : Entity f) : Service.decode f (s.shown e) = .ok e := by
  unfold Service.decode
  cases s with
  | documents d => rw [shown, Entity.ofRecord?_toRecord]
  | graph g => rw [shown, Entity.ofRecord?_toNode]

variable {s : Store} {h : Holdings}

theorem shows_drop (s : Store) : s.drop.Shows .empty := by
  cases s with
  | documents d => exact fun f uid => rfl
  | graph g => exact fun f uid => Graph.bears_none (Graph.holds_empty f)

/-- **A save is shown**, and everything else still is. -/
theorem Shows.save (hs : s.Shows h) {f : Family} {e : Entity f} (hmade : e.Made)
    (hcovered : ∀ old ∈ (h f).get? e.uid.text, old.Covered e) :
    ∃ s', s.set f e.toRecord = .ok s' ∧ s'.Shows (h.save e) := by
  have hself : ((h.save e) f).get? e.uid.text = some e := by rw [Holdings.get?_save, if_pos rfl]
  have hother : ∀ g uid, ¬ (g = f ∧ uid = e.uid.text) → ((h.save e) g).get? uid = (h g).get? uid := by
    intro g uid hne
    by_cases hg : g = f
    · subst hg
      rw [Holdings.get?_save, if_neg fun e => hne ⟨rfl, e⟩]
    · rw [Holdings.save_of_ne _ _ hg]
  cases s with
  | documents d =>
    refine ⟨_, rfl, fun g uid => ?_⟩
    rw [Documents.find?_set]
    split
    · next heq =>
      obtain ⟨rfl, rfl⟩ := heq
      exact (congrArg (Option.map fun e : Entity g => e.toRecord.toDocument) hself).symm
    · next hne => rw [hother g uid hne, hs g uid]
  | graph g₀ =>
    obtain ⟨g', hset⟩ := Graph.exists_set_iff_accepts.mpr hmade.accepts
    refine ⟨graph g', set_graph_of_ok hset, fun g uid => ?_⟩
    by_cases hown : g = f ∧ uid = e.uid.text
    · obtain ⟨rfl, rfl⟩ := hown
      rw [hself]
      exact (hs g e.uid.text).set_self hset hcovered
    · rw [hother g uid hown]
      exact Graph.holds_set_of_ne (hs g uid) hset hown

/-! ### What stores answer -/

variable (hs : s.Shows h) (hkeyed : h.Keyed)

include hs hkeyed

theorem Shows.get_eq (f : Family) (uid : String) : s.get f uid = .ok (((h f).get? uid).map s.shown) := by
  cases s with
  | documents d =>
    simp only [Store.get, Documents.get, hs f uid]
    cases (h f).get? uid with
    | none => rfl
    | some e =>
      simp only [Option.map_some, Record.ofDocument_toDocument]
      rfl
  | graph g =>
    refine congrArg Except.ok ?_
    rw [Graph.get_eq_recordOf?]
    exact Graph.recordOf?_of_bears (hs f uid) (hkeyed f uid)

theorem Shows.list_eq (f : Family) (selection : Selection) :
    s.list f selection = .ok ((h.select f selection).map s.shown) := by
  cases s with
  | documents d =>
    have hcollection : d.collection f.collection = (h f).mapValues fun _ e => e.toRecord.toDocument := by
      refine Dict.ext_get? fun uid => ?_
      rw [Dict.get?_mapValues]
      exact hs f uid
    have hselected : d.findAll f.collection selection = (h.select f selection).map fun e => e.toRecord.toDocument := by
      unfold Documents.findAll Holdings.select
      rw [hcollection, Dict.values_mapValues, List.filter_map]
      simp only [Function.comp_def, Documents.admits_toDocument]
    show (d.findAll f.collection selection).mapM Record.ofDocument = _
    rw [hselected]
    exact mapM_map_eq_ok (fun e => e.toRecord.ofDocument_toDocument) _
  | graph g =>
    refine congrArg Except.ok ?_
    rw [Graph.list_eq]
    have hnodes : (g.labelled f.label).filterMap (fun uid node =>
        if selection.admits node.properties then Graph.recordOf? f uid node else none) =
          ((h f).filter fun _ e => selection.admits e.toRecord.properties).mapValues fun _ e => e.toNode := by
      refine Dict.ext_get? fun uid => ?_
      rw [Dict.get?_filterMap, Dict.get?_mapValues, Dict.get?_filter, Graph.bind_labelled]
      have hrecord := Graph.recordOf?_of_bears (hs f uid) (hkeyed f uid)
      have hproperties := (hs f uid).properties
      rw [hrecord]
      cases he : (h f).get? uid with
      | none =>
        rw [Option.map_none]
        exact ite_self none
      | some e =>
        rw [he, Option.elim_some] at hproperties
        rw [hproperties, Selection.admits_nonNull]
        cases hadmits : selection.admits e.toRecord.properties <;> simp [Option.filter, hadmits]
    rw [hnodes, Dict.values_mapValues, Dict.values_filter]
    rfl

end Store

/-! ### Histories -/

/-- What is saved over an entity in a regular history covers it. -/
theorem Regular.covered {past later : List Operation} {f : Family} {old e : Entity f}
    (h : Regular (past ++ .save f e :: later)) (hold : old ∈ (Holdings.after past f).get? e.uid.text) :
    old.Covered e := by
  obtain ⟨huid, before, between, hpast, hdrop⟩ := Holdings.exists_save_of_after hold
  have huid : old.uid = e.uid := Uid.eq_of_text huid
  have hsaved : .save f old ∈ past ++ .save f e :: later := by simp [hpast]
  have hsaves : .save f e ∈ past ++ .save f e :: later := by simp
  refine ⟨?_, fun name hname => ?_⟩
  · rcases (h.made f old hsaved).kind with hkind | ⟨hf, -⟩
    · rcases (h.made f e hsaves).kind with hkind' | ⟨hf, -⟩
      · rw [hkind, hkind']
      · subst hf
        exact h.kinds old e hsaved hsaves huid
    · subst hf
      exact h.kinds old e hsaved hsaves huid
  · rw [Entity.isSome_links_iff] at hname ⊢
    by_cases hf : f = .deploymentInstance
    · subst hf
      rw [Links.names_fields_instance, List.mem_append] at hname ⊢
      refine hname.imp_right fun hname => ?_
      obtain ⟨node, hnode, hlink⟩ := Option.map_eq_some_iff.mp (Option.mem_toList.mp hname)
      have hscheduled : (DeploymentInstance.scheduledOn e).isSome := by
        refine h.scheduled before between later old e ?_ hdrop huid (Option.isSome_iff_exists.mpr ⟨node, hnode⟩)
        simp [hpast]
      obtain ⟨node', hnode'⟩ := Option.isSome_iff_exists.mp hscheduled
      exact Option.mem_toList.mpr (Option.map_eq_some_iff.mpr ⟨node', hnode', hlink⟩)
    · rwa [Links.names_fields hf] at hname ⊢

/-- A service whose store shows these entities answers as they do, and shows what is left of them. -/
theorem Service.perform_of_shows {s : Service} {h : Holdings} (hfaults : s.faults = []) (hs : s.store.Shows h)
    (hkeyed : h.Keyed) {o : Operation}
    (hsave : ∀ (f : Family) (e : Entity f), o = .save f e → e.Made ∧ ∀ old ∈ (h f).get? e.uid.text, old.Covered e) :
    (s.perform o).1 = h.answer o ∧ (s.perform o).2.faults = [] ∧ (s.perform o).2.store.Shows (h.next o) := by
  cases o with
  | save f e =>
    obtain ⟨hmade, hcovered⟩ := hsave f e rfl
    obtain ⟨store, hset, hshows⟩ := hs.save hmade hcovered
    obtain ⟨s', hservice, rfl, hfaults'⟩ := set_of_faults_nil hfaults hset
    simp only [perform, Service.save, hservice]
    exact ⟨rfl, hfaults', hshows⟩
  | fetch f uid =>
    obtain ⟨s', hservice, hstore, hfaults'⟩ := get_of_faults_nil hfaults f uid
    rw [hs.get_eq hkeyed] at hservice
    simp only [perform, Service.fetch, hservice]
    refine ⟨congrArg (Answer.found f) ?_, hfaults', hstore ▸ hs⟩
    cases (h f).get? uid with
    | none => rfl
    | some e => simp [bind, Except.bind, pure, Except.pure, s.store.decode_shown]
  | select f selection =>
    obtain ⟨s', hservice, hstore, hfaults'⟩ := list_of_faults_nil hfaults f selection
    rw [hs.list_eq hkeyed] at hservice
    simp only [perform, Service.select, hservice]
    refine ⟨congrArg (Answer.listed f) ?_, hfaults', hstore ▸ hs⟩
    have hdecoded := mapM_map_eq_ok (g := id) (fun e => s.store.decode_shown e) (h.select f selection)
    rw [List.map_id] at hdecoded
    exact hdecoded
  | drop => exact ⟨rfl, hfaults, s.store.shows_drop⟩

/-- **A regular history is answered as plain maps would**, from any store that shows what the past left. -/
theorem Service.answers_of_shows {past os : List Operation} (h : Regular (past ++ os)) {s : Service} (hfaults : s.faults = [])
    (hs : s.store.Shows (Holdings.after past)) : s.answers os = (Holdings.after past).answers os := by
  induction os generalizing past s with
  | nil => rfl
  | cons o os ih =>
    have hsave : ∀ (f : Family) (e : Entity f), o = .save f e →
        e.Made ∧ ∀ old ∈ (Holdings.after past f).get? e.uid.text, old.Covered e := by
      rintro f e rfl
      exact ⟨h.made f e (by simp), fun old hold => h.covered hold⟩
    obtain ⟨hanswer, hfaults', hs'⟩ := perform_of_shows hfaults hs (Holdings.keyed_after past) hsave
    rw [← Holdings.after_concat] at hs'
    rw [List.append_cons] at h
    rw [answers, Holdings.answers, hanswer, ih h hfaults' hs', Holdings.after_concat]

/-- **Both models give the same answers** to a regular history, those of the plain maps. -/
theorem Regular.answers_eq {os : List Operation} (h : Regular os) :
    (Service.on (.documents .empty)).answers os = (Service.on (.graph .empty)).answers os ∧
      (Service.on (.graph .empty)).answers os = Holdings.empty.answers os := by
  have hpast : Regular ([] ++ os) := h
  have hdocuments : (Service.on (.documents .empty)).answers os = Holdings.empty.answers os :=
    Service.answers_of_shows hpast rfl (Store.shows_drop (.documents .empty))
  have hgraph : (Service.on (.graph .empty)).answers os = Holdings.empty.answers os :=
    Service.answers_of_shows hpast rfl (Store.shows_drop (.graph .empty))
  exact ⟨hdocuments.trans hgraph.symm, hgraph⟩

/-- An instance, which may be scheduled on a node. -/
def rolledOut (on : Option (Uid .node)) : DeploymentInstance :=
  .deploymentInstance (.deployment "t1" "a1" "Dev" "4") "p1" .epoch ⟨"t1/a1/Dev/m1/a"⟩ ⟨"t1/a1/Dev/m1/r"⟩ on

/-- All is dropped between the save of an instance on a node and that of the same instance without one, which has been
stopped. -/
def relaunch : List Operation :=
  [.save .deploymentInstance (rolledOut (some (.node "n1"))), .drop,
    .save .deploymentInstance ((rolledOut none).stop .epoch), .select .deploymentInstance (.unset "stopped"),
    .fetch .deploymentInstance "t1/a1/Dev/4/p1"]

theorem regular_relaunch : Regular relaunch where
  made f e he := by
    have hmade : ∀ on, (rolledOut on).Made := fun on => .deploymentInstance _ _ _ _ _ on
    simp only [relaunch, List.mem_cons, Operation.save.injEq, List.not_mem_nil, reduceCtorEq, or_false, false_or] at he
    rcases he with ⟨rfl, he⟩ | ⟨rfl, he⟩ <;> obtain rfl := eq_of_heq he
    · exact hmade _
    · exact (hmade _).stopped .epoch
  kinds e e' he := by simp [relaunch] at he
  scheduled before between later i i' hos hdrop huid hi := by
    -- the drop comes next after the first save, and only that is with a node
    rcases before with _ | ⟨_, _ | ⟨_, _ | ⟨_, before⟩⟩⟩
    · obtain ⟨-, hos⟩ := List.cons.inj hos
      cases between with
      | nil => exact nomatch (List.cons.inj hos).1
      | cons o between => exact absurd (List.mem_cons.mpr (.inl (List.cons.inj hos).1)) hdrop
    · exact nomatch (List.cons.inj (List.cons.inj hos).2).1
    · obtain ⟨hsave, -⟩ := List.cons.inj (List.cons.inj (List.cons.inj hos).2).2
      injection hsave with _ hsave
      rw [← hsave] at hi
      exact absurd hi (by decide)
    · have hlate : Operation.save .deploymentInstance i ∈ relaunch.drop 3 := by
        rw [hos]
        exact List.mem_append_right before List.mem_cons_self
      simp [relaunch] at hlate

theorem answers_relaunch : Regular relaunch ∧ (Service.on (.documents .empty)).answers relaunch =
    (Service.on (.graph .empty)).answers relaunch ∧ (Service.on (.graph .empty)).answers relaunch =
      [.saved (.ok ()), .dropped, .saved (.ok ()), .listed .deploymentInstance (.ok []),
        .found .deploymentInstance (.ok (some ((rolledOut none).stop .epoch)))] := by
  obtain ⟨hmodels, hmaps⟩ := regular_relaunch.answers_eq
  exact ⟨regular_relaunch, hmodels, hmaps.trans rfl⟩

end FleetAtlas
