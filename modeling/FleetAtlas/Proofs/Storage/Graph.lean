import FleetAtlas.Proofs.Entity.RoundTrip
import FleetAtlas.Proofs.Storage.Documents
import FleetAtlas.Storage.Graph

/-!
# Laws of the graph model

* `Graph.find?_put`, `Graph.get_ensure`: single changes; a stub shows no record;
* `Graph.set_eq_ok_iff`: what storing a record comes to; `Graph.get_set_of_ne`: all else is read as before;
* `Record.nonNull`: the properties that a graph stores;
* `Graph.get?_linksOf`: the links of a node are its edges;
* `Graph.covers_get_set`: **what is read back of an entity covers it**;
* `Graph.mem_list_iff`, `Graph.sorted_list`: lists show what look-ups show, in the order of the uids.
-/

namespace FleetAtlas

namespace Family

theorem label_inj {f g : Family} (h : f.label = g.label) : f = g := by
  have key : ∀ f : Family, ofLabel? f.label = some f := by intro f; cases f <;> decide
  have e := key f
  rw [h, key g] at e
  exact (Option.some.inj e).symm

theorem link_eq_of_name (f : Family) : ∀ l ∈ f.links, ∀ l' ∈ f.links, l.name = l'.name → l = l' := by
  cases f <;> decide

theorem link_eq_of_relationship (f : Family) :
    ∀ l ∈ f.links, ∀ l' ∈ f.links, l.relationship = l'.relationship → l = l' := by
  cases f <;> decide

theorem mem_of_link? {f : Family} {name : String} {l : Link} (h : f.link? name = some l) :
    l ∈ f.links ∧ l.name = name :=
  ⟨List.mem_of_find?_eq_some h, by simpa using List.find?_some h⟩

theorem relationship?_eq_some_iff {f : Family} {relationship : String} {l : Link} :
    f.relationship? relationship = some l ↔ l ∈ f.links ∧ l.relationship = relationship := by
  constructor
  · exact fun h => ⟨List.mem_of_find?_eq_some h, by simpa using List.find?_some h⟩
  · rintro ⟨hl, rfl⟩
    unfold relationship?
    have hsome : (f.links.find? fun l' => l'.relationship = l.relationship).isSome :=
      List.find?_isSome.mpr ⟨l, hl, by simp⟩
    obtain ⟨l', hl'⟩ := Option.isSome_iff_exists.mp hsome
    have e : l'.relationship = l.relationship := by simpa using List.find?_some hl'
    rw [hl', f.link_eq_of_relationship l' (List.mem_of_find?_eq_some hl') l hl e]

end Family

/-- The properties of a record that a graph stores. -/
def Record.nonNull (r : Record) : Dict String Json := r.properties.filter fun _ j => !j.isNull

theorem Record.isEmpty_nonNull {r : Record} (h : ∃ name j, r.properties.get? name = some j ∧ j.isNull = false) :
    r.nonNull.isEmpty = false := by
  obtain ⟨name, j, hj, hnull⟩ := h
  refine Dict.ne_empty_of_get? (k := name) (v := j) ?_
  rw [nonNull, Dict.get?_filter, hj]
  simp [hnull]

theorem Record.filter_nonNull (r : Record) (name : String) :
    (r.nonNull.get? name).filter (!Json.isNull ·) = (r.properties.get? name).filter (!Json.isNull ·) := by
  rw [nonNull, Dict.get?_filter, Option.filter_filter]
  simp

namespace Graph

/-! ### Nodes -/

theorem find?_put (g : Graph) (label uid label' uid' : String) (node : GraphNode) :
    (g.put label uid node).find? label' uid' =
      if label' = label ∧ uid' = uid then some node else g.find? label' uid' := by
  have hlabelled : (g.put label uid node).labelled label' =
      if label' = label then (g.labelled label).insert uid node else g.labelled label' := by
    unfold put labelled Dict.getD
    by_cases h : label' = label
    · rw [if_pos h, h, Dict.get?_insert_self, Option.getD_some]
    · rw [if_neg h, Dict.get?_insert_of_ne _ h]
  unfold find?
  rw [hlabelled]
  by_cases h : label' = label
  · rw [if_pos h, Dict.get?_insert, h]
    simp
  · rw [if_neg h, if_neg fun e => h e.1]

theorem recordOf?_eq_some {f : Family} {uid : String} {node : GraphNode} {r : Record}
    (h : recordOf? f uid node = some r) : r.uid = uid ∧ r.properties = node.properties := by
  unfold recordOf? at h
  split at h
  · exact nomatch h
  · rw [← Option.some.inj h]
    exact ⟨rfl, rfl⟩

/-- A stub shows no record. -/
theorem get_ensure (g : Graph) (ref : NodeRef) (f : Family) (uid : String) :
    (g.ensure ref).get f uid = g.get f uid := by
  unfold ensure
  split
  · rfl
  · next hnone =>
    unfold get
    rw [find?_put]
    split
    · next e => rw [e.1, e.2, hnone]; rfl
    · rfl

theorem get_foldl_ensure (g : Graph) (edges : List Edge) (f : Family) (uid : String) :
    (edges.foldl (fun g e => g.ensure e.target) g).get f uid = g.get f uid := by
  induction edges generalizing g with
  | nil => rfl
  | cons e edges ih => rw [List.foldl_cons, ih, get_ensure]

/-! ### Storing records -/

/-- **What storing a record comes to**, if its links and its kind are accepted. -/
theorem set_eq_ok_iff {g g' : Graph} {f : Family} {r : Record} :
    g.set f r = .ok g' ↔ ∃ edges extra, r.links.toList.mapM (fun e => edgeOf f e.1 e.2) = .ok edges ∧
      extraLabel f r.kind = .ok extra ∧ g' = g.write f.label r.uid extra r.properties edges := by
  unfold set
  cases hedges : r.links.toList.mapM (fun e => edgeOf f e.1 e.2) with
  | error e => simp [bind, Except.bind]
  | ok edges =>
    cases hextra : extraLabel f r.kind with
    | error e => simp [bind, Except.bind]
    | ok extra => simp [bind, Except.bind, pure, Except.pure, eq_comm]

/-- Whether a record is accepted does not depend on what is stored. -/
theorem exists_set_iff (g g' : Graph) (f : Family) (r : Record) :
    (∃ h, g.set f r = .ok h) ↔ ∃ h, g'.set f r = .ok h := by
  simp only [set_eq_ok_iff]
  constructor <;> exact fun ⟨_, edges, extra, he, hx, _⟩ => ⟨_, edges, extra, he, hx, rfl⟩

/-- **Storing a record leaves the others as they are.** -/
theorem get_set_of_ne {g g' : Graph} {f f' : Family} {r : Record} {uid : String} (h : g.set f r = .ok g')
    (hne : ¬ (f' = f ∧ uid = r.uid)) : g'.get f' uid = g.get f' uid := by
  obtain ⟨edges, extra, -, -, rfl⟩ := set_eq_ok_iff.mp h
  rw [← get_foldl_ensure g edges f' uid]
  unfold write get
  rw [find?_put, if_neg fun e => hne ⟨Family.label_inj e.1, e.2⟩]

/-! ### Links and edges -/

theorem nodup_linkNames (f : Family) (node : GraphNode) :
    ((node.edges.toList.filterMap fun e => (f.relationship? e.1).map fun l => (l.name, e.2.uid)).map Prod.fst).Nodup := by
  refine List.pairwise_map.mpr (List.Pairwise.filterMap _ ?_ (List.pairwise_map.mp node.edges.nodup_keys))
  intro a a' hne b hb b' hb' hname
  obtain ⟨l, hl, rfl⟩ := Option.map_eq_some_iff.mp hb
  obtain ⟨l', hl', rfl⟩ := Option.map_eq_some_iff.mp hb'
  obtain ⟨hl, ha⟩ := Family.relationship?_eq_some_iff.mp hl
  obtain ⟨hl', ha'⟩ := Family.relationship?_eq_some_iff.mp hl'
  exact hne (by rw [← ha, ← ha', f.link_eq_of_name l hl l' hl' hname])

/-- **The links of a node are its edges.** -/
theorem get?_linksOf {f : Family} {node : GraphNode} {name uid : String} :
    (linksOf f node).get? name = some uid ↔
      ∃ l ∈ f.links, l.name = name ∧ ∃ ref, node.edges.get? l.relationship = some ref ∧ ref.uid = uid := by
  unfold linksOf
  rw [Dict.get?_ofList (nodup_linkNames f node), List.mem_filterMap]
  constructor
  · rintro ⟨⟨relationship, ref⟩, hmem, heq⟩
    obtain ⟨l, hl, e⟩ := Option.map_eq_some_iff.mp heq
    obtain ⟨rfl, rfl⟩ := Prod.mk.inj e
    obtain ⟨hlink, rfl⟩ := Family.relationship?_eq_some_iff.mp hl
    exact ⟨l, hlink, rfl, ref, Dict.mem_toList_iff.mp hmem, rfl⟩
  · rintro ⟨l, hl, rfl, ref, href, rfl⟩
    exact ⟨(l.relationship, ref), Dict.mem_toList_iff.mpr href,
      Option.map_eq_some_iff.mpr ⟨l, Family.relationship?_eq_some_iff.mpr ⟨hl, rfl⟩, rfl⟩⟩

theorem edgeOf_eq_ok_iff {f : Family} {name uid : String} {e : Edge} :
    edgeOf f name uid = .ok e ↔ ∃ l, f.link? name = some l ∧ e = ⟨l.relationship, ⟨l.target.label, uid⟩⟩ := by
  unfold edgeOf
  cases f.link? name with
  | none => simp
  | some l => simp [eq_comm]

/-- The edges of links with different names are of different relationships. -/
theorem nodup_relationships {f : Family} {links : List (String × String)} {edges : List Edge}
    (hlinks : (links.map Prod.fst).Nodup) (h : links.mapM (fun e => edgeOf f e.1 e.2) = .ok edges) :
    (edges.map fun e => e.relationship).Nodup := by
  induction links generalizing edges with
  | nil =>
    obtain rfl : [] = edges := Except.ok.inj h
    exact .nil
  | cons link links ih =>
    rw [List.map_cons, List.nodup_cons] at hlinks
    obtain ⟨e, es, he, hes, rfl⟩ := mapM_cons_ok h
    rw [List.map_cons, List.nodup_cons]
    refine ⟨fun hmem => ?_, ih hlinks.2 hes⟩
    -- a link of the same relationship is the same link, so it has the same name
    obtain ⟨e', he', hrel⟩ := List.mem_map.mp hmem
    obtain ⟨link', hlink', hact⟩ := (mem_of_mapM_ok hes e').mp he'
    obtain ⟨l, hl, rfl⟩ := edgeOf_eq_ok_iff.mp he
    obtain ⟨l', hl', rfl⟩ := edgeOf_eq_ok_iff.mp hact
    obtain ⟨hl, hname⟩ := Family.mem_of_link? hl
    obtain ⟨hl', hname'⟩ := Family.mem_of_link? hl'
    have e : l' = l := f.link_eq_of_relationship l' hl' l hl hrel
    exact hlinks.1 (List.mem_map.mpr ⟨link', hlink', by rw [← hname, ← hname', e]⟩)

theorem labels_updated (node : GraphNode) (labels : List String) (properties : Dict String Json) (edges : List Edge) :
    (updated node labels properties edges).labels = node.labels.insertMany (labels.map fun l => (l, ())) := by
  rw [Dict.insertMany, List.foldl_map]
  rfl

theorem edges_updated (node : GraphNode) (labels : List String) (properties : Dict String Json) (edges : List Edge) :
    (updated node labels properties edges).edges = node.edges.insertMany (edges.map fun e => (e.relationship, e.target)) := by
  rw [Dict.insertMany, List.foldl_map]
  rfl

/-- A written node has the edges of all links. -/
theorem get?_edges_updated {f : Family} {r : Record} {edges : List Edge}
    (h : r.links.toList.mapM (fun e => edgeOf f e.1 e.2) = .ok edges) (node : GraphNode) (labels : List String)
    {name uid : String} (hl : r.links.get? name = some uid) :
    ∃ l ∈ f.links, l.name = name ∧
      (updated node labels r.properties edges).edges.get? l.relationship = some ⟨l.target.label, uid⟩ := by
  obtain ⟨e, hact⟩ := exists_ok_of_mapM_ok h _ (Dict.mem_toList_iff.mpr hl)
  have he : e ∈ edges := (mem_of_mapM_ok h e).mpr ⟨_, Dict.mem_toList_iff.mpr hl, hact⟩
  obtain ⟨l, hlink, rfl⟩ := edgeOf_eq_ok_iff.mp hact
  obtain ⟨hmem, hname⟩ := Family.mem_of_link? hlink
  refine ⟨l, hmem, hname, ?_⟩
  rw [edges_updated]
  refine Dict.get?_insertMany_of_mem ?_ _ (List.mem_map.mpr ⟨_, he, rfl⟩)
  rw [List.map_map]
  exact nodup_relationships r.links.nodup_keys h

/-! ### Entities -/

theorem exists_property {f : Family} (e : Entity f) :
    ∃ name j, e.toRecord.properties.get? name = some j ∧ j.isNull = false := by
  have hfield : ∃ name j, (name, j) ∈ Properties.fields f e.properties ∧ j.isNull = false := by
    obtain ⟨uid, kind, properties, links⟩ := e
    cases f
    all_goals exact ⟨_, _, List.mem_cons_self, rfl⟩
  obtain ⟨name, j, hmem, hj⟩ := hfield
  exact ⟨name, j, (Dict.get?_ofList (Properties.nodup_fields f e.properties)).mpr hmem, hj⟩

/-- **What is read back of an entity covers it**: no more than its `null` properties are missing, and at most links are
added. -/
theorem covers_get_set {g g' : Graph} {f : Family} {e : Entity f} (h : g.set f e.toRecord = .ok g') :
    ∃ r, g'.get f e.uid.text = some r ∧ r.Covers e := by
  obtain ⟨edges, extra, hedges, -, rfl⟩ := set_eq_ok_iff.mp h
  obtain ⟨node, hnode⟩ : ∃ node : GraphNode, (g.write f.label e.toRecord.uid extra e.toRecord.properties edges).find?
      f.label e.uid.text = some (updated node (f.label :: extra.toList) e.toRecord.properties edges) :=
    ⟨_, by unfold write; rw [find?_put, if_pos ⟨rfl, rfl⟩]⟩
  have hne : (updated node (f.label :: extra.toList) e.toRecord.properties edges).properties.isEmpty = false :=
    Record.isEmpty_nonNull (exists_property e)
  unfold get
  rw [hnode, Option.bind_some, recordOf?, if_neg (by rw [hne]; exact Bool.false_ne_true)]
  refine ⟨_, rfl, rfl, e.toRecord.filter_nonNull, fun {name uid} hl => ?_⟩
  obtain ⟨l, hl, hname, hedge⟩ := get?_edges_updated hedges node (f.label :: extra.toList) hl
  exact get?_linksOf.mpr ⟨l, hl, hname, _, hedge, rfl⟩

/-! ### Lists -/

theorem get_uid {g : Graph} {f : Family} {uid : String} {r : Record} (h : g.get f uid = some r) : r.uid = uid := by
  obtain ⟨node, -, hr⟩ := Option.bind_eq_some_iff.mp h
  exact (recordOf?_eq_some hr).1

/-- **A list shows the selected records**, those that look-ups show. -/
theorem mem_list_iff {g : Graph} {f : Family} {s : Selection} {r : Record} :
    r ∈ g.list f s ↔ g.get f r.uid = some r ∧ s.admits r.properties = true := by
  unfold list findAll
  rw [List.mem_filterMap]
  constructor
  · rintro ⟨⟨uid, node⟩, hmem, hr⟩
    obtain ⟨hmem, hs⟩ := List.mem_filter.mp hmem
    obtain ⟨rfl, hp⟩ := recordOf?_eq_some hr
    exact ⟨Option.bind_eq_some_iff.mpr ⟨node, Dict.mem_toList_iff.mp hmem, hr⟩, hp ▸ hs⟩
  · rintro ⟨hget, hs⟩
    obtain ⟨node, hnode, hr⟩ := Option.bind_eq_some_iff.mp hget
    refine ⟨(r.uid, node), List.mem_filter.mpr ⟨Dict.mem_toList_iff.mpr hnode, ?_⟩, hr⟩
    rw [← (recordOf?_eq_some hr).2]
    exact hs

/-- **A list is in the order of the uids.** -/
theorem sorted_list (g : Graph) (f : Family) (s : Selection) :
    (g.list f s).Pairwise fun r r' => r.uid < r'.uid := by
  unfold list findAll
  refine List.Pairwise.filterMap _ ?_ ((g.labelled f.label).sorted.filter _)
  intro a b hlt r hr r' hr'
  rw [(recordOf?_eq_some hr).1, (recordOf?_eq_some hr').1]
  exact hlt

end Graph

end FleetAtlas
