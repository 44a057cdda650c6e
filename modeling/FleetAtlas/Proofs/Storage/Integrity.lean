import FleetAtlas.Proofs.Storage.Frame

/-!
# The integrity of a graph

* `Graph.Fits g f node`: a node may stand in a graph for a family: it carries the label, has no property that is `null`,
  and its edges are of the family's relationships and lead to nodes of the families that these point to;
* `Graph.Sound`: every node fits; `Sound.put`, `Sound.ensureAll`, `Sound.set`: what a write does keeps this;
* `Store.lastStored`: the record that was stored last under a uid, unless everything was dropped since;
* `Store.exists_sound_graph`: **after any requests a graph is sound, and shows exactly the nodes that were last stored with
  a property**: those that were only referred to stay out of sight.
-/

namespace FleetAtlas

namespace Graph

/-! ### Nodes that fit -/

/-- An edge of this relationship may lead from a node of the family to this end. -/
def Joins (g : Graph) (f : Family) (relationship : String) (ref : NodeRef) : Prop :=
  ∃ l ∈ f.links, l.relationship = relationship ∧ ref.label = l.target.label ∧ (g.find? l.target.label ref.uid).isSome

/-- A node may stand in a graph as one of a family. -/
structure Fits (g : Graph) (f : Family) (node : GraphNode) : Prop where
  label : (node.labels.get? f.label).isSome
  properties : ∀ name j, node.properties.get? name = some j → j.isNull = false
  edges : ∀ relationship ref, node.edges.get? relationship = some ref → g.Joins f relationship ref

/-- Every node fits, under the label of its family. -/
def Sound (g : Graph) : Prop :=
  ∀ label uid node, g.find? label uid = some node → ∃ f : Family, f.label = label ∧ g.Fits f node

variable {g g' : Graph} {f : Family} {node : GraphNode} {uid : String}

theorem Joins.mono (hkept : ∀ label uid, (g.find? label uid).isSome → (g'.find? label uid).isSome)
    {relationship : String} {ref : NodeRef} (h : g.Joins f relationship ref) : g'.Joins f relationship ref := by
  obtain ⟨l, hl, hrel, hlabel, hsome⟩ := h
  exact ⟨l, hl, hrel, hlabel, hkept _ _ hsome⟩

theorem Fits.mono (hkept : ∀ label uid, (g.find? label uid).isSome → (g'.find? label uid).isSome) (h : g.Fits f node) :
    g'.Fits f node where
  label := h.label
  properties := h.properties
  edges relationship ref href := (h.edges relationship ref href).mono hkept

theorem fits_stub (g : Graph) (f : Family) : g.Fits f (.stub f.label) where
  label := by simp [GraphNode.stub, Dict.get?_insert_self]
  properties name j hj := nomatch hj
  edges relationship ref href := nomatch href

/-- **A node fits after a write** if its edges were such and the new ones are. -/
theorem fits_updated {extra : Option String} {properties : Dict String Json} {edges : List Edge}
    (hold : ∀ relationship ref, node.edges.get? relationship = some ref → g.Joins f relationship ref)
    (hnew : ∀ e ∈ edges, g.Joins f e.relationship e.target) :
    g.Fits f (updated node (f.label :: extra.toList) properties edges) where
  label := by
    cases extra with
    | none => simp [updated, Dict.get?_insert_self]
    | some kind =>
      show (((node.labels.insert f.label ()).insert kind ()).get? f.label).isSome
      rw [Dict.get?_insert, Dict.get?_insert_self]
      split <;> rfl
  properties name j hj := by
    rw [updated, Dict.get?_filter, Option.filter_eq_some_iff] at hj
    simpa using hj.2
  edges relationship ref href := by
    rw [edges_updated] at href
    rcases Dict.mem_or_of_get?_insertMany href with hmem | hget
    · obtain ⟨e, he, heq⟩ := List.mem_map.mp hmem
      obtain ⟨rfl, rfl⟩ := Prod.mk.inj heq
      exact hnew e he
    · exact hold relationship ref hget

/-! ### Writes -/

theorem sound_empty : Graph.empty.Sound := fun _ _ _ h => nomatch h

namespace Sound

theorem put (h : g.Sound) (hnode : (g.put f.label uid node).Fits f node) : (g.put f.label uid node).Sound := by
  intro label' uid' node' hfind
  rw [find?_put] at hfind
  split at hfind
  · next e =>
    obtain rfl := Option.some.inj hfind
    exact ⟨f, e.1.symm, hnode⟩
  · obtain ⟨f', hf', hfits⟩ := h label' uid' node' hfind
    exact ⟨f', hf', hfits.mono fun _ _ => isSome_find?_put⟩

theorem ensure (h : g.Sound) {ref : NodeRef} (hlabel : ref.label = f.label) : (g.ensure ref).Sound := by
  unfold Graph.ensure
  split
  · exact h
  · rw [hlabel]
    exact h.put (fits_stub _ f)

theorem ensureAll (h : g.Sound) {edges : List Edge} (hlabels : ∀ e ∈ edges, ∃ f : Family, e.target.label = f.label) :
    (g.ensureAll edges).Sound := by
  induction edges generalizing g with
  | nil => exact h
  | cons e edges ih =>
    obtain ⟨⟨f, hf⟩, hrest⟩ := List.forall_mem_cons.mp hlabels
    exact ih (h.ensure hf) hrest

/-- **Storing a record keeps a graph sound**: the ends of its edges are made first. -/
theorem set (h : g.Sound) {r : Record} (hset : g.set f r = .ok g') : g'.Sound := by
  obtain ⟨edges, extra, hedges, -, rfl⟩ := set_eq_ok_iff.mp hset
  have hlinks : ∀ e ∈ edges, ∃ l ∈ f.links, l.relationship = e.relationship ∧ e.target.label = l.target.label := by
    intro e he
    obtain ⟨entry, -, hact⟩ := (mem_of_mapM_ok hedges e).mp he
    obtain ⟨l, hl, rfl⟩ := edgeOf_eq_ok_iff.mp hact
    exact ⟨l, (Family.mem_of_link? hl).1, rfl, rfl⟩
  have hall : (g.ensureAll edges).Sound := by
    refine h.ensureAll fun e he => ?_
    obtain ⟨l, -, -, hlabel⟩ := hlinks e he
    exact ⟨l.target, hlabel⟩
  have hnew : ∀ e ∈ edges, (g.ensureAll edges).Joins f e.relationship e.target := by
    intro e he
    obtain ⟨l, hl, hrel, hlabel⟩ := hlinks e he
    refine ⟨l, hl, hrel, hlabel, ?_⟩
    rw [← hlabel]
    exact isSome_find?_ensureAll he
  have hold : ∀ relationship ref, ((g.ensureAll edges).nodeAt f r.uid).edges.get? relationship = some ref →
      (g.ensureAll edges).Joins f relationship ref := by
    unfold nodeAt
    cases hnode : (g.ensureAll edges).find? f.label r.uid with
    | none => exact fun _ _ href => nomatch href
    | some node =>
      obtain ⟨f', hf', hfits⟩ := hall f.label r.uid node hnode
      obtain rfl := Family.label_inj hf'
      exact hfits.edges
  rw [write_eq]
  exact hall.put ((fits_updated hold hnew).mono fun _ _ => isSome_find?_put)

end Sound

theorem sound_afterAll (calls : List (Family × Record)) : (afterAll calls).Sound := by
  induction calls using List.reverseRecOn with
  | nil => exact sound_empty
  | append_singleton calls call ih =>
    rw [afterAll_concat, attempt]
    split
    · next g' hset => exact ih.set hset
    · exact ih

/-! ### What is seen -/

/-- A graph that calls leave shows a record if the last one that they stored has a property. -/
theorem isSome_get_afterAll_iff {calls : List (Family × Record)} :
    ((afterAll calls).get f uid).isSome ↔
      ∃ r, (taken calls f uid).getLast? = some r ∧ ∃ name j, r.properties.get? name = some j ∧ j.isNull = false := by
  have hholds := holds_afterAll calls f uid
  have hshown : ((afterAll calls).get f uid).isSome ↔ (lastProperties (taken calls f uid)).isEmpty = false := by
    rw [get_eq_recordOf?, recordOf?, hholds.properties]
    split <;> simp_all
  rw [hshown]
  rcases List.eq_nil_or_concat (taken calls f uid) with hnil | ⟨records, last, hlast⟩
  · rw [hnil]
    simp [lastProperties, Dict.isEmpty_iff]
  · rw [hlast, List.concat_eq_append, lastProperties_concat, List.getLast?_concat]
    constructor
    · intro hne
      have hfound : ∃ name j, last.nonNull.get? name = some j := by
        by_contra hnone
        push Not at hnone
        have hempty : last.nonNull = ∅ := Dict.ext_get? fun name => Option.eq_none_iff_forall_ne_some.mpr (hnone name)
        rw [hempty] at hne
        cases hne
      obtain ⟨name, j, hj⟩ := hfound
      rw [Record.nonNull, Dict.get?_filter, Option.filter_eq_some_iff] at hj
      exact ⟨last, rfl, name, j, hj.1, by simpa using hj.2⟩
    · rintro ⟨r, hr, hproperty⟩
      obtain rfl := Option.some.inj hr
      exact Record.isEmpty_nonNull hproperty

end Graph

/-! ### Requests one after the other -/

namespace Store

/-- What is noted for a key: the record that a request stores there, and nothing once everything is dropped. -/
def Request.note (f : Family) (uid : String) (s : Store) (last : Option Record) : Request → Option Record
  | .set g r => if g = f ∧ r.uid = uid ∧ s.Takes g r then some r else last
  | .drop => none

/-- The record that was stored last under a uid, if nothing was dropped since. -/
def lastStored (s : Store) (f : Family) (uid : String) (requests : List Request) : Option Record :=
  (requests.foldl (fun p request => (p.1.perform request, request.note f uid p.1 p.2)) (s, none)).2

theorem lastStored_concat (s : Store) (f : Family) (uid : String) (requests : List Request) (request : Request) :
    s.lastStored f uid (requests ++ [request]) = request.note f uid (s.after requests) (s.lastStored f uid requests) := by
  have hstore : ∀ (requests : List Request) (p : Store × Option Record),
      (requests.foldl (fun p request => (p.1.perform request, request.note f uid p.1 p.2)) p).1 = p.1.after requests := by
    intro requests
    induction requests with
    | nil => exact fun p => rfl
    | cons request requests ih => exact fun p => ih _
  unfold lastStored
  rw [List.foldl_append, List.foldl_cons, List.foldl_nil, hstore]

/-- A graph is what the writes since everything was dropped leave. -/
theorem exists_calls_of_after (requests : List Request) : ∃ calls, (graph .empty).after requests = graph (.afterAll calls) ∧
    ∀ f uid, (Graph.taken calls f uid).getLast? = (graph .empty).lastStored f uid requests := by
  induction requests using List.reverseRecOn with
  | nil => exact ⟨[], rfl, fun _ _ => rfl⟩
  | append_singleton requests request ih =>
    obtain ⟨calls, hafter, hlast⟩ := ih
    simp only [after_concat, lastStored_concat, hafter]
    cases request with
    | drop => exact ⟨[], rfl, fun _ _ => rfl⟩
    | set f r =>
      cases hset : (Graph.afterAll calls).set f r with
      | error e =>
        have hrefused : (graph (.afterAll calls)).set f r = .error e := by
          simp only [Store.set, hset]
          rfl
        refine ⟨calls, perform_of_error hrefused, fun g uid => ?_⟩
        rw [hlast, Request.note, if_neg]
        rintro ⟨-, -, s', hs'⟩
        cases hrefused.symm.trans hs'
      | ok g' =>
        have htaken : (graph (.afterAll calls)).Takes f r := ⟨_, set_graph_of_ok hset⟩
        refine ⟨calls ++ [(f, r)], ?_, fun g uid => ?_⟩
        · rw [perform_of_ok (set_graph_of_ok hset), Graph.afterAll_concat_of_ok hset]
        · rw [Graph.taken_concat, Request.note, ← hlast]
          have haccepts : Graph.accepts f r = true := Graph.exists_set_iff_accepts.mp ⟨g', hset⟩
          by_cases hkey : f = g ∧ r.uid = uid
          · rw [if_pos ⟨hkey.1, hkey.2, haccepts⟩, if_pos ⟨hkey.1, hkey.2, htaken⟩, List.getLast?_concat]
          · rw [if_neg fun h => hkey ⟨h.1, h.2.1⟩, if_neg fun h => hkey ⟨h.1, h.2.1⟩, List.append_nil]

/-- **The integrity of a graph.**  After any requests, those that are refused among them: every node carries the label
that it is stored under, has no property that is `null`, and its edges are of relationships of its family and lead to
nodes of the families that these point to; and a look-up or a list shows a node exactly if the record that was stored
last under its uid, since everything was dropped, has a property. -/
theorem exists_sound_graph (requests : List Request) : ∃ g : Graph, (graph .empty).after requests = graph g ∧ g.Sound ∧
    ∀ f uid,
      ((g.get f uid).isSome ↔ ∃ r, (graph .empty).lastStored f uid requests = some r ∧
        ∃ name j, r.properties.get? name = some j ∧ j.isNull = false) ∧
      ((∃ q ∈ g.list f .all, q.uid = uid) ↔ (g.get f uid).isSome) ∧
      ∀ selection, (∃ q ∈ g.list f selection, q.uid = uid) → (g.get f uid).isSome := by
  obtain ⟨calls, hafter, hlast⟩ := exists_calls_of_after requests
  have hlisted : ∀ f uid selection, (∃ q ∈ (Graph.afterAll calls).list f selection, q.uid = uid) →
      ((Graph.afterAll calls).get f uid).isSome := by
    rintro f _ selection ⟨q, hq, rfl⟩
    rw [(Graph.mem_list_iff.mp hq).1]
    rfl
  refine ⟨_, hafter, Graph.sound_afterAll calls, fun f uid => ⟨?_, ⟨hlisted f uid .all, fun hsome => ?_⟩, hlisted f uid⟩⟩
  · rw [Graph.isSome_get_afterAll_iff, hlast]
  · obtain ⟨q, hq⟩ := Option.isSome_iff_exists.mp hsome
    have huid : q.uid = uid := Graph.get_uid hq
    exact ⟨q, Graph.mem_list_iff.mpr ⟨by rw [huid]; exact hq, rfl⟩, huid⟩

end Store

end FleetAtlas
