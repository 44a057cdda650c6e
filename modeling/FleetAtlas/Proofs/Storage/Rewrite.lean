import FleetAtlas.Proofs.Storage.Store

/-!
# Storing a record again

* `Documents.set_eq_self_iff`: a record is stored already if its document is there;
* `Graph.Written`: a node has all that a write gives it, and so have the ends of its edges; `Graph.written_write`,
  `Written.write_eq`, `Written.write_of_ne`: a write leaves this, has nothing to add to it, and keeps it for other nodes;
* `Store.set_set_self`, `Store.set_self_of_ne`: **what is stored can be stored again without a change**, also after other
  records were stored;
* `Store.read`: the entity that a look-up shows, `Store.read_set_self`, `Store.read_set_of_ne`.
-/

namespace FleetAtlas

/-! ### Documents -/

namespace Documents

theorem upsert_of_find? {d : Documents} {name id : String} {document : Json} (h : d.find? name id = some document) :
    d.upsert name id document = d := by
  unfold find? collection Dict.getD at h
  cases hname : d.collections.get? name with
  | none =>
    rw [hname] at h
    exact nomatch h
  | some documents =>
    rw [hname, Option.getD_some] at h
    have hcollection : d.collection name = documents := by
      unfold collection Dict.getD
      rw [hname, Option.getD_some]
    unfold upsert
    rw [hcollection, Dict.insert_of_get? h, Dict.insert_of_get? hname]

theorem set_eq_self_iff {d : Documents} {f : Family} {r : Record} :
    d.set f r = d ↔ d.find? f.collection r.uid = some r.toDocument := by
  constructor
  · intro h
    have hfind := d.find?_set f f r r.uid
    rw [h, if_pos ⟨rfl, rfl⟩] at hfind
    exact hfind
  · exact upsert_of_find?

end Documents

/-! ### Nodes and edges -/

namespace Graph

theorem put_of_find? {g : Graph} {label uid : String} {node : GraphNode} (h : g.find? label uid = some node) :
    g.put label uid node = g := by
  unfold find? labelled Dict.getD at h
  cases hlabel : g.nodes.get? label with
  | none =>
    rw [hlabel] at h
    exact nomatch h
  | some nodes =>
    rw [hlabel, Option.getD_some] at h
    have hlabelled : g.labelled label = nodes := by
      unfold labelled Dict.getD
      rw [hlabel, Option.getD_some]
    unfold put
    rw [hlabelled, Dict.insert_of_get? h, Dict.insert_of_get? hlabel]

theorem ensure_of_isSome {g : Graph} {ref : NodeRef} (h : (g.find? ref.label ref.uid).isSome) : g.ensure ref = g := by
  obtain ⟨node, hnode⟩ := Option.isSome_iff_exists.mp h
  unfold ensure
  rw [hnode]

theorem find?_ensure_of_some {g : Graph} {label uid : String} {node : GraphNode} (h : g.find? label uid = some node)
    (ref : NodeRef) : (g.ensure ref).find? label uid = some node := by
  unfold ensure
  split
  · exact h
  · next hnone =>
    rw [find?_put]
    split
    · next e => rw [e.1, e.2, hnone] at h; exact nomatch h
    · exact h

theorem isSome_find?_ensure (g : Graph) (ref : NodeRef) : ((g.ensure ref).find? ref.label ref.uid).isSome := by
  unfold ensure
  split
  · next hnode => rw [hnode]; rfl
  · rw [find?_put, if_pos ⟨rfl, rfl⟩]; rfl

/-- The ends of edges are there. -/
def ensureAll (g : Graph) (edges : List Edge) : Graph := edges.foldl (fun g e => g.ensure e.target) g

theorem find?_ensureAll_of_some {g : Graph} {label uid : String} {node : GraphNode}
    (h : g.find? label uid = some node) (edges : List Edge) : (g.ensureAll edges).find? label uid = some node := by
  induction edges generalizing g with
  | nil => exact h
  | cons e edges ih => exact ih (find?_ensure_of_some h e.target)

theorem isSome_find?_ensureAll {g : Graph} {edges : List Edge} {e : Edge} (he : e ∈ edges) :
    ((g.ensureAll edges).find? e.target.label e.target.uid).isSome := by
  induction edges generalizing g with
  | nil => exact nomatch he
  | cons e' edges ih =>
    rcases List.mem_cons.mp he with rfl | he
    · obtain ⟨node, hnode⟩ := Option.isSome_iff_exists.mp (g.isSome_find?_ensure e.target)
      exact Option.isSome_iff_exists.mpr ⟨node, find?_ensureAll_of_some hnode edges⟩
    · exact ih he

theorem ensureAll_of_isSome {g : Graph} {edges : List Edge}
    (h : ∀ e ∈ edges, (g.find? e.target.label e.target.uid).isSome) : g.ensureAll edges = g := by
  induction edges with
  | nil => rfl
  | cons e edges ih =>
    obtain ⟨he, hedges⟩ := List.forall_mem_cons.mp h
    have hensure := ensure_of_isSome he
    show (g.ensure e.target).ensureAll edges = g
    rw [hensure, ih hedges]

theorem write_eq (g : Graph) (label uid : String) (extra : Option String) (properties : Dict String Json)
    (edges : List Edge) :
    g.write label uid extra properties edges = (g.ensureAll edges).put label uid
      (updated (((g.ensureAll edges).find? label uid).getD .empty) (label :: extra.toList) properties edges) :=
  rfl

theorem updated_updated (node : GraphNode) (labels : List String) (properties : Dict String Json)
    (edges : List Edge) :
    updated (updated node labels properties edges) labels properties edges =
      updated node labels properties edges := by
  have hlabels : (updated (updated node labels properties edges) labels properties edges).labels =
      (updated node labels properties edges).labels := by
    rw [labels_updated, labels_updated, Dict.insertMany_insertMany_self]
  have hedges : (updated (updated node labels properties edges) labels properties edges).edges =
      (updated node labels properties edges).edges := by
    rw [edges_updated, edges_updated, Dict.insertMany_insertMany_self]
  exact GraphNode.mk.injEq .. ▸ ⟨hlabels, rfl, hedges⟩

/-- **A node has all that a write gives it**, and the ends of its edges are there. -/
structure Written (g : Graph) (label uid : String) (extra : Option String) (properties : Dict String Json)
    (edges : List Edge) : Prop where
  targets : ∀ e ∈ edges, (g.find? e.target.label e.target.uid).isSome
  node : ∃ node, g.find? label uid = some node ∧ updated node (label :: extra.toList) properties edges = node

variable {g : Graph} {label uid : String} {extra : Option String} {properties : Dict String Json} {edges : List Edge}

theorem isSome_find?_put {label' uid' : String} {node : GraphNode} (h : (g.find? label' uid').isSome) :
    ((g.put label uid node).find? label' uid').isSome := by
  rw [find?_put]
  split
  · rfl
  · exact h

theorem written_write (g : Graph) (label uid : String) (extra : Option String) (properties : Dict String Json)
    (edges : List Edge) : (g.write label uid extra properties edges).Written label uid extra properties edges where
  targets e he := by
    rw [write_eq]
    exact isSome_find?_put (isSome_find?_ensureAll he)
  node := by
    rw [write_eq]
    exact ⟨_, (find?_put _ _ _ _ _ _).trans (if_pos ⟨rfl, rfl⟩), updated_updated _ _ _ _⟩

namespace Written

theorem write_eq (h : g.Written label uid extra properties edges) : g.write label uid extra properties edges = g := by
  obtain ⟨node, hnode, hupdated⟩ := h.node
  rw [Graph.write_eq, ensureAll_of_isSome h.targets, hnode, Option.getD_some, hupdated]
  exact put_of_find? hnode

theorem write_of_ne (h : g.Written label uid extra properties edges) {label' uid' : String}
    (hne : ¬ (label = label' ∧ uid = uid')) (extra' : Option String) (properties' : Dict String Json)
    (edges' : List Edge) : (g.write label' uid' extra' properties' edges').Written label uid extra properties edges where
  targets e he := by
    obtain ⟨node, hnode⟩ := Option.isSome_iff_exists.mp (h.targets e he)
    rw [Graph.write_eq]
    exact isSome_find?_put (Option.isSome_iff_exists.mpr ⟨node, find?_ensureAll_of_some hnode edges'⟩)
  node := by
    obtain ⟨node, hnode, hupdated⟩ := h.node
    refine ⟨node, ?_, hupdated⟩
    rw [Graph.write_eq, find?_put, if_neg hne]
    exact find?_ensureAll_of_some hnode edges'

end Written

theorem set_set_self {g g' : Graph} {f : Family} {r : Record} (h : g.set f r = .ok g') : g'.set f r = .ok g' := by
  obtain ⟨edges, extra, hedges, hextra, rfl⟩ := set_eq_ok_iff.mp h
  exact set_eq_ok_iff.mpr ⟨edges, extra, hedges, hextra, (written_write _ _ _ _ _ _).write_eq.symm⟩

theorem set_self_of_ne {g g' : Graph} {f f' : Family} {r r' : Record} (h : g.set f r = .ok g)
    (h' : g.set f' r' = .ok g') (hne : ¬ (f = f' ∧ r.uid = r'.uid)) : g'.set f r = .ok g' := by
  obtain ⟨edges, extra, hedges, hextra, e⟩ := set_eq_ok_iff.mp h
  obtain ⟨edges', extra', -, -, rfl⟩ := set_eq_ok_iff.mp h'
  have hwritten : g.Written f.label r.uid extra r.properties edges := by
    have hw := g.written_write f.label r.uid extra r.properties edges
    rw [← e] at hw
    exact hw
  have hother := hwritten.write_of_ne (fun e => hne ⟨Family.label_inj e.1, e.2⟩) extra' r'.properties edges'
  exact set_eq_ok_iff.mpr ⟨edges, extra, hedges, hextra, hother.write_eq.symm⟩

end Graph

/-! ### Both models -/

namespace Store

theorem set_documents (d : Documents) (f : Family) (r : Record) : (documents d).set f r = .ok (documents (d.set f r)) :=
  rfl

theorem set_graph_of_ok {g g' : Graph} {f : Family} {r : Record} (h : g.set f r = .ok g') :
    (graph g).set f r = .ok (graph g') := by
  simp only [Store.set, h]
  rfl

variable {s s' : Store} {f : Family}

/-- **What was stored can be stored again**, and nothing changes. -/
theorem set_set_self {r : Record} (h : s.set f r = .ok s') : s'.set f r = .ok s' := by
  cases s with
  | documents d =>
    obtain rfl : documents (d.set f r) = s' := Except.ok.inj h
    have hself : (d.set f r).set f r = d.set f r :=
      Documents.set_eq_self_iff.mpr ((d.find?_set f f r r.uid).trans (if_pos ⟨rfl, rfl⟩))
    rw [set_documents, hself]
  | graph g =>
    obtain ⟨g', hg, rfl⟩ := set_graph_eq_ok h
    exact set_graph_of_ok (Graph.set_set_self hg)

/-- **It is still so after another record was stored.** -/
theorem set_self_of_ne {g : Family} {r q : Record} (h : s.set f r = .ok s) (hq : s.set g q = .ok s')
    (hne : ¬ (f = g ∧ r.uid = q.uid)) : s'.set f r = .ok s' := by
  cases s with
  | documents d =>
    obtain rfl : documents (d.set g q) = s' := Except.ok.inj hq
    have hself : d.set f r = d := documents.inj (Except.ok.inj h)
    have hkept : (d.set g q).set f r = d.set g q := by
      rw [Documents.set_eq_self_iff, Documents.find?_set, if_neg hne]
      exact Documents.set_eq_self_iff.mp hself
    rw [set_documents, hkept]
  | graph g₁ =>
    obtain ⟨g₂, hg, e⟩ := set_graph_eq_ok h
    obtain rfl := graph.inj e
    obtain ⟨g₃, hg', rfl⟩ := set_graph_eq_ok hq
    exact set_graph_of_ok (Graph.set_self_of_ne hg hg' hne)

theorem Takes.of_links {r q : Record} (h : s.Takes f r) (hkind : q.kind = r.kind) (hlinks : q.links = r.links) :
    s.Takes f q := by
  cases s with
  | documents d => exact ⟨_, rfl⟩
  | graph g =>
    obtain ⟨s', hs⟩ := h
    obtain ⟨g', hg, rfl⟩ := set_graph_eq_ok hs
    obtain ⟨edges, extra, hedges, hextra, -⟩ := Graph.set_eq_ok_iff.mp hg
    rw [← hlinks] at hedges
    rw [← hkind] at hextra
    exact ⟨_, set_graph_of_ok (Graph.set_eq_ok_iff.mpr ⟨edges, extra, hedges, hextra, rfl⟩)⟩

/-! ### Reading -/

/-- The entity that a look-up shows. -/
def read (s : Store) (uid : Uid f) : Except StorageError (Option (Entity f)) :=
  match s.get f uid.text with
  | .error e => .error e
  | .ok none => .ok none
  | .ok (some r) =>
    match Entity.ofRecord? f r with
    | some e => .ok (some e)
    | none => .error .malformed

theorem read_of_fetch? {uid : Uid f} {e : Entity f} (h : s.fetch? uid = some e) : s.read uid = .ok (some e) := by
  obtain ⟨r, hget, hr⟩ := exists_get_of_fetch? h
  simp only [read, hget, hr]

/-- **What was stored last is read**, up to links that a graph keeps. -/
theorem read_set_self {e : Entity f} (h : s.set f e.toRecord = .ok s') :
    ∃ e', s'.read e.uid = .ok (some e') ∧ e'.properties = e.properties := by
  obtain ⟨r, hget, hcovers⟩ := covers_get_set h
  obtain ⟨e', he', hp⟩ := hcovers.exists_ofRecord?
  exact ⟨e', by simp only [read, hget, he'], hp⟩

theorem read_set_of_ne {g : Family} {r : Record} {uid : Uid g} (h : s.set f r = .ok s')
    (hne : ¬ (g = f ∧ uid.text = r.uid)) : s'.read uid = s.read uid := by
  unfold read
  rw [get_set_of_ne h hne]

/-- **Every record is found under its own uid.** -/
def Keyed (s : Store) : Prop := ∀ (f : Family) (uid : String) (r : Record), s.get f uid = .ok (some r) → r.uid = uid

theorem Filed.keyed (h : s.Filed) : s.Keyed := by
  intro f uid r hget
  obtain ⟨answer, hanswer, huid⟩ := h.exists_get f uid
  obtain rfl := Except.ok.inj (hget.symm.trans hanswer)
  exact huid r rfl

theorem Keyed.read_uid (h : s.Keyed) {uid : Uid f} {e : Entity f} (he : s.read uid = .ok (some e)) : e.uid = uid := by
  unfold read at he
  split at he
  · exact nomatch he
  · exact nomatch he
  · next r hget =>
    split at he
    · next e' he' =>
      obtain rfl := Option.some.inj (Except.ok.inj he)
      exact Uid.eq_of_text ((uid_of_ofRecord? he').trans (h f uid.text r hget))
    · exact nomatch he

end Store

end FleetAtlas
