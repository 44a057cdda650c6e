import FleetAtlas.Proofs.Storage.Rewrite

/-!
# Writes of different records commute

* `Dict.insertIn`: a value put into a map of maps, as both models do; `Dict.insertIn_comm`: in either order;
* `Graph.alter`: one node is changed, or made; a stub and a write are both of this kind (`ensure_eq_alter`, `write_eq_alter`),
  and a node that is a stub first is written as one that was not there (`ensure_alter_comm`);
* `Documents.set_comm`, `Graph.set_comm`, `Store.set_comm`: **different records are stored in either order**;
* `Store.set_error_of_set`: what is refused before a write is refused after it.
-/

namespace FleetAtlas

namespace Dict

variable {κ α : Type} [LT κ] [DecidableLT κ] [LinearKey κ]

theorem insert_comm (d : Dict κ α) {k k' : κ} (h : k ≠ k') (v v' : α) :
    (d.insert k v).insert k' v' = (d.insert k' v').insert k v := by
  refine ext_get? fun i => ?_
  by_cases hi : i = k
  · subst hi
    rw [get?_insert_of_ne _ h, get?_insert_self, get?_insert_self]
  · by_cases hi' : i = k'
    · subst hi'
      rw [get?_insert_self, get?_insert_of_ne _ hi, get?_insert_self]
    · rw [get?_insert_of_ne _ hi', get?_insert_of_ne _ hi, get?_insert_of_ne _ hi, get?_insert_of_ne _ hi']

theorem insert_insert_self (d : Dict κ α) (k : κ) (v v' : α) : (d.insert k v).insert k v' = d.insert k v' := by
  refine ext_get? fun i => ?_
  by_cases hi : i = k
  · rw [hi, get?_insert_self, get?_insert_self]
  · rw [get?_insert_of_ne _ hi, get?_insert_of_ne _ hi, get?_insert_of_ne _ hi]

theorem getD_insert_self (d : Dict κ α) (k : κ) (v w : α) : (d.insert k v).getD k w = v := by
  unfold getD
  rw [get?_insert_self, Option.getD_some]

theorem getD_insert_of_ne (d : Dict κ α) {k k' : κ} (h : k' ≠ k) (v w : α) :
    (d.insert k v).getD k' w = d.getD k' w := by
  unfold getD
  rw [get?_insert_of_ne _ h]

/-- Puts a value into the map under a key. -/
def insertIn (d : Dict κ (Dict κ α)) (k i : κ) (v : α) : Dict κ (Dict κ α) := d.insert k ((d.getD k ∅).insert i v)

theorem insertIn_comm [DecidableEq κ] (d : Dict κ (Dict κ α)) {k k' i i' : κ} (h : ¬ (k = k' ∧ i = i')) (v v' : α) :
    (d.insertIn k i v).insertIn k' i' v' = (d.insertIn k' i' v').insertIn k i v := by
  unfold insertIn
  by_cases hk : k = k'
  · subst hk
    have hi : i ≠ i' := fun e => h ⟨rfl, e⟩
    simp only [getD_insert_self, insert_insert_self]
    rw [insert_comm _ hi]
  · have hk' : k' ≠ k := fun e => hk e.symm
    rw [getD_insert_of_ne _ hk', getD_insert_of_ne _ hk, insert_comm _ hk]

theorem insertIn_insertIn_self (d : Dict κ (Dict κ α)) (k i : κ) (v v' : α) :
    (d.insertIn k i v).insertIn k i v' = d.insertIn k i v' := by
  unfold insertIn
  simp only [getD_insert_self, insert_insert_self]

end Dict

/-! ### Documents -/

theorem Documents.set_comm (d : Documents) {f g : Family} {r q : Record} (h : ¬ (f = g ∧ r.uid = q.uid)) :
    (d.set f r).set g q = (d.set g q).set f r := by
  have hkeys : ¬ (f.collection = g.collection ∧ r.uid = q.uid) := by
    intro e
    exact h ⟨Family.collection_inj e.1, e.2⟩
  exact congrArg Documents.mk (d.collections.insertIn_comm hkeys r.toDocument q.toDocument)

/-! ### Nodes -/

namespace Graph

theorem put_comm (g : Graph) {label uid label' uid' : String} (h : ¬ (label = label' ∧ uid = uid'))
    (node node' : GraphNode) :
    (g.put label uid node).put label' uid' node' = (g.put label' uid' node').put label uid node :=
  congrArg Graph.mk (g.nodes.insertIn_comm h node node')

theorem put_put_self (g : Graph) (label uid : String) (node node' : GraphNode) :
    (g.put label uid node).put label uid node' = g.put label uid node' :=
  congrArg Graph.mk (g.nodes.insertIn_insertIn_self label uid node node')

/-- Changes one node, or makes it. -/
def alter (g : Graph) (label uid : String) (change : Option GraphNode → GraphNode) : Graph :=
  g.put label uid (change (g.find? label uid))

variable {label uid label' uid' : String} {change change' : Option GraphNode → GraphNode}

theorem alter_comm (g : Graph) (h : ¬ (label = label' ∧ uid = uid')) :
    (g.alter label uid change).alter label' uid' change' = (g.alter label' uid' change').alter label uid change := by
  have h' : ¬ (label' = label ∧ uid' = uid) := by
    intro e
    exact h ⟨e.1.symm, e.2.symm⟩
  unfold alter
  rw [find?_put, find?_put, if_neg h, if_neg h', put_comm g h]

theorem alter_alter_self (g : Graph) : (g.alter label uid change).alter label uid change' =
    g.alter label uid fun node => change' (some (change node)) := by
  unfold alter
  rw [find?_put, if_pos ⟨rfl, rfl⟩, put_put_self]

theorem ensure_eq_alter (g : Graph) (ref : NodeRef) :
    g.ensure ref = g.alter ref.label ref.uid fun node => node.getD (.stub ref.label) := by
  unfold ensure alter
  cases hnode : g.find? ref.label ref.uid with
  | none => rfl
  | some node => exact (put_of_find? hnode).symm

/-- What a write makes of a node. -/
def written (label : String) (extra : Option String) (properties : Dict String Json) (edges : List Edge)
    (node : Option GraphNode) : GraphNode :=
  updated (node.getD .empty) (label :: extra.toList) properties edges

variable {extra extra' : Option String} {properties properties' : Dict String Json} {edges edges' : List Edge}

theorem write_eq_alter (g : Graph) (label uid : String) (extra : Option String) (properties : Dict String Json)
    (edges : List Edge) :
    g.write label uid extra properties edges = (g.ensureAll edges).alter label uid (written label extra properties edges) :=
  rfl

theorem updated_stub (label : String) (extra : Option String) (properties : Dict String Json) (edges : List Edge) :
    updated (.stub label) (label :: extra.toList) properties edges =
      updated .empty (label :: extra.toList) properties edges := by
  have hlabels : (GraphNode.stub label).labels.insert label () = GraphNode.empty.labels.insert label () :=
    Dict.insert_insert_self _ _ _ _
  unfold updated
  rw [List.foldl_cons, List.foldl_cons, hlabels]
  rfl

theorem ensure_comm (g : Graph) (a b : NodeRef) : (g.ensure a).ensure b = (g.ensure b).ensure a := by
  by_cases h : a.label = b.label ∧ a.uid = b.uid
  · obtain rfl : a = b := by
      cases a
      cases b
      simp_all
    rfl
  · simp only [ensure_eq_alter]
    exact alter_comm g h

/-- **A stub that comes first** makes no difference to the write of its node. -/
theorem ensure_alter_comm (g : Graph) (ref : NodeRef) :
    (g.ensure ref).alter label uid (written label extra properties edges) =
      (g.alter label uid (written label extra properties edges)).ensure ref := by
  rw [ensure_eq_alter, ensure_eq_alter]
  by_cases h : ref.label = label ∧ ref.uid = uid
  · obtain ⟨rfl, rfl⟩ := h
    rw [alter_alter_self, alter_alter_self]
    refine congrArg (g.alter ref.label ref.uid) (funext fun node => ?_)
    cases node with
    | none => exact updated_stub ref.label extra properties edges
    | some node => rfl
  · exact alter_comm g h

theorem ensureAll_alter_comm (g : Graph) (refs : List Edge) :
    (g.ensureAll refs).alter label uid (written label extra properties edges) =
      (g.alter label uid (written label extra properties edges)).ensureAll refs := by
  induction refs generalizing g with
  | nil => rfl
  | cons e refs ih =>
    have hstep := ih (g.ensure e.target)
    rw [ensure_alter_comm] at hstep
    exact hstep

theorem ensure_ensureAll_comm (g : Graph) (ref : NodeRef) (refs : List Edge) :
    (g.ensure ref).ensureAll refs = (g.ensureAll refs).ensure ref := by
  induction refs generalizing g with
  | nil => rfl
  | cons e refs ih =>
    have hstep := ih (g.ensure e.target)
    rw [ensure_comm] at hstep
    exact hstep

theorem ensureAll_comm (g : Graph) (refs refs' : List Edge) :
    (g.ensureAll refs).ensureAll refs' = (g.ensureAll refs').ensureAll refs := by
  induction refs generalizing g with
  | nil => rfl
  | cons e refs ih =>
    have hstep := ih (g.ensure e.target)
    rw [ensure_ensureAll_comm g e.target refs'] at hstep
    exact hstep

/-- **Different nodes are written in either order**, each with the ends of its edges. -/
theorem write_comm (g : Graph) (h : ¬ (label = label' ∧ uid = uid')) :
    (g.write label uid extra properties edges).write label' uid' extra' properties' edges' =
      (g.write label' uid' extra' properties' edges').write label uid extra properties edges := by
  simp only [write_eq_alter]
  rw [← ensureAll_alter_comm, ← ensureAll_alter_comm, ensureAll_comm, alter_comm _ h]

theorem set_comm {g g₁ g₂ : Graph} {f f' : Family} {r r' : Record} (h₁ : g.set f r = .ok g₁) (h₂ : g.set f' r' = .ok g₂)
    (h : ¬ (f = f' ∧ r.uid = r'.uid)) : ∃ g₃, g₁.set f' r' = .ok g₃ ∧ g₂.set f r = .ok g₃ := by
  obtain ⟨edges, extra, hedges, hextra, rfl⟩ := set_eq_ok_iff.mp h₁
  obtain ⟨edges', extra', hedges', hextra', rfl⟩ := set_eq_ok_iff.mp h₂
  have hkeys : ¬ (f.label = f'.label ∧ r.uid = r'.uid) := by
    intro e
    exact h ⟨Family.label_inj e.1, e.2⟩
  refine ⟨_, set_eq_ok_iff.mpr ⟨edges', extra', hedges', hextra', rfl⟩, ?_⟩
  exact set_eq_ok_iff.mpr ⟨edges, extra, hedges, hextra, write_comm g hkeys⟩

/-- A record is refused for what it is, whatever is stored. -/
theorem set_error {g : Graph} {f : Family} {r : Record} {e : StorageError} (h : g.set f r = .error e) (g' : Graph) :
    g'.set f r = .error e := by
  unfold set at h ⊢
  cases hedges : r.links.toList.mapM fun e => edgeOf f e.1 e.2 with
  | error x => simpa [hedges, bind, Except.bind] using h
  | ok edges =>
    cases hextra : extraLabel f r.kind with
    | error x => simpa [hedges, hextra, bind, Except.bind] using h
    | ok extra => simp [hedges, hextra, bind, Except.bind, pure, Except.pure] at h

end Graph

/-! ### Both models -/

namespace Store

variable {s s₁ s₂ : Store} {f g : Family} {r q : Record}

/-- **Different records are stored in either order.** -/
theorem set_comm (h₁ : s.set f r = .ok s₁) (h₂ : s.set g q = .ok s₂) (h : ¬ (f = g ∧ r.uid = q.uid)) :
    ∃ s₃, s₁.set g q = .ok s₃ ∧ s₂.set f r = .ok s₃ := by
  cases s with
  | documents d =>
    obtain rfl : documents (d.set f r) = s₁ := Except.ok.inj h₁
    obtain rfl : documents (d.set g q) = s₂ := Except.ok.inj h₂
    refine ⟨_, rfl, ?_⟩
    rw [set_documents, d.set_comm h]
  | graph g₀ =>
    obtain ⟨g₁, hg₁, rfl⟩ := set_graph_eq_ok h₁
    obtain ⟨g₂, hg₂, rfl⟩ := set_graph_eq_ok h₂
    obtain ⟨g₃, h₁₃, h₂₃⟩ := Graph.set_comm hg₁ hg₂ h
    exact ⟨graph g₃, set_graph_of_ok h₁₃, set_graph_of_ok h₂₃⟩

theorem set_error_of_set {e : StorageError} (h : s.set g q = .error e) (hs : s.set f r = .ok s₁) :
    s₁.set g q = .error e := by
  cases s with
  | documents d => cases h
  | graph g₀ =>
    obtain ⟨g₁, -, rfl⟩ := set_graph_eq_ok hs
    simp only [Store.set] at h ⊢
    cases hg : g₀.set g q with
    | error x =>
      rw [hg] at h
      rw [Graph.set_error hg g₁]
      exact h
    | ok g₂ =>
      rw [hg] at h
      cases h

end Store

end FleetAtlas
