import FleetAtlas.Proofs.Storage.Commute
import Mathlib.Data.List.Induction

/-!
# What a graph keeps of earlier writes

* `Graph.Holds`: a node has these properties, these targets of its links and these kinds among its labels;
  `Holds.updated`: a write replaces the properties, and adds to the targets and to the kinds;
* `Graph.holds_set_self`, `Graph.holds_set_of_ne`: the same for the node that is written, and for the others, of which
  some become stubs;
* `Holds.get_eq_some`, `Holds.get?_linksOf`, `Holds.kindOf_eq_iff`: what a look-up shows of such a node, whose kind is the
  `Foremost` of its kinds;
* `Graph.afterAll`, `Graph.taken`: calls made one after the other, and those of them that stored a record under a uid;
  `Graph.holds_afterAll`: **a node holds the last properties, the last target of every link, and all kinds**;
* `Graph.links_eq_iff_of_history`, `Graph.kind_eq_iff_of_history`: **when a look-up shows the links and the kind of the
  last write**: not always.
-/

namespace FleetAtlas

namespace Graph

/-! ### What a node holds -/

/-- A node has these properties, these targets of its links by name, and these kinds among its labels. -/
structure Holds (f : Family) (node : GraphNode) (properties : Dict String Json) (target : String → Option String)
    (kinds : String → Prop) : Prop where
  properties : node.properties = properties
  edges : ∀ l ∈ f.links, node.edges.get? l.relationship = (target l.name).map fun uid => ⟨l.target.label, uid⟩
  labels : ∀ kind, kind ≠ f.label → ((node.labels.get? kind).isSome ↔ kinds kind)

variable {f : Family} {node : GraphNode} {properties : Dict String Json} {target : String → Option String}
  {kinds : String → Prop}

theorem holds_empty (f : Family) : Holds f .empty ∅ (fun _ => none) (fun _ => False) where
  properties := rfl
  edges _ _ := rfl
  labels kind _ := by simp [GraphNode.empty]

/-- A stub holds no more than no node at all. -/
theorem holds_stub_iff : Holds f (.stub f.label) properties target kinds ↔ Holds f .empty properties target kinds := by
  have hlabels : ∀ kind, kind ≠ f.label → (GraphNode.stub f.label).labels.get? kind = GraphNode.empty.labels.get? kind :=
    fun kind hne => Dict.get?_insert_of_ne _ hne ()
  constructor
  · rintro ⟨hp, he, hl⟩
    exact ⟨hp, he, fun kind hne => hlabels kind hne ▸ hl kind hne⟩
  · rintro ⟨hp, he, hl⟩
    exact ⟨hp, he, fun kind hne => (hlabels kind hne).symm ▸ hl kind hne⟩

theorem extraLabel_eq_ok_iff {kind : String} {extra : Option String} :
    extraLabel f kind = .ok extra ↔ (kind = f.label ∧ extra = none) ∨
      (kind ≠ f.label ∧ isIdentifier kind = true ∧ extra = some kind) := by
  unfold extraLabel checkIdentifier
  by_cases h : kind = f.label
  · rw [if_pos h, Except.ok.injEq]
    simp [h, eq_comm (a := none)]
  · by_cases hid : isIdentifier kind = true
    · simp [h, hid, Except.map, eq_comm (a := some kind)]
    · simp [h, hid, Except.map]

/-- **A write replaces the properties, and adds to the targets and to the kinds.** -/
theorem Holds.updated (h : Holds f node properties target kinds) {r : Record} {edges : List Edge} {extra : Option String}
    (hedges : r.links.toList.mapM (fun e => edgeOf f e.1 e.2) = .ok edges) (hextra : extraLabel f r.kind = .ok extra) :
    Holds f (Graph.updated node (f.label :: extra.toList) r.properties edges) r.nonNull
      (fun name => (r.links.get? name).or (target name)) (fun kind => kind = r.kind ∨ kinds kind) where
  properties := rfl
  edges l hl := by
    cases hlink : r.links.get? l.name with
    | some uid =>
      obtain ⟨l', hl', hname, hedge⟩ := get?_edges_updated hedges node (f.label :: extra.toList) hlink
      obtain rfl := f.link_eq_of_name l' hl' l hl hname
      exact hedge
    | none =>
      -- an edge of this relationship would come from a link of this name
      have hnot : l.relationship ∉ (edges.map fun e => (e.relationship, e.target)).map Prod.fst := by
        rw [List.map_map]
        intro hmem
        obtain ⟨e, he, hrel⟩ := List.mem_map.mp hmem
        obtain ⟨⟨name, uid⟩, hentry, hact⟩ := (mem_of_mapM_ok hedges e).mp he
        obtain ⟨l', hl', rfl⟩ := edgeOf_eq_ok_iff.mp hact
        obtain ⟨hmem', hname⟩ := Family.mem_of_link? hl'
        obtain rfl := f.link_eq_of_relationship l' hmem' l hl hrel
        rw [hname, Dict.mem_toList_iff.mp hentry] at hlink
        exact nomatch hlink
      rw [edges_updated, Dict.get?_insertMany_of_notMem _ _ hnot, h.edges l hl, Option.none_or]
  labels kind hne := by
    have hown : (node.labels.insert f.label ()).get? kind = node.labels.get? kind := Dict.get?_insert_of_ne _ hne ()
    rcases extraLabel_eq_ok_iff.mp hextra with ⟨hkind, rfl⟩ | ⟨-, -, rfl⟩
    · show ((node.labels.insert f.label ()).get? kind).isSome ↔ _
      rw [hown, h.labels kind hne, hkind]
      simp [hne]
    · show (((node.labels.insert f.label ()).insert r.kind ()).get? kind).isSome ↔ _
      rw [Dict.get?_insert, hown, ← h.labels kind hne]
      split <;> simp [*]

/-! ### What the node of a record holds -/

/-- The node of a record; where there is none, one that holds nothing. -/
def nodeAt (g : Graph) (f : Family) (uid : String) : GraphNode := (g.find? f.label uid).getD .empty

theorem get_eq_recordOf? (g : Graph) (f : Family) (uid : String) : g.get f uid = recordOf? f uid (g.nodeAt f uid) := by
  unfold get nodeAt
  cases g.find? f.label uid <;> rfl

variable {g g' : Graph} {uid : String}

theorem holds_ensure (h : Holds f (g.nodeAt f uid) properties target kinds) (ref : NodeRef) :
    Holds f ((g.ensure ref).nodeAt f uid) properties target kinds := by
  unfold ensure
  split
  · exact h
  · next hnone =>
    unfold nodeAt at h ⊢
    rw [find?_put]
    split
    · next e =>
      rw [e.1, e.2, hnone] at h
      rw [Option.getD_some, ← e.1]
      exact holds_stub_iff.mpr h
    · exact h

theorem holds_ensureAll (h : Holds f (g.nodeAt f uid) properties target kinds) (edges : List Edge) :
    Holds f ((g.ensureAll edges).nodeAt f uid) properties target kinds := by
  induction edges generalizing g with
  | nil => exact h
  | cons e edges ih => exact ih (holds_ensure h e.target)

/-- **What storing a record does to its node.** -/
theorem holds_set_self {r : Record} (h : Holds f (g.nodeAt f r.uid) properties target kinds) (hset : g.set f r = .ok g') :
    Holds f (g'.nodeAt f r.uid) r.nonNull (fun name => (r.links.get? name).or (target name))
      (fun kind => kind = r.kind ∨ kinds kind) := by
  obtain ⟨edges, extra, hedges, hextra, rfl⟩ := set_eq_ok_iff.mp hset
  have hnode : (g.write f.label r.uid extra r.properties edges).nodeAt f r.uid =
      Graph.updated ((g.ensureAll edges).nodeAt f r.uid) (f.label :: extra.toList) r.properties edges := by
    unfold nodeAt
    rw [write_eq, find?_put, if_pos ⟨rfl, rfl⟩, Option.getD_some]
  rw [hnode]
  exact (holds_ensureAll h edges).updated hedges hextra

/-- **Storing a record does nothing to the nodes of others**, stubs apart. -/
theorem holds_set_of_ne {f' : Family} {r : Record} (h : Holds f (g.nodeAt f uid) properties target kinds)
    (hset : g.set f' r = .ok g') (hne : ¬ (f = f' ∧ uid = r.uid)) :
    Holds f (g'.nodeAt f uid) properties target kinds := by
  obtain ⟨edges, extra, -, -, rfl⟩ := set_eq_ok_iff.mp hset
  have hnode : (g.write f'.label r.uid extra r.properties edges).nodeAt f uid = (g.ensureAll edges).nodeAt f uid := by
    unfold nodeAt
    rw [write_eq, find?_put, if_neg fun e => hne ⟨Family.label_inj e.1, e.2⟩]
  rw [hnode]
  exact holds_ensureAll h edges

/-! ### What a look-up shows -/

/-- The first of some kinds in order, the family's own coming after all others. -/
def Foremost (f : Family) (kinds : String → Prop) (kind : String) : Prop :=
  kinds kind ∧ ∀ k, kinds k → k = f.label ∨ (kind ≠ f.label ∧ ¬ k < kind)

theorem Foremost.unique {kind kind' : String} (h : Foremost f kinds kind) (h' : Foremost f kinds kind') : kind = kind' := by
  rcases h.2 kind' h'.1 with hown | ⟨hne, hle⟩
  · rcases h'.2 kind h.1 with hown' | ⟨hne', -⟩
    · rw [hown, hown']
    · exact absurd hown hne'
  · rcases h'.2 kind h.1 with hown' | ⟨-, hle'⟩
    · exact absurd hown' hne
    · exact LinearKey.connex hle' hle

namespace Holds

variable (h : Holds f node properties target kinds)

include h

/-- The links that a node shows have the targets that it holds. -/
theorem get?_linksOf (htarget : ∀ name, (target name).isSome → (f.link? name).isSome) (name : String) :
    (linksOf f node).get? name = target name := by
  refine Option.ext fun uid => ?_
  rw [Graph.get?_linksOf]
  constructor
  · rintro ⟨l, hl, rfl, ref, href, rfl⟩
    rw [h.edges l hl] at href
    obtain ⟨uid, huid, rfl⟩ := Option.map_eq_some_iff.mp href
    exact huid
  · intro huid
    obtain ⟨l, hlink⟩ := Option.isSome_iff_exists.mp (htarget name (huid ▸ rfl))
    obtain ⟨hl, rfl⟩ := Family.mem_of_link? hlink
    exact ⟨l, hl, rfl, _, (h.edges l hl).trans (congrArg _ huid), rfl⟩

/-- **The kind that a node shows** is the foremost of its kinds. -/
theorem kindOf_eq_iff (hsome : ∃ kind, kinds kind) {kind : String} : kindOf f node = kind ↔ Foremost f kinds kind := by
  have hkinds : ∀ k, k ≠ f.label → (k ∈ node.labels.keys ↔ kinds k) := fun k hk => Dict.mem_keys_iff.trans (h.labels k hk)
  unfold kindOf
  cases hfind : node.labels.keys.find? fun l => l ≠ f.label with
  | none =>
    have hown : ∀ k, kinds k → k = f.label := by
      intro k hk
      by_contra hne
      simpa [hne] using List.find?_eq_none.mp hfind k ((hkinds k hne).mpr hk)
    rw [Option.getD_none]
    constructor
    · rintro rfl
      obtain ⟨k, hk⟩ := hsome
      exact ⟨hown k hk ▸ hk, fun k hk => .inl (hown k hk)⟩
    · exact fun hkind => (hown kind hkind.1).symm
  | some first =>
    obtain ⟨hp, hmem, hleast⟩ := Dict.find?_keys_eq_some_iff.mp hfind
    have hne : first ≠ f.label := by simpa using hp
    have hfirst : Foremost f kinds first := by
      refine ⟨(hkinds first hne).mp hmem, fun k hk => ?_⟩
      by_cases hown : k = f.label
      · exact .inl hown
      · exact .inr ⟨hne, hleast k ((hkinds k hown).mpr hk) (by simpa using hown)⟩
    rw [Option.getD_some]
    constructor
    · rintro rfl
      exact hfirst
    · exact fun hkind => hfirst.unique hkind

end Holds

theorem Holds.get_eq_some (h : Holds f (g.nodeAt f uid) properties target kinds) (hne : properties.isEmpty = false) :
    g.get f uid = some ⟨uid, kindOf f (g.nodeAt f uid), properties, linksOf f (g.nodeAt f uid)⟩ := by
  rw [get_eq_recordOf?, recordOf?, h.properties, hne]
  rfl

/-! ### Calls one after the other -/

/-- Whether a record can be stored: its links are links of the family, and its kind may stand in a query. -/
def accepts (f : Family) (r : Record) : Bool :=
  (r.links.keys.all fun name => (f.link? name).isSome) && (r.kind = f.label || isIdentifier r.kind)

theorem exists_mapM_edgeOf_iff {f : Family} {r : Record} :
    (∃ edges, r.links.toList.mapM (fun e => edgeOf f e.1 e.2) = .ok edges) ↔
      ∀ name ∈ r.links.keys, (f.link? name).isSome := by
  have hedge : ∀ name uid, (∃ e, edgeOf f name uid = .ok e) ↔ (f.link? name).isSome := by
    intro name uid
    simp only [edgeOf_eq_ok_iff, Option.isSome_iff_exists]
    exact ⟨fun ⟨_, l, hl, _⟩ => ⟨l, hl⟩, fun ⟨l, hl⟩ => ⟨_, l, hl, rfl⟩⟩
  constructor
  · rintro ⟨edges, hedges⟩ name hname
    obtain ⟨⟨name, uid⟩, hentry, rfl⟩ := List.mem_map.mp hname
    exact (hedge name uid).mp (exists_ok_of_mapM_ok hedges _ hentry)
  · intro h
    refine exists_mapM_ok fun ⟨name, uid⟩ hentry => (hedge name uid).mpr (h name ?_)
    exact List.mem_map.mpr ⟨(name, uid), hentry, rfl⟩

/-- **Which records can be stored**, whatever is stored already. -/
theorem exists_set_iff_accepts {g : Graph} {f : Family} {r : Record} :
    (∃ g', g.set f r = .ok g') ↔ accepts f r = true := by
  have hextra : (∃ extra, extraLabel f r.kind = .ok extra) ↔ (r.kind = f.label ∨ isIdentifier r.kind = true) := by
    simp only [extraLabel_eq_ok_iff]
    constructor
    · rintro ⟨extra, h | h⟩
      · exact .inl h.1
      · exact .inr h.2.1
    · intro h
      by_cases hkind : r.kind = f.label
      · exact ⟨none, .inl ⟨hkind, rfl⟩⟩
      · exact ⟨_, .inr ⟨hkind, h.resolve_left hkind, rfl⟩⟩
  rw [accepts, Bool.and_eq_true, List.all_eq_true, Bool.or_eq_true, decide_eq_true_iff, ← hextra,
    ← exists_mapM_edgeOf_iff]
  simp only [set_eq_ok_iff]
  constructor
  · rintro ⟨g', edges, extra, hedges, hextra, -⟩
    exact ⟨⟨edges, hedges⟩, extra, hextra⟩
  · rintro ⟨⟨edges, hedges⟩, extra, hextra⟩
    exact ⟨_, edges, extra, hedges, hextra, rfl⟩

/-- The graph after a call that stores a record; one that is refused changes nothing. -/
def attempt (g : Graph) (call : Family × Record) : Graph :=
  match g.set call.1 call.2 with
  | .ok g' => g'
  | .error _ => g

/-- The graph after calls, from one without nodes. -/
def afterAll (calls : List (Family × Record)) : Graph := calls.foldl attempt empty

/-- The records that calls stored under a uid. -/
def taken (calls : List (Family × Record)) (f : Family) (uid : String) : List Record :=
  (calls.filter fun call => call.1 = f && call.2.uid = uid && accepts call.1 call.2).map Prod.snd

/-- The properties that records leave, one stored over the other. -/
def lastProperties (records : List Record) : Dict String Json := records.foldl (fun _ r => r.nonNull) ∅

/-- The target that records gave to a link last. -/
def lastTarget (records : List Record) (name : String) : Option String :=
  records.foldl (fun earlier r => (r.links.get? name).or earlier) none

theorem afterAll_concat (calls : List (Family × Record)) (call : Family × Record) :
    afterAll (calls ++ [call]) = (afterAll calls).attempt call := by
  rw [afterAll, List.foldl_append]
  rfl

theorem afterAll_concat_of_ok {calls : List (Family × Record)} {f : Family} {r : Record} {g : Graph}
    (h : (afterAll calls).set f r = .ok g) : afterAll (calls ++ [(f, r)]) = g := by
  rw [afterAll_concat, attempt, h]

theorem taken_concat (calls : List (Family × Record)) (f f' : Family) (r : Record) (uid : String) :
    taken (calls ++ [(f', r)]) f uid =
      taken calls f uid ++ if f' = f ∧ r.uid = uid ∧ accepts f' r = true then [r] else [] := by
  unfold taken
  rw [List.filter_append, List.map_append]
  congr 1
  by_cases h : f' = f ∧ r.uid = uid ∧ accepts f' r = true
  · obtain ⟨rfl, rfl, haccepts⟩ := h
    simp [haccepts]
  · rw [if_neg h]
    simpa [and_assoc] using h

theorem taken_concat_of_ok {calls : List (Family × Record)} {f : Family} {r : Record} {g g' : Graph}
    (h : g.set f r = .ok g') : taken (calls ++ [(f, r)]) f r.uid = taken calls f r.uid ++ [r] := by
  rw [taken_concat, if_pos ⟨rfl, rfl, exists_set_iff_accepts.mp ⟨g', h⟩⟩]

theorem lastProperties_concat (records : List Record) (r : Record) : lastProperties (records ++ [r]) = r.nonNull := by
  rw [lastProperties, List.foldl_append]
  rfl

theorem lastTarget_concat (records : List Record) (r : Record) (name : String) :
    lastTarget (records ++ [r]) name = (r.links.get? name).or (lastTarget records name) := by
  rw [lastTarget, List.foldl_append]
  rfl

theorem isSome_lastTarget_iff {records : List Record} {name : String} :
    (lastTarget records name).isSome ↔ ∃ r ∈ records, (r.links.get? name).isSome := by
  induction records using List.reverseRecOn with
  | nil => simp [lastTarget]
  | append_singleton records r ih =>
    rw [lastTarget_concat, Option.isSome_or, Bool.or_eq_true, ih]
    simp [or_and_right, exists_or, or_comm]

theorem accepts_of_mem_taken {calls : List (Family × Record)} {f : Family} {uid : String} {r : Record}
    (h : r ∈ taken calls f uid) : accepts f r = true := by
  obtain ⟨⟨f', r'⟩, hcall, rfl⟩ := List.mem_map.mp h
  have hcall := (List.mem_filter.mp hcall).2
  simp only [Bool.and_eq_true, decide_eq_true_iff] at hcall
  exact hcall.1.1 ▸ hcall.2

/-- Only links of the family have ever had a target. -/
theorem isSome_link?_of_lastTarget {calls : List (Family × Record)} {f : Family} {uid name : String}
    (h : (lastTarget (taken calls f uid) name).isSome) : (f.link? name).isSome := by
  obtain ⟨r, hr, hname⟩ := isSome_lastTarget_iff.mp h
  have haccepts := accepts_of_mem_taken hr
  rw [accepts, Bool.and_eq_true, List.all_eq_true] at haccepts
  exact haccepts.1 name (Dict.mem_keys_iff.mpr hname)

/-- **What calls leave in a node**: the last properties, the last target of every link, and all kinds. -/
theorem holds_afterAll (calls : List (Family × Record)) (f : Family) (uid : String) :
    Holds f ((afterAll calls).nodeAt f uid) (lastProperties (taken calls f uid)) (lastTarget (taken calls f uid))
      (fun kind => ∃ r ∈ taken calls f uid, kind = r.kind) := by
  -- from the last call on: it is taken for this node, for another one, or refused
  induction calls using List.reverseRecOn with
  | nil =>
    obtain ⟨hproperties, hedges, hlabels⟩ := holds_empty f
    exact ⟨hproperties, hedges, fun kind hne => (hlabels kind hne).trans (by simp [taken])⟩
  | append_singleton calls call ih =>
    obtain ⟨f', r⟩ := call
    cases hset : (afterAll calls).set f' r with
    | error e =>
      have hrefused : ¬ accepts f' r = true := by
        intro h
        obtain ⟨g', hg'⟩ := exists_set_iff_accepts.mpr h
        rw [hset] at hg'
        exact nomatch hg'
      rw [afterAll_concat, attempt, hset, taken_concat, if_neg fun h => hrefused h.2.2, List.append_nil]
      exact ih
    | ok g' =>
      rw [afterAll_concat_of_ok hset]
      by_cases hown : f' = f ∧ r.uid = uid
      · obtain ⟨rfl, rfl⟩ := hown
        rw [taken_concat_of_ok hset]
        have hstep := holds_set_self ih hset
        refine ⟨?_, ?_, ?_⟩
        · rw [hstep.properties, lastProperties_concat]
        · intro l hl
          rw [hstep.edges l hl, lastTarget_concat]
        · intro kind hne
          rw [hstep.labels kind hne]
          simp [or_and_right, exists_or, or_comm]
      · rw [taken_concat, if_neg fun h => hown ⟨h.1, h.2.1⟩, List.append_nil]
        exact holds_set_of_ne ih hset fun e => hown ⟨e.1.symm, e.2.symm⟩

/-! ### What a look-up shows after calls -/

section History

variable {calls : List (Family × Record)} {f : Family} {r : Record} {g : Graph}

/-- A record with a property is shown once it is stored. -/
theorem exists_node_of_history (hset : (afterAll calls).set f r = .ok g)
    (hproperty : ∃ name j, r.properties.get? name = some j ∧ j.isNull = false) :
    ∃ node, Holds f node r.nonNull (lastTarget (taken calls f r.uid ++ [r]))
        (fun kind => ∃ r' ∈ taken calls f r.uid ++ [r], kind = r'.kind) ∧
      g.get f r.uid = some ⟨r.uid, kindOf f node, r.nonNull, linksOf f node⟩ := by
  have hholds := holds_afterAll (calls ++ [(f, r)]) f r.uid
  rw [afterAll_concat_of_ok hset, taken_concat_of_ok hset, lastProperties_concat] at hholds
  exact ⟨_, hholds, hholds.get_eq_some (Record.isEmpty_nonNull hproperty)⟩

/-- The targets that were given last are those of the last record, if this has all links that earlier ones had. -/
theorem lastTarget_concat_eq_iff {records : List Record} {r : Record} :
    (∀ name, lastTarget (records ++ [r]) name = r.links.get? name) ↔
      ∀ r' ∈ records, ∀ name, (r'.links.get? name).isSome → (r.links.get? name).isSome := by
  constructor
  · intro h r' hr' name hname
    rw [← h name, isSome_lastTarget_iff]
    exact ⟨r', List.mem_append_left _ hr', hname⟩
  · intro h name
    rw [lastTarget_concat]
    cases hlink : r.links.get? name with
    | some uid => rfl
    | none =>
      rw [Option.none_or, ← Option.not_isSome_iff_eq_none, isSome_lastTarget_iff]
      rintro ⟨r', hr', hname⟩
      simpa [hlink] using h r' hr' name hname

/-- **A look-up shows the target that each link was given last**: the links of the last write exactly if that gives all
links which earlier writes of the record gave. -/
theorem links_eq_iff_of_history (hset : (afterAll calls).set f r = .ok g)
    (hproperty : ∃ name j, r.properties.get? name = some j ∧ j.isNull = false) :
    ∃ q, g.get f r.uid = some q ∧ (∀ name, q.links.get? name = lastTarget (taken calls f r.uid ++ [r]) name) ∧
      (q.links = r.links ↔
        ∀ r' ∈ taken calls f r.uid, ∀ name, (r'.links.get? name).isSome → (r.links.get? name).isSome) := by
  obtain ⟨node, hholds, hget⟩ := exists_node_of_history hset hproperty
  have htargets : ∀ name, (linksOf f node).get? name = lastTarget (taken calls f r.uid ++ [r]) name := by
    refine hholds.get?_linksOf fun name hname => ?_
    rw [← taken_concat_of_ok hset] at hname
    exact isSome_link?_of_lastTarget hname
  refine ⟨_, hget, htargets, ?_⟩
  rw [← lastTarget_concat_eq_iff]
  constructor
  · intro e name
    rw [← htargets name]
    exact congrArg (Dict.get? · name) e
  · exact fun h => Dict.ext_get? fun name => (htargets name).trans (h name)

/-- The record of an instance, which may not be scheduled on a node. -/
def instanceOn (node : Option String) : Record where
  uid := "t1/a1/Dev/4/p1"
  kind := "DeploymentInstance"
  properties := .ofList [("id", .str "p1"), ("started", .str "2024-04-02T08:00:00Z"), ("stopped", .null)]
  links := .ofList ([("instanceOf", "t1/a1/Dev/4"), ("usesArtifactConfiguration", "t1/a1/Dev/m1/a"),
    ("usesRuntimeConfiguration", "t1/a1/Dev/m1/r")] ++ (node.map fun name => ("scheduledOn", name)).toList)

/-- The node of an instance is still shown when the instance is stored without one. -/
theorem links_instanceOn : ∃ g q, (afterAll [(.deploymentInstance, instanceOn (some "n1"))]).set .deploymentInstance
    (instanceOn none) = .ok g ∧ g.get .deploymentInstance (instanceOn none).uid = some q ∧
      q.links.get? "scheduledOn" = some "n1" ∧ q.links ≠ (instanceOn none).links := by
  obtain ⟨g, hset⟩ : ∃ g, (afterAll [(.deploymentInstance, instanceOn (some "n1"))]).set .deploymentInstance
      (instanceOn none) = .ok g := exists_set_iff_accepts.mpr (by decide +kernel)
  have htaken : taken [(.deploymentInstance, instanceOn (some "n1"))] .deploymentInstance (instanceOn none).uid =
      [instanceOn (some "n1")] := by decide +kernel
  obtain ⟨q, hget, htarget, hlinks⟩ := links_eq_iff_of_history hset ⟨"id", .str "p1", by decide +kernel, rfl⟩
  rw [htaken] at htarget hlinks
  refine ⟨g, q, hset, hget, (htarget "scheduledOn").trans (by decide +kernel), fun e => ?_⟩
  have hscheduled := hlinks.mp e (instanceOn (some "n1")) List.mem_cons_self "scheduledOn" (by decide +kernel)
  exact absurd hscheduled (by decide +kernel)

/-- So a look-up need not show the links of the last write. -/
theorem exists_links_ne : ¬ ∀ (calls : List (Family × Record)) (f : Family) (r : Record) (g : Graph),
    (afterAll calls).set f r = .ok g → (∃ name j, r.properties.get? name = some j ∧ j.isNull = false) →
      ∃ q, g.get f r.uid = some q ∧ q.links = r.links := by
  intro h
  obtain ⟨g, hset⟩ : ∃ g, (afterAll [(.deploymentInstance, instanceOn (some "n1"))]).set .deploymentInstance
      (instanceOn none) = .ok g := exists_set_iff_accepts.mpr (by decide +kernel)
  obtain ⟨q, hget, hlinks⟩ := h _ _ _ g hset ⟨"id", .str "p1", by decide +kernel, rfl⟩
  rw [← afterAll_concat_of_ok hset] at hget
  have hshown : (afterAll ([(.deploymentInstance, instanceOn (some "n1"))] ++ [(.deploymentInstance, instanceOn none)])).get
      .deploymentInstance (instanceOn none).uid = some { instanceOn (some "n1") with
        properties := (instanceOn none).nonNull } := by decide +kernel
  rw [hshown] at hget
  obtain rfl := Option.some.inj hget
  exact absurd hlinks (by decide +kernel)

/-- **A look-up shows the foremost kind that was ever given**: the kind of the last write exactly if no earlier write of the
record gave one that comes before it. -/
theorem kind_eq_iff_of_history (hset : (afterAll calls).set f r = .ok g)
    (hproperty : ∃ name j, r.properties.get? name = some j ∧ j.isNull = false) :
    ∃ q, g.get f r.uid = some q ∧ Foremost f (fun kind => ∃ r' ∈ taken calls f r.uid ++ [r], kind = r'.kind) q.kind ∧
      (q.kind = r.kind ↔
        ∀ r' ∈ taken calls f r.uid, r'.kind = f.label ∨ (r.kind ≠ f.label ∧ ¬ r'.kind < r.kind)) := by
  obtain ⟨node, hholds, hget⟩ := exists_node_of_history hset hproperty
  have hlast : ∃ r' ∈ taken calls f r.uid ++ [r], r.kind = r'.kind :=
    ⟨r, List.mem_append_right _ List.mem_cons_self, rfl⟩
  refine ⟨_, hget, (hholds.kindOf_eq_iff ⟨r.kind, hlast⟩).mp rfl, ?_⟩
  rw [hholds.kindOf_eq_iff ⟨r.kind, hlast⟩]
  constructor
  · intro h r' hr'
    exact h.2 r'.kind ⟨r', List.mem_append_left _ hr', rfl⟩
  · intro h
    refine ⟨hlast, ?_⟩
    rintro k ⟨r', hr', rfl⟩
    rcases List.mem_append.mp hr' with hr' | hr'
    · exact h r' hr'
    · rw [List.mem_singleton.mp hr']
      exact (em (r.kind = f.label)).imp_right fun hne => ⟨hne, LinearKey.irrefl r.kind⟩

/-- The record of an event of the cluster. -/
def eventOf (kind : EventKind) : Record where
  uid := "kubernetes/e1"
  kind := kind.name
  properties := .ofList [("count", .int 1), ("firstTime", .str "2024-04-02T08:00:00Z"),
    ("lastTime", .str "2024-04-02T08:00:00Z"), ("platform", .bool false)]
  links := .ofList [("happenedTo", "t1/a1/Dev/4/p1")]

/-- An event that was stored as a failed pull is still shown as one when it is stored as a failed start. -/
theorem kind_eventOf : ∃ g q, (afterAll [(.event, eventOf .failedToPull)]).set .event (eventOf .failedToStart) = .ok g ∧
    g.get .event (eventOf .failedToStart).uid = some q ∧ q.kind = (eventOf .failedToPull).kind := by
  obtain ⟨g, hset⟩ : ∃ g, (afterAll [(.event, eventOf .failedToPull)]).set .event (eventOf .failedToStart) = .ok g :=
    exists_set_iff_accepts.mpr (by decide +kernel)
  have htaken : taken [(.event, eventOf .failedToPull)] .event (eventOf .failedToStart).uid = [eventOf .failedToPull] := by
    decide +kernel
  obtain ⟨q, hget, ⟨⟨r', hr', hkind⟩, -⟩, hlast⟩ :=
    kind_eq_iff_of_history hset ⟨"count", .int 1, by decide +kernel, rfl⟩
  rw [htaken] at hr' hlast
  refine ⟨g, q, hset, hget, ?_⟩
  rcases List.mem_cons.mp hr' with rfl | hr'
  · exact hkind
  · rw [List.mem_singleton.mp hr'] at hkind
    have hfirst := hlast.mp hkind (eventOf .failedToPull) List.mem_cons_self
    exact absurd hfirst (by decide +kernel)

/-- So a look-up need not show the kind of the last write. -/
theorem exists_kind_ne : ¬ ∀ (calls : List (Family × Record)) (f : Family) (r : Record) (g : Graph),
    (afterAll calls).set f r = .ok g → (∃ name j, r.properties.get? name = some j ∧ j.isNull = false) →
      ∃ q, g.get f r.uid = some q ∧ q.kind = r.kind := by
  intro h
  obtain ⟨g, hset⟩ : ∃ g, (afterAll [(.event, eventOf .failedToPull)]).set .event (eventOf .failedToStart) = .ok g :=
    exists_set_iff_accepts.mpr (by decide +kernel)
  obtain ⟨q, hget, hkind⟩ := h _ _ _ g hset ⟨"count", .int 1, by decide +kernel, rfl⟩
  rw [← afterAll_concat_of_ok hset] at hget
  have hshown : (afterAll ([(.event, eventOf .failedToPull)] ++ [(.event, eventOf .failedToStart)])).get .event
      (eventOf .failedToStart).uid = some (eventOf .failedToPull) := by decide +kernel
  rw [hshown] at hget
  obtain rfl := Option.some.inj hget
  exact absurd hkind (by decide +kernel)

end History

end Graph

end FleetAtlas
