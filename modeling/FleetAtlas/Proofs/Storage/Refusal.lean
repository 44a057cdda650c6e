import FleetAtlas.Proofs.Storage.Integrity
import FleetAtlas.Proofs.Storage.Service

/-!
# Records that a graph refuses

* `Graph.set_eq_error_iff`: the error that a record is refused with: the first link that the family does not have decides,
  and if there is none the kind; `Graph.exists_error_iff`: so which records are refused;
* `Graph.setSteps`: a record is stored in a graph that changes step by step, and nothing is undone; `Graph.run_setSteps`:
  **the graph then has all of the record, or it is as it was**;
* `Graph.Lettered`: the labels of all nodes are words; `Lettered.set`: storing a record keeps this;
* `Graph.refused_without_trace`: the whole of it.
-/

namespace FleetAtlas

/-! ### Words -/

/-- A letter from `A` to `Z` or from `a` to `z`, or a digit from `0` to `9`. -/
def IsWordChar (c : Char) : Prop := ('A' ≤ c ∧ c ≤ 'Z') ∨ ('a' ≤ c ∧ c ≤ 'z') ∨ ('0' ≤ c ∧ c ≤ '9')

/-- A text of such characters, of one at least. -/
def IsWord (text : String) : Prop := text ≠ "" ∧ ∀ c ∈ text.toList, IsWordChar c

theorem isAlphanum_iff {c : Char} : c.isAlphanum = true ↔ IsWordChar c := by
  have hupper : c.isUpper = true ↔ 'A' ≤ c ∧ c ≤ 'Z' := decide_eq_true_iff
  have hlower : c.isLower = true ↔ 'a' ≤ c ∧ c ≤ 'z' :=
    Bool.and_eq_true_iff.trans (and_congr decide_eq_true_iff decide_eq_true_iff)
  have hdigit : c.isDigit = true ↔ '0' ≤ c ∧ c ≤ '9' :=
    Bool.and_eq_true_iff.trans (and_congr decide_eq_true_iff decide_eq_true_iff)
  show (c.isUpper || c.isLower || c.isDigit) = true ↔ _
  rw [Bool.or_eq_true, Bool.or_eq_true, hupper, hlower, hdigit, or_assoc, IsWordChar]

theorem isIdentifier_iff {text : String} : isIdentifier text = true ↔ IsWord text := by
  have hne : (!text.toList.isEmpty) = true ↔ text ≠ "" := by simp
  rw [isIdentifier, Bool.and_eq_true, hne, List.all_eq_true, IsWord]
  simp only [isAlphanum_iff]

theorem isWord_label (f : Family) : IsWord f.label := by
  rw [← isIdentifier_iff]
  cases f <;> decide

namespace Graph

variable {g g' : Graph} {f : Family} {r : Record}

/-! ### Errors -/

/-- The first of some links that a family does not have. -/
def strayLink? (f : Family) (links : List (String × String)) : Option (String × String) :=
  links.find? fun link => (f.link? link.1).isNone

/-- Links are resolved one by one, up to the first that the family does not have. -/
theorem mapM_edgeOf_eq_error_iff {links : List (String × String)} {e : StorageError} :
    links.mapM (fun link => edgeOf f link.1 link.2) = .error e ↔
      ∃ link, strayLink? f links = some link ∧ e = .other (f.label ++ " has no link named " ++ link.1) := by
  induction links with
  | nil => simp [strayLink?, pure, Except.pure]
  | cons link links ih =>
    rw [List.mapM_cons, strayLink?, List.find?_cons, edgeOf]
    cases hlink : f.link? link.1 with
    | none => simp [bind, Except.bind, eq_comm (a := e)]
    | some l =>
      rw [strayLink?] at ih
      cases hrest : links.mapM fun link => edgeOf f link.1 link.2 with
      | error e' =>
        rw [hrest] at ih
        simpa [bind, Except.bind] using ih
      | ok edges =>
        rw [hrest] at ih
        simpa [bind, Except.bind, pure, Except.pure] using ih

/-- **The error that a record is refused with.** -/
theorem set_eq_error_iff {e : StorageError} : g.set f r = .error e ↔
    (∃ link, strayLink? f r.links.toList = some link ∧ e = .other (f.label ++ " has no link named " ++ link.1)) ∨
      (strayLink? f r.links.toList = none ∧ r.kind ≠ f.label ∧ ¬ IsWord r.kind ∧ e = .invalidIdentifier r.kind) := by
  rw [← mapM_edgeOf_eq_error_iff, set]
  cases hedges : r.links.toList.mapM fun e => edgeOf f e.1 e.2 with
  | error e' =>
    obtain ⟨link, hlink, -⟩ := mapM_edgeOf_eq_error_iff.mp hedges
    simp [bind, Except.bind, hlink]
  | ok edges =>
    have hnone : strayLink? f r.links.toList = none := by
      cases hlink : strayLink? f r.links.toList with
      | none => rfl
      | some link =>
        have herror := mapM_edgeOf_eq_error_iff.mpr ⟨link, hlink, rfl⟩
        exact nomatch hedges.symm.trans herror
    rw [← isIdentifier_iff, extraLabel, checkIdentifier]
    by_cases hkind : r.kind = f.label
    · simp [bind, Except.bind, pure, Except.pure, hkind]
    · by_cases hword : isIdentifier r.kind = true
      · simp [bind, Except.bind, pure, Except.pure, Except.map, hkind, hword]
      · simp [bind, Except.bind, Except.map, hnone, hkind, hword, eq_comm (a := e)]

/-- **Which records are refused**: whatever is stored, one with a link that the family does not have, and one with a kind that
is neither the family's label nor a word. -/
theorem exists_error_iff : (∃ e, g.set f r = .error e) ↔
    (∃ name ∈ r.links.keys, ∀ l ∈ f.links, l.name ≠ name) ∨ (r.kind ≠ f.label ∧ ¬ IsWord r.kind) := by
  have hstray : (∃ link, strayLink? f r.links.toList = some link) ↔
      ∃ name ∈ r.links.keys, ∀ l ∈ f.links, l.name ≠ name := by
    rw [← Option.isSome_iff_exists, strayLink?, List.find?_isSome]
    simp [Dict.keys, Dict.toList, Family.link?]
  simp only [set_eq_error_iff, exists_or]
  rw [← hstray]
  constructor
  · rintro (⟨_, link, hlink, -⟩ | ⟨_, -, hkind, hword, -⟩)
    · exact .inl ⟨link, hlink⟩
    · exact .inr ⟨hkind, hword⟩
  · intro h
    cases hlink : strayLink? f r.links.toList with
    | some link => exact .inl ⟨_, link, rfl, rfl⟩
    | none =>
      obtain ⟨hkind, hword⟩ := h.resolve_left (by simp [hlink])
      exact .inr ⟨_, rfl, hkind, hword, rfl⟩

/-! ### Step by step -/

/-- Steps on a graph: an error ends them, and what was changed before it stays changed. -/
abbrev Steps (α : Type) : Type := ExceptT StorageError (StateM Graph) α

namespace Steps

/-- A check leaves the graph alone. -/
def check {α : Type} (answer : Except StorageError α) : Steps α := fun g => (answer, g)

/-- Resolves links to edges, one by one. -/
def resolve (f : Family) : List (String × String) → Steps (List Edge)
  | [] => return []
  | (name, uid) :: links => do
    let e ← check (edgeOf f name uid)
    let edges ← resolve f links
    return e :: edges

/-- Makes stubs of the ends of edges that are not there, one by one. -/
def ensureEnds : List Edge → Steps Unit
  | [] => return ()
  | e :: edges => do
    modify fun g => g.ensure e.target
    ensureEnds edges

/-- Writes the node of a record. -/
def writeNode (label uid : String) (extra : Option String) (properties : Dict String Json) (edges : List Edge) : Steps Unit :=
  modify fun g =>
    g.put label uid (updated ((g.find? label uid).getD .empty) (label :: extra.toList) properties edges)

end Steps

/-- Stores a record step by step: resolves its links, checks its kind, makes stubs, writes its node. -/
def setSteps (f : Family) (r : Record) : Steps Unit := do
  let edges ← Steps.resolve f r.links.toList
  let extra ← Steps.check (extraLabel f r.kind)
  Steps.ensureEnds edges
  Steps.writeNode f.label r.uid extra r.properties edges

namespace Steps

/-- What comes after a step starts from the graph that the step leaves. -/
theorem run_bind {α β : Type} (step : Steps α) (k : α → Steps β) (g : Graph) :
    (step >>= k).run g = match step.run g with
      | (.ok a, g') => (k a).run g'
      | (.error e, g') => (.error e, g') := by
  change (match step g with | (answer, g') => ExceptT.bindCont k answer g') = match step g with
    | (.ok a, g') => (k a).run g'
    | (.error e, g') => (.error e, g')
  rcases step g with ⟨answer, g'⟩
  cases answer <;> rfl

theorem run_check {α : Type} (answer : Except StorageError α) (g : Graph) : (check answer).run g = (answer, g) := rfl

/-- Resolving links leaves the graph alone. -/
theorem run_resolve (f : Family) (links : List (String × String)) (g : Graph) :
    (resolve f links).run g = (links.mapM fun link => edgeOf f link.1 link.2, g) := by
  induction links with
  | nil => rfl
  | cons link links ih =>
    obtain ⟨name, uid⟩ := link
    rw [resolve, run_bind, run_check, List.mapM_cons]
    cases edgeOf f name uid with
    | error e => rfl
    | ok e =>
      dsimp only
      rw [run_bind, ih]
      cases links.mapM fun link => edgeOf f link.1 link.2 <;> rfl

theorem run_ensureEnds (edges : List Edge) (g : Graph) : (ensureEnds edges).run g = (.ok (), g.ensureAll edges) := by
  induction edges generalizing g with
  | nil => rfl
  | cons e edges ih => exact ih (g.ensure e.target)

end Steps

/-- **The graph has all of the record, or it is as it was**: no check comes after the first change. -/
theorem run_setSteps (f : Family) (r : Record) (g : Graph) : (setSteps f r).run g = match g.set f r with
    | .ok g' => (.ok (), g')
    | .error e => (.error e, g) := by
  rw [setSteps, set, Steps.run_bind, Steps.run_resolve]
  cases r.links.toList.mapM fun link => edgeOf f link.1 link.2 with
  | error e => rfl
  | ok edges =>
    dsimp only
    rw [Steps.run_bind, Steps.run_check]
    cases extraLabel f r.kind with
    | error e => rfl
    | ok extra =>
      dsimp only
      rw [Steps.run_bind, Steps.run_ensureEnds]
      rfl

/-! ### Labels -/

/-- The labels of all nodes are words. -/
def Lettered (g : Graph) : Prop := ∀ label uid node, g.find? label uid = some node → ∀ l ∈ node.labels.keys, IsWord l

theorem lettered_empty : empty.Lettered := fun _ _ _ h => nomatch h

namespace Lettered

theorem put (h : g.Lettered) {label uid : String} {node : GraphNode} (hnode : ∀ l ∈ node.labels.keys, IsWord l) :
    (g.put label uid node).Lettered := by
  intro label' uid' node' hfind
  rw [find?_put] at hfind
  split at hfind
  · obtain rfl := Option.some.inj hfind
    exact hnode
  · exact h label' uid' node' hfind

theorem ensure (h : g.Lettered) {ref : NodeRef} (hlabel : IsWord ref.label) : (g.ensure ref).Lettered := by
  unfold Graph.ensure
  split
  · exact h
  · refine h.put fun l hl => ?_
    obtain rfl : l = ref.label := by simpa [GraphNode.stub, Dict.mem_keys_iff, Dict.get?_insert, GraphNode.empty] using hl
    exact hlabel

theorem ensureAll (h : g.Lettered) {edges : List Edge} (hlabels : ∀ e ∈ edges, IsWord e.target.label) :
    (g.ensureAll edges).Lettered := by
  induction edges generalizing g with
  | nil => exact h
  | cons e edges ih =>
    obtain ⟨he, hrest⟩ := List.forall_mem_cons.mp hlabels
    exact ih (h.ensure he) hrest

/-- **Storing a record keeps labels words**: those that it adds are its family's and those of the ends of its edges, which
are families' too, and its kind, which was checked. -/
theorem set (h : g.Lettered) (hset : g.set f r = .ok g') : g'.Lettered := by
  obtain ⟨edges, extra, hedges, hextra, rfl⟩ := set_eq_ok_iff.mp hset
  have hends : ∀ e ∈ edges, IsWord e.target.label := by
    intro e he
    obtain ⟨link, -, hlink⟩ := (mem_of_mapM_ok hedges e).mp he
    obtain ⟨l, -, rfl⟩ := edgeOf_eq_ok_iff.mp hlink
    exact isWord_label l.target
  have hkind : ∀ kind ∈ extra, IsWord kind := by
    rintro kind rfl
    rcases extraLabel_eq_ok_iff.mp hextra with ⟨-, hnone⟩ | ⟨-, hword, hsome⟩
    · exact nomatch hnone
    · rw [Option.some.inj hsome]
      exact isIdentifier_iff.mp hword
  have hall := h.ensureAll hends
  rw [write_eq]
  refine hall.put fun l hl => ?_
  rw [Dict.mem_keys_iff, labels_updated] at hl
  obtain ⟨u, hu⟩ := Option.isSome_iff_exists.mp hl
  rcases Dict.mem_or_of_get?_insertMany hu with hnew | hold
  · have hlabel : l = f.label ∨ l ∈ extra := by simpa [eq_comm] using hnew
    rcases hlabel with rfl | hl
    · exact isWord_label f
    · exact hkind l hl
  · cases hnode : (g.ensureAll edges).find? f.label r.uid with
    | none => rw [hnode] at hold; exact nomatch hold
    | some node =>
      rw [hnode] at hold
      exact hall f.label r.uid node hnode l (Dict.mem_keys_iff.mpr (by rw [show node.labels.get? l = _ from hold]; rfl))

end Lettered

theorem lettered_afterAll (calls : List (Family × Record)) : (afterAll calls).Lettered := by
  induction calls using List.reverseRecOn with
  | nil => exact lettered_empty
  | append_singleton calls call ih =>
    rw [afterAll_concat, attempt]
    split
    · next g' hset => exact ih.set hset
    · exact ih

/-! ### All of it -/

/-- **A record that a graph refuses leaves no trace.**  A record is refused exactly if it has a link that its family does not
have, or a kind that is not the family's label and that is empty or has a character other than a letter or a digit.  Then the
graph is as it was, also if the record is stored step by step, and so is the store of a service.  After any requests, every
label in a graph, of a node or of the end of an edge, is made of letters and digits. -/
theorem refused_without_trace :
    (∀ (g : Graph) f r, (∃ e, g.set f r = .error e) ↔ (∃ name ∈ r.links.keys, ∀ l ∈ f.links, l.name ≠ name) ∨
      (r.kind ≠ f.label ∧ (r.kind = "" ∨ ∃ c ∈ r.kind.toList, ¬ IsWordChar c))) ∧
    (∀ (g : Graph) f r e, g.set f r = .error e → (setSteps f r).run g = (.error e, g)) ∧
    (∀ (g : Graph) f r g', g.set f r = .ok g' → (setSteps f r).run g = (.ok (), g')) ∧
    (∀ (s : Service) f r e, (s.set f r).1 = .error e → (s.set f r).2.store = s.store) ∧
    ∀ requests g, (Store.graph .empty).after requests = .graph g → ∀ label uid node, g.find? label uid = some node →
      IsWord label ∧ (∀ l ∈ node.labels.keys, IsWord l) ∧
        ∀ relationship ref, node.edges.get? relationship = some ref → IsWord ref.label := by
  refine ⟨?_, ?_, ?_, ?_, ?_⟩
  · intro g f r
    have hword : ¬ IsWord r.kind ↔ r.kind = "" ∨ ∃ c ∈ r.kind.toList, ¬ IsWordChar c := by
      rw [IsWord, not_and_or, not_not]
      push Not
      exact Iff.rfl
    rw [exists_error_iff, hword]
  · intro g f r e h
    rw [run_setSteps, h]
  · intro g f r g' h
    rw [run_setSteps, h]
  · intro s f r e h
    rcases s.set_cases f r with ⟨_, s', hset, hstore⟩ | ⟨s', hset, -⟩
    · rw [hset]
      exact hstore
    · rw [hset] at h
      exact nomatch h
  · intro requests g hg label uid node hnode
    obtain ⟨calls, hcalls, -⟩ := Store.exists_calls_of_after requests
    obtain rfl : g = afterAll calls := Store.graph.inj (hg.symm.trans hcalls)
    obtain ⟨f, rfl, hfits⟩ := sound_afterAll calls label uid node hnode
    refine ⟨isWord_label f, lettered_afterAll calls f.label uid node hnode, fun relationship ref href => ?_⟩
    obtain ⟨l, -, -, hlabel, -⟩ := hfits.edges relationship ref href
    rw [hlabel]
    exact isWord_label l.target

/-- An event with a link that it may have, and with a kind that no label may be. -/
def misnamedEvent : Record := { eventOf .failedToPull with kind := "Failed-To-Pull" }

/-- It leaves no stub of the instance that it links to; the labels of an event that is named well are words. -/
theorem refused_misnamedEvent :
    (setSteps .event misnamedEvent).run .empty = (.error (.invalidIdentifier "Failed-To-Pull"), .empty) ∧
    ∃ g, (Store.graph .empty).after [.set .event misnamedEvent, .set .event (eventOf .failedToPull)] = .graph g ∧
      ∀ node, g.find? "Event" "kubernetes/e1" = some node → ∀ l ∈ node.labels.keys, IsWord l := by
  obtain ⟨-, hrefused, -, -, hlabels⟩ := refused_without_trace
  refine ⟨hrefused .empty .event misnamedEvent _ (by decide +kernel), ?_⟩
  obtain ⟨calls, hcalls, -⟩ := Store.exists_calls_of_after [.set .event misnamedEvent, .set .event (eventOf .failedToPull)]
  exact ⟨_, hcalls, fun node hnode => (hlabels _ _ hcalls _ _ node hnode).2.1⟩

end Graph

end FleetAtlas
