import FleetAtlas.Proofs.Dictionary
import FleetAtlas.Storage.Documents

/-!
# Laws of the document model

* `Record.ofDocument_toDocument`: a record reads back from its document;
* `Documents.Filed`: every document is that of a record, under its uid; `Filed.set`: storing records keeps this;
* `Documents.get_set`: what a record changes; `Filed.get_eq`, `Filed.mem_list_iff`: look-ups and lists show the documents,
  which `Filed.sorted_list` puts in the order of the uids.
-/

namespace FleetAtlas

theorem Family.collection_inj {f g : Family} (h : f.collection = g.collection) : f = g := by
  have key : ∀ f : Family, Family.all.find? (fun g => g.collection = f.collection) = some f := by
    intro f; cases f <;> decide
  have e := key f
  rw [h, key g] at e
  exact (Option.some.inj e).symm

/-! ### Actions on lists -/

theorem mapM_cons_ok {ε α β : Type} {act : α → Except ε β} {x : α} {xs : List α} {ys : List β}
    (h : (x :: xs).mapM act = .ok ys) : ∃ z zs, act x = .ok z ∧ xs.mapM act = .ok zs ∧ ys = z :: zs := by
  rw [List.mapM_cons] at h
  cases hx : act x with
  | error e => simp [hx, bind, Except.bind] at h
  | ok z =>
    cases hxs : xs.mapM act with
    | error e => simp [hx, hxs, bind, Except.bind] at h
    | ok zs =>
      obtain rfl : z :: zs = ys := by simpa [hx, hxs, bind, Except.bind, pure, Except.pure] using h
      exact ⟨z, zs, rfl, rfl, rfl⟩

/-- The results of successful actions. -/
theorem mem_of_mapM_ok {ε α β : Type} {act : α → Except ε β} {xs : List α} {ys : List β} (h : xs.mapM act = .ok ys)
    (y : β) : y ∈ ys ↔ ∃ x ∈ xs, act x = .ok y := by
  induction xs generalizing ys with
  | nil =>
    obtain rfl : [] = ys := Except.ok.inj h
    simp
  | cons x xs ih =>
    obtain ⟨z, zs, hx, hxs, rfl⟩ := mapM_cons_ok h
    simp [hx, ih hxs, eq_comm]

/-- Each of them succeeds. -/
theorem exists_ok_of_mapM_ok {ε α β : Type} {act : α → Except ε β} {xs : List α} {ys : List β}
    (h : xs.mapM act = .ok ys) : ∀ x ∈ xs, ∃ y, act x = .ok y := by
  induction xs generalizing ys with
  | nil => exact nofun
  | cons x xs ih =>
    obtain ⟨z, zs, hx, hxs, rfl⟩ := mapM_cons_ok h
    exact List.forall_mem_cons.mpr ⟨⟨z, hx⟩, ih hxs⟩

theorem exists_mapM_ok {ε α β : Type} {act : α → Except ε β} {xs : List α} (h : ∀ x ∈ xs, ∃ y, act x = .ok y) :
    ∃ ys, xs.mapM act = .ok ys := by
  induction xs with
  | nil => exact ⟨[], rfl⟩
  | cons x xs ih =>
    obtain ⟨y, hy⟩ := h x List.mem_cons_self
    obtain ⟨ys, hys⟩ := ih fun x hx => h x (.tail _ hx)
    exact ⟨y :: ys, by rw [List.mapM_cons, hy, hys]; rfl⟩

theorem mapM_map_eq_ok {ε α β γ : Type} {act : β → Except ε γ} {f : α → β} {g : α → γ} (h : ∀ x, act (f x) = .ok (g x))
    (xs : List α) : (xs.map f).mapM act = .ok (xs.map g) := by
  induction xs with
  | nil => rfl
  | cons x xs ih =>
    rw [List.map_cons, List.mapM_cons, h, ih]
    rfl

/-- What holds of any two arguments in order holds of the results. -/
theorem pairwise_of_mapM_ok {ε α β : Type} {act : α → Except ε β} {R : α → α → Prop} {S : β → β → Prop}
    (h : ∀ {x x' y y'}, R x x' → act x = .ok y → act x' = .ok y' → S y y') {xs : List α} {ys : List β}
    (hxs : xs.Pairwise R) (hact : xs.mapM act = .ok ys) : ys.Pairwise S := by
  induction xs generalizing ys with
  | nil =>
    obtain rfl : [] = ys := Except.ok.inj hact
    exact .nil
  | cons x xs ih =>
    obtain ⟨y, ys, hx, hrest, rfl⟩ := mapM_cons_ok hact
    obtain ⟨hfirst, hxs⟩ := List.pairwise_cons.mp hxs
    refine List.pairwise_cons.mpr ⟨fun y' hy' => ?_, ih hxs hrest⟩
    obtain ⟨x', hx', hact'⟩ := (mem_of_mapM_ok hrest y').mp hy'
    exact h (hfirst x' hx') hx hact'

/-! ### Documents of records -/

theorem entries?_linksJson (links : Dict String String) :
    Json.entries? Json.str? (Record.linksJson links) = some links := by
  have hread : ∀ l : List (String × String), (l.map fun e => (e.1, Json.str e.2)).mapM
      (fun e => (Json.str? e.2).map fun v => (e.1, v)) = some l := by
    intro l
    induction l with
    | nil => rfl
    | cons e l ih =>
      rw [List.map_cons, List.mapM_cons, ih]
      rfl
  show Option.map Dict.ofList ((links.toList.map fun e => (e.1, Json.str e.2)).mapM _) = some links
  rw [hread, Option.map_some, Dict.ofList_toList]

/-- **A record reads back from its document.** -/
theorem Record.ofDocument_toDocument (r : Record) : ofDocument r.toDocument = .ok r := by
  have h : ofDocument? r.toDocument = some r := by
    simp [ofDocument?, toDocument, Json.fieldsOf?, Json.required?, Json.defaulted?, Json.lookup, Json.str?, Json.dict?,
      Json.ofDict, entries?_linksJson, Dict.ofList_toList]
  rw [ofDocument, h]

namespace Documents

/-- A document is selected by the properties of its record. -/
theorem admits_toDocument (s : Selection) (r : Record) : admits s r.toDocument = s.admits r.properties := by
  have e : Json.field? "properties" r.toDocument = some (.obj r.properties.toList) := by
    simp [Record.toDocument, Json.field?, Json.lookup, Json.ofDict]
  unfold admits Selection.admits
  rw [e]
  exact congrArg s.holds (funext fun name => Json.lookup_toList r.properties name)

/-! ### Stored records -/

theorem find?_set (d : Documents) (f g : Family) (r : Record) (uid : String) :
    (d.set f r).find? g.collection uid =
      if g = f ∧ uid = r.uid then some r.toDocument else d.find? g.collection uid := by
  have hcollection : (d.set f r).collection g.collection =
      if g = f then (d.collection f.collection).insert r.uid r.toDocument else d.collection g.collection := by
    unfold set upsert collection Dict.getD
    by_cases h : g = f
    · rw [if_pos h, h, Dict.get?_insert_self, Option.getD_some]
    · rw [if_neg h, Dict.get?_insert_of_ne _ fun e => h (Family.collection_inj e)]
  unfold find?
  rw [hcollection]
  by_cases h : g = f
  · rw [if_pos h, Dict.get?_insert, h]
    simp
  · rw [if_neg h, if_neg fun e => h e.1]

/-- **What storing a record changes**: what is read under its uid. -/
theorem get_set (d : Documents) (f g : Family) (r : Record) (uid : String) :
    (d.set f r).get g uid = if g = f ∧ uid = r.uid then .ok (some r) else d.get g uid := by
  unfold get
  rw [find?_set]
  by_cases h : g = f ∧ uid = r.uid
  · rw [if_pos h, if_pos h]
    simp only [Record.ofDocument_toDocument]
    rfl
  · rw [if_neg h, if_neg h]

/-- Every document is the document of a record, under its uid. -/
def Filed (d : Documents) : Prop :=
  ∀ (f : Family) (uid : String) (document : Json), d.find? f.collection uid = some document →
    ∃ r : Record, r.uid = uid ∧ document = r.toDocument

namespace Filed

theorem empty : Documents.empty.Filed := fun _ _ _ => nofun

theorem set {d : Documents} (h : d.Filed) (f : Family) (r : Record) : (d.set f r).Filed := by
  intro g uid document hd
  rw [find?_set] at hd
  split at hd
  · next e => exact ⟨r, e.2.symm, (Option.some.inj hd).symm⟩
  · exact h g uid document hd

variable {d : Documents} (h : d.Filed) {f : Family}

include h

/-- A look-up shows the record of the document under the uid. -/
theorem get_eq (uid : String) : ∃ answer, d.get f uid = .ok answer ∧ ∀ r ∈ answer, r.uid = uid := by
  unfold get
  cases hd : d.find? f.collection uid with
  | none => exact ⟨none, rfl, nofun⟩
  | some document =>
    obtain ⟨r, hr, rfl⟩ := h f uid document hd
    refine ⟨some r, by simp only [Record.ofDocument_toDocument]; rfl, fun r' hr' => ?_⟩
    rw [← Option.some.inj hr', hr]

theorem get_eq_some_iff {uid : String} {r : Record} :
    d.get f uid = .ok (some r) ↔ r.uid = uid ∧ d.find? f.collection uid = some r.toDocument := by
  unfold get
  constructor
  · intro hget
    cases hd : d.find? f.collection uid with
    | none => rw [hd] at hget; exact nomatch hget
    | some document =>
      obtain ⟨r', hr', rfl⟩ := h f uid document hd
      simp only [hd, Record.ofDocument_toDocument] at hget
      obtain rfl : r' = r := Option.some.inj (Except.ok.inj hget)
      exact ⟨hr', rfl⟩
  · rintro ⟨-, hd⟩
    simp only [hd, Record.ofDocument_toDocument]
    rfl

theorem mem_findAll_iff {s : Selection} {document : Json} :
    document ∈ d.findAll f.collection s ↔ ∃ r : Record, document = r.toDocument ∧ d.get f r.uid = .ok (some r) ∧
      s.admits r.properties = true := by
  unfold findAll
  rw [List.mem_filter, Dict.mem_values_iff]
  constructor
  · rintro ⟨⟨uid, hd⟩, hs⟩
    obtain ⟨r, rfl, rfl⟩ := h f uid document hd
    exact ⟨r, rfl, h.get_eq_some_iff.mpr ⟨rfl, hd⟩, by rw [← admits_toDocument]; exact hs⟩
  · rintro ⟨r, rfl, hget, hs⟩
    exact ⟨⟨r.uid, (h.get_eq_some_iff.mp hget).2⟩, by rw [admits_toDocument]; exact hs⟩

/-- **A list shows the selected records**, those that look-ups show. -/
theorem exists_list (s : Selection) : ∃ rs, d.list f s = .ok rs ∧ ∀ r : Record,
    r ∈ rs ↔ d.get f r.uid = .ok (some r) ∧ s.admits r.properties = true := by
  have hok : ∀ document ∈ d.findAll f.collection s, ∃ r, Record.ofDocument document = .ok r := by
    intro document hmem
    obtain ⟨r, rfl, -⟩ := h.mem_findAll_iff.mp hmem
    exact ⟨r, r.ofDocument_toDocument⟩
  obtain ⟨rs, hrs⟩ := exists_mapM_ok hok
  refine ⟨rs, hrs, fun r => ?_⟩
  rw [mem_of_mapM_ok hrs]
  constructor
  · rintro ⟨document, hmem, hr⟩
    obtain ⟨r', rfl, hget⟩ := h.mem_findAll_iff.mp hmem
    rw [Record.ofDocument_toDocument] at hr
    exact Except.ok.inj hr ▸ hget
  · exact fun hget => ⟨r.toDocument, h.mem_findAll_iff.mpr ⟨r, rfl, hget⟩, r.ofDocument_toDocument⟩

/-- **A list is in the order of the uids.** -/
theorem sorted_list {s : Selection} {rs : List Record}
    (hlist : d.list f s = .ok rs) : rs.Pairwise fun r r' => r.uid < r'.uid := by
  have hread : ∀ {uid document r}, (uid, document) ∈ (d.collection f.collection).toList →
      Record.ofDocument document = .ok r → r.uid = uid := by
    intro uid document r hmem hr
    obtain ⟨r', rfl, rfl⟩ := h f uid document (Dict.mem_toList_iff.mp hmem)
    rw [Record.ofDocument_toDocument] at hr
    rw [Except.ok.inj hr]
  have hdocuments : (d.collection f.collection).values.Pairwise fun a b =>
      ∀ r r', Record.ofDocument a = .ok r → Record.ofDocument b = .ok r' → r.uid < r'.uid := by
    refine List.pairwise_map.mpr ((d.collection f.collection).sorted.imp_of_mem ?_)
    intro a b ha hb hlt r r' hr hr'
    rw [hread ha hr, hread hb hr']
    exact hlt
  exact pairwise_of_mapM_ok (fun h hr hr' => h _ _ hr hr') (hdocuments.filter _) hlist

end Filed

end Documents

end FleetAtlas
