import FleetAtlas.Json.Basic

/-!
# Look-ups in maps and in JSON objects

* `Dict.get?_filter`, `Dict.get?_mapValues`, `Dict.get?_filterMap`, `Dict.mem_keys_iff`, `Dict.mem_values_iff`: the look-ups
  of the other operations; `Dict.find?_keys_eq_some_iff`: the first key that passes a test is the least one;
* `Dict.get?_ofList`: a list of entries with distinct keys is the map of these entries, so `Dict.ofList_toList`;
* `Json.lookup_toList`: a field of the object of a map is an entry of the map.
-/

namespace FleetAtlas

namespace Dict

variable {κ α β : Type} [LT κ] [LinearKey κ]

theorem nodup_keys (d : Dict κ α) : (d.toList.map Prod.fst).Nodup :=
  List.pairwise_map.mpr (d.sorted.imp fun {a b} h (e : a.1 = b.1) => LinearKey.irrefl b.1 (e ▸ h))

variable [DecidableLT κ]

theorem mem_values_iff {d : Dict κ α} {v : α} : v ∈ d.values ↔ ∃ k, d.get? k = some v := by
  unfold values
  constructor
  · intro h
    obtain ⟨⟨k, w⟩, he, rfl⟩ := List.mem_map.mp h
    exact ⟨k, mem_toList_iff.mp he⟩
  · rintro ⟨k, h⟩
    exact List.mem_map.mpr ⟨(k, v), mem_toList_iff.mpr h, rfl⟩

theorem get?_filter (d : Dict κ α) (p : κ → α → Bool) (k : κ) :
    (d.filter p).get? k = (d.get? k).filter (p k) := by
  refine Option.ext fun v => ?_
  rw [← mem_toList_iff, Option.filter_eq_some_iff, ← mem_toList_iff]
  exact List.mem_filter

theorem get?_mapValues (d : Dict κ α) (f : κ → α → β) (k : κ) :
    (d.mapValues f).get? k = (d.get? k).map (f k) := by
  refine Option.ext fun v => ?_
  rw [← mem_toList_iff, Option.map_eq_some_iff]
  constructor
  · intro h
    obtain ⟨⟨k', w⟩, hw, e⟩ := List.mem_map.mp h
    obtain ⟨rfl, rfl⟩ := Prod.mk.inj e
    exact ⟨w, mem_toList_iff.mp hw, rfl⟩
  · rintro ⟨w, hw, rfl⟩
    exact List.mem_map.mpr ⟨(k, w), mem_toList_iff.mpr hw, rfl⟩

theorem mem_keys_iff {d : Dict κ α} {k : κ} : k ∈ d.keys ↔ (d.get? k).isSome := by
  rw [Option.isSome_iff_exists]
  constructor
  · intro h
    obtain ⟨⟨k', v⟩, he, rfl⟩ := List.mem_map.mp h
    exact ⟨v, mem_toList_iff.mp he⟩
  · rintro ⟨v, h⟩
    exact List.mem_map.mpr ⟨(k, v), mem_toList_iff.mpr h, rfl⟩

omit [DecidableLT κ] in
/-- The first key that passes a test is the least one. -/
theorem find?_keys_eq_some_iff {d : Dict κ α} {p : κ → Bool} {k : κ} :
    d.keys.find? p = some k ↔ p k = true ∧ k ∈ d.keys ∧ ∀ k' ∈ d.keys, p k' = true → ¬ k' < k := by
  have hsorted : d.keys.Pairwise (· < ·) := List.pairwise_map.mpr (d.sorted.imp id)
  rw [List.find?_eq_some_iff_append]
  constructor
  · rintro ⟨hp, before, after, hkeys, hbefore⟩
    refine ⟨hp, by simp [hkeys], fun k' hk' hp' hlt => ?_⟩
    rw [hkeys, List.pairwise_append, List.pairwise_cons] at hsorted
    rw [hkeys, List.mem_append, List.mem_cons] at hk'
    rcases hk' with hk' | rfl | hk'
    · simpa [hp'] using hbefore k' hk'
    · exact LinearKey.irrefl k' hlt
    · exact LinearKey.irrefl k' (LinearKey.trans hlt (hsorted.2.1.1 k' hk'))
  · rintro ⟨hp, hk, hleast⟩
    obtain ⟨before, after, hkeys⟩ := List.append_of_mem hk
    refine ⟨hp, before, after, hkeys, fun k' hk' => ?_⟩
    rw [hkeys, List.pairwise_append] at hsorted
    have hlt : k' < k := hsorted.2.2 k' hk' k List.mem_cons_self
    have hmem : k' ∈ d.keys := by
      rw [hkeys]
      exact List.mem_append_left _ hk'
    refine Decidable.byContradiction fun hpass => hleast k' hmem ?_ hlt
    simpa using hpass

/-- Changes the values, leaving out those that come to nothing. -/
def filterMap (φ : κ → α → Option β) (d : Dict κ α) : Dict κ β where
  entries := d.entries.filterMap fun e => (φ e.1 e.2).map fun v => (e.1, v)
  sorted := by
    refine List.Pairwise.filterMap _ ?_ d.sorted
    intro a a' hlt b hb b' hb'
    obtain ⟨v, -, rfl⟩ := Option.map_eq_some_iff.mp hb
    obtain ⟨v', -, rfl⟩ := Option.map_eq_some_iff.mp hb'
    exact hlt

theorem get?_filterMap (d : Dict κ α) (φ : κ → α → Option β) (k : κ) :
    (d.filterMap φ).get? k = (d.get? k).bind (φ k) := by
  refine Option.ext fun v => ?_
  rw [← mem_toList_iff, Option.bind_eq_some_iff]
  show (k, v) ∈ d.entries.filterMap _ ↔ _
  rw [List.mem_filterMap]
  constructor
  · rintro ⟨⟨k', w⟩, hw, e⟩
    obtain ⟨v', hv', e⟩ := Option.map_eq_some_iff.mp e
    obtain ⟨rfl, rfl⟩ := Prod.mk.inj e
    exact ⟨w, mem_toList_iff.mp hw, hv'⟩
  · rintro ⟨w, hw, hv⟩
    exact ⟨(k, w), mem_toList_iff.mpr hw, Option.map_eq_some_iff.mpr ⟨v, hv, rfl⟩⟩

omit [LinearKey κ] [DecidableLT κ] in
theorem values_mapValues (d : Dict κ α) (f : α → β) : (d.mapValues fun _ v => f v).values = d.values.map f := by
  unfold values mapValues
  rw [List.map_map, List.map_map]
  rfl

omit [LinearKey κ] [DecidableLT κ] in
theorem values_filter (d : Dict κ α) (p : α → Bool) : (d.filter fun _ v => p v).values = d.values.filter p := by
  unfold values filter
  rw [List.filter_map]
  rfl

omit [LinearKey κ] [DecidableLT κ] in
theorem values_filterMap (d : Dict κ α) (φ : κ → α → Option β) :
    (d.filterMap φ).values = d.toList.filterMap fun e => φ e.1 e.2 := by
  unfold values filterMap
  rw [List.map_filterMap]
  simp [Option.map_map, Function.comp_def, toList]

omit [LinearKey κ] [DecidableLT κ] in
theorem isEmpty_iff {d : Dict κ α} : d.isEmpty = true ↔ d = ∅ := by
  unfold isEmpty
  rw [List.isEmpty_iff]
  exact ⟨fun h => ext_entries h, fun h => congrArg entries h⟩

omit [LinearKey κ] in
theorem ne_empty_of_get? {d : Dict κ α} {k : κ} {v : α} (h : d.get? k = some v) : d.isEmpty = false := by
  refine Bool.eq_false_iff.mpr fun he => ?_
  rw [isEmpty_iff.mp he] at h
  exact nomatch h

/-- What is there already changes nothing. -/
theorem insert_of_get? {d : Dict κ α} {k : κ} {v : α} (h : d.get? k = some v) : d.insert k v = d := by
  refine ext_get? fun k' => ?_
  by_cases hk : k' = k
  · rw [hk, get?_insert_self, h]
  · rw [get?_insert_of_ne d hk]

/-! ### Maps of lists -/

theorem get?_insertMany_of_notMem (l : List (κ × α)) (d : Dict κ α) {k : κ} (h : k ∉ l.map Prod.fst) :
    (d.insertMany l).get? k = d.get? k := by
  induction l generalizing d with
  | nil => rfl
  | cons e l ih =>
    rw [List.map_cons, List.mem_cons, not_or] at h
    exact (ih (d.insert e.1 e.2) h.2).trans (get?_insert_of_ne d h.1 e.2)

/-- **Entries with distinct keys** are all in the map that they are put into. -/
theorem get?_insertMany_of_mem {l : List (κ × α)} (hl : (l.map Prod.fst).Nodup) (d : Dict κ α) {k : κ} {v : α}
    (h : (k, v) ∈ l) : (d.insertMany l).get? k = some v := by
  induction l generalizing d with
  | nil => exact nomatch h
  | cons e l ih =>
    rw [List.map_cons, List.nodup_cons] at hl
    rcases List.mem_cons.mp h with rfl | h
    · exact (get?_insertMany_of_notMem l _ hl.1).trans (get?_insert_self d k v)
    · exact ih hl.2 _ h

/-- What is found was put in, or it was there. -/
theorem mem_or_of_get?_insertMany {l : List (κ × α)} {d : Dict κ α} {k : κ} {v : α}
    (h : (d.insertMany l).get? k = some v) : (k, v) ∈ l ∨ d.get? k = some v := by
  induction l generalizing d with
  | nil => exact .inr h
  | cons e l ih =>
    rcases ih (d := d.insert e.1 e.2) h with hmem | hget
    · exact .inl (.tail _ hmem)
    · by_cases hk : k = e.1
      · subst hk
        rw [get?_insert_self] at hget
        obtain rfl := Option.some.inj hget
        exact .inl List.mem_cons_self
      · exact .inr ((get?_insert_of_ne d hk e.2).symm.trans hget)

/-- Entries come before what is there. -/
theorem get?_insertMany (l : List (κ × α)) (d : Dict κ α) (k : κ) :
    (d.insertMany l).get? k = ((ofList l).get? k).or (d.get? k) := by
  induction l generalizing d with
  | nil => rfl
  | cons e l ih =>
    have hone : (d.insert e.1 e.2).get? k = (((∅ : Dict κ α).insert e.1 e.2).get? k).or (d.get? k) := by
      by_cases hk : k = e.1
      · rw [hk, get?_insert_self, get?_insert_self, Option.some_or]
      · rw [get?_insert_of_ne _ hk, get?_insert_of_ne _ hk, get?_empty, Option.none_or]
    show ((d.insert e.1 e.2).insertMany l).get? k = ((((∅ : Dict κ α).insert e.1 e.2).insertMany l).get? k).or (d.get? k)
    rw [ih, ih (d := (∅ : Dict κ α).insert e.1 e.2), hone, Option.or_assoc]

/-- Entries that were put in before change nothing. -/
theorem insertMany_insertMany_self (d : Dict κ α) (l : List (κ × α)) :
    (d.insertMany l).insertMany l = d.insertMany l := by
  refine ext_get? fun k => ?_
  rw [get?_insertMany, get?_insertMany l d, ← Option.or_assoc, Option.or_self]

/-- **A list of entries with distinct keys** is the map of these entries. -/
theorem get?_ofList {l : List (κ × α)} (hl : (l.map Prod.fst).Nodup) {k : κ} {v : α} :
    (ofList l).get? k = some v ↔ (k, v) ∈ l := by
  refine ⟨fun h => ?_, get?_insertMany_of_mem hl ∅⟩
  by_cases hk : k ∈ l.map Prod.fst
  · obtain ⟨⟨k', w⟩, he, rfl⟩ := List.mem_map.mp hk
    rw [ofList, get?_insertMany_of_mem hl ∅ he] at h
    rwa [← Option.some.inj h]
  · rw [ofList, get?_insertMany_of_notMem l ∅ hk] at h
    exact nomatch h

theorem ofList_toList (d : Dict κ α) : ofList d.toList = d :=
  ext_get? fun k => Option.ext fun v => by rw [get?_ofList d.nodup_keys, mem_toList_iff]

end Dict

/-! ### Fields of objects -/

namespace Json

theorem mem_of_lookup {name : String} {j : Json} {l : List (String × Json)} (h : lookup name l = some j) :
    (name, j) ∈ l := by
  induction l with
  | nil => exact nomatch h
  | cons e l ih =>
    rw [lookup] at h
    split at h
    · next hk =>
      obtain rfl := Option.some.inj h
      exact hk ▸ List.mem_cons_self
    · exact .tail _ (ih h)

/-- A field of an object is an entry of it, the names of the fields being distinct. -/
theorem lookup_eq_some_iff {name : String} {j : Json} {l : List (String × Json)} (hl : (l.map Prod.fst).Nodup) :
    lookup name l = some j ↔ (name, j) ∈ l := by
  refine ⟨mem_of_lookup, fun h => ?_⟩
  induction l with
  | nil => exact nomatch h
  | cons e l ih =>
    rw [List.map_cons, List.nodup_cons] at hl
    rw [lookup]
    rcases List.mem_cons.mp h with rfl | h
    · exact if_pos rfl
    · rw [if_neg fun e' : e.1 = name => hl.1 (e' ▸ List.mem_map.mpr ⟨_, h, rfl⟩)]
      exact ih hl.2 h

theorem lookup_toList (d : Dict String Json) (name : String) : lookup name d.toList = d.get? name :=
  Option.ext fun j => by rw [lookup_eq_some_iff d.nodup_keys, Dict.mem_toList_iff]

/-- The map of fields with distinct names has them all. -/
theorem get?_ofList {l : List (String × Json)} (hl : (l.map Prod.fst).Nodup) (name : String) :
    (Dict.ofList l).get? name = lookup name l :=
  Option.ext fun j => by rw [Dict.get?_ofList hl, lookup_eq_some_iff hl]

end Json

end FleetAtlas
