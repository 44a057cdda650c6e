import FleetAtlas.Cluster.Read
import FleetAtlas.Proofs.Fingerprint.Stream
import FleetAtlas.Proofs.Text.ByteOrder
import Mathlib.Data.List.Forall2

/-!
# The order of entries

Sources are given as lists of entries, in any order. Sorting by key is a canonical form of such a list, the keys being distinct,
and it sorts by the bytes of the keys as well.

* `Given`: a source as it is given, with parts that may be absent; `Given.Reordered`: the same entries in another order;
* `Dict.ofList_eq_of_perm`, `Given.Reordered.bytes_eq`: they are the same map, and contribute the same bytes;
* `Arranged`: the entries in the order of the bytes of their keys; `Dict.arranged_toList`: so a map has them;
* `Given.Part`, `Given.exists_of_configMap`: what is read from JSON is given like this;
* `fingerprint_order_free`: **the order of entries does not show in a fingerprint**, and a config map contributes its entries in
  the order of their keys, first those of text.
-/

namespace FleetAtlas

variable {α : Type}

/-! ### Entries in another order -/

/-- No key is there twice. -/
def DistinctKeys (l : List (String × α)) : Prop := (l.map Prod.fst).Nodup

instance (l : List (String × α)) : Decidable (DistinctKeys l) := inferInstanceAs (Decidable (l.map Prod.fst).Nodup)

/-- **The map of a list** does not depend on the order of the list. -/
theorem Dict.ofList_eq_of_perm {l l' : List (String × α)} (hl : DistinctKeys l) (h : l.Perm l') :
    Dict.ofList l = Dict.ofList l' := by
  have hl' : DistinctKeys l' := (h.map Prod.fst).nodup_iff.mp hl
  refine Dict.ext_get? fun k => Option.ext fun v => ?_
  rw [Dict.get?_ofList hl, Dict.get?_ofList hl', h.mem_iff]

/-- A source as it is given: entries, or the parts of a config map or a secret, each of which may be absent. -/
inductive Given where
  | entries (l : List (String × List UInt8))
  | configMap (m : Metadata) (data : Option (List (String × String))) (binaryData : Option (List (String × List UInt8)))
  | secret (m : Metadata) (data : Option (List (String × List UInt8)))

namespace Given

/-- The map of the entries of a part, empty if the part is absent. -/
def partMap (part : Option (List (String × α))) : Dict String α := (part.map Dict.ofList).getD ∅

/-- The source that is given. -/
def source : Given → Source
  | entries l => .entries l
  | configMap m data binaryData => .configMap ⟨m, partMap data, partMap binaryData⟩
  | secret m data => .secret ⟨m, partMap data⟩

/-- The same entries in another order, with distinct keys. -/
def ReorderedEntries (l l' : List (String × α)) : Prop := DistinctKeys l ∧ l.Perm l'

/-- The same source, the entries of each part in another order. -/
inductive Reordered : Given → Given → Prop
  | entries {l l' : List (String × List UInt8)} : ReorderedEntries l l' → Reordered (entries l) (entries l')
  | configMap {m : Metadata} {data data' : Option (List (String × String))}
      {binaryData binaryData' : Option (List (String × List UInt8))} : Option.Rel ReorderedEntries data data' →
      Option.Rel ReorderedEntries binaryData binaryData' →
      Reordered (configMap m data binaryData) (configMap m data' binaryData')
  | secret {m : Metadata} {data data' : Option (List (String × List UInt8))} : Option.Rel ReorderedEntries data data' →
      Reordered (secret m data) (secret m data')

theorem partMap_eq_of_rel {part part' : Option (List (String × α))} (h : Option.Rel ReorderedEntries part part') :
    partMap part = partMap part' := by
  cases h with
  | none => rfl
  | some h => exact Dict.ofList_eq_of_perm h.1 h.2

/-- **The same entries in another order** contribute the same bytes. -/
theorem Reordered.bytes_eq {g g' : Given} (h : Reordered g g') : g.source.bytes = g'.source.bytes := by
  cases h with
  | @entries l l' h =>
    have hl' : DistinctKeys l' := (h.2.map Prod.fst).nodup_iff.mp h.1
    show entriesBytes l = entriesBytes l'
    rw [entriesBytes, entriesBytes, sortByKey_eq_toList h.1, sortByKey_eq_toList hl', Dict.ofList_eq_of_perm h.1 h.2]
  | configMap hdata hbinary => rw [source, source, partMap_eq_of_rel hdata, partMap_eq_of_rel hbinary]
  | secret hdata => rw [source, source, partMap_eq_of_rel hdata]

theorem stream_eq_of_reordered {given given' : List Given} (h : List.Forall₂ Reordered given given') :
    stream (given.map source) = stream (given'.map source) := by
  induction h with
  | nil => rfl
  | cons hg _ ih =>
    simp only [stream, List.map_cons, List.flatMap_cons] at ih ⊢
    rw [hg.bytes_eq, ih]

end Given

/-! ### The bytes of a config map -/

/-- The entries of a list in the order of the bytes of their keys. -/
structure Arranged (l sorted : List (String × α)) : Prop where
  perm : sorted.Perm l
  sorted : sorted.Pairwise fun a b => utf8 a.1 < utf8 b.1

/-- **A map has its entries** in the order of the bytes of their keys. -/
theorem Dict.arranged_toList {l : List (String × α)} (hl : DistinctKeys l) : Arranged l (Dict.ofList l).toList where
  perm := by
    rw [← sortByKey_eq_toList hl]
    exact List.mergeSort_perm l _
  sorted := (Dict.ofList l).sorted.imp fun hab => utf8_lt_iff.mpr hab

namespace Given

/-- A part that is absent has no entries, as an empty one. -/
theorem arranged_partMap {part : Option (List (String × α))} (h : ∀ l ∈ part, DistinctKeys l) :
    Arranged (part.getD []) (partMap part).toList := by
  cases part with
  | none => exact ⟨.refl _, .nil⟩
  | some l => exact Dict.arranged_toList (h l rfl)

theorem partMap_eq_empty {part : Option (List (String × α))} (h : part.getD [] = []) : partMap part = ∅ := by
  cases part with
  | none => rfl
  | some l =>
    obtain rfl : l = [] := h
    rfl

theorem entriesBytes_toList (d : Dict String (List UInt8)) :
    entriesBytes d.toList = d.toList.flatMap fun e => utf8 e.1 ++ e.2 := by
  rw [entriesBytes, sortByKey_eq_toList d.nodup_keys, Dict.ofList_toList]

theorem bytes_configMap (m : Metadata) (data : Option (List (String × String)))
    (binaryData : Option (List (String × List UInt8))) : (configMap m data binaryData).source.bytes =
      ((partMap data).toList.flatMap fun e => utf8 e.1 ++ utf8 e.2) ++
        (partMap binaryData).toList.flatMap fun e => utf8 e.1 ++ e.2 := by
  have hdata : ((partMap data).mapValues fun _ text => utf8 text).toList =
      (partMap data).toList.map fun e => (e.1, utf8 e.2) := rfl
  rw [source, Source.bytes, entriesBytes_toList, entriesBytes_toList, hdata, List.flatMap_map]

/-! ### Parts of JSON -/

/-- The entries of a part of an object, in the order they have there; a part that is missing or `null` is absent. -/
def Part (fields : List (String × Json)) (name : String) (read : Json → Option α) :
    Option (List (String × α)) → Prop
  | none => Json.lookup name fields = none ∨ Json.lookup name fields = some .null
  | some l => ∃ items, Json.lookup name fields = some (.obj items) ∧
      items.mapM (fun e => (read e.2).map fun v => (e.1, v)) = some l

/-- A map that is read is that of the entries of a part. -/
theorem exists_of_map? {fields : List (String × Json)} {name : String} {read : Json → Option α} {d : Dict String α}
    (h : (Json.obj fields).map? name read = some d) : ∃ part, Part fields name read part ∧ d = partMap part := by
  obtain ⟨found, hfound, rfl⟩ := Option.map_eq_some_iff.mp h
  rw [Json.part?, Json.optional?.eq_def] at hfound
  split at hfound
  · next hlookup =>
    obtain rfl := Option.some.inj hfound
    exact ⟨none, .inl hlookup, rfl⟩
  · next hlookup =>
    obtain rfl := Option.some.inj hfound
    exact ⟨none, .inr hlookup, rfl⟩
  · next j _ hlookup =>
    obtain ⟨d, hd, rfl⟩ := Option.map_eq_some_iff.mp hfound
    cases j with
    | obj items =>
      obtain ⟨l, hl, rfl⟩ := Option.map_eq_some_iff.mp hd
      exact ⟨some l, ⟨items, hlookup, hl⟩, rfl⟩
    | _ => exact nomatch hd

theorem exists_of_configMap {fields : List (String × Json)} {c : ConfigMap}
    (h : ConfigMap.ofJson? (.obj fields) = some c) : ∃ data binaryData, Part fields "data" Json.str? data ∧
      Part fields "binaryData" Json.bytes? binaryData ∧
      Source.configMap c = (configMap c.metadata data binaryData).source := by
  simp only [ConfigMap.ofJson?, Option.bind_eq_bind, Option.bind_eq_some_iff, Option.pure_def, Option.some.injEq] at h
  obtain ⟨m, -, data, hdata, binaryData, hbinary, rfl⟩ := h
  obtain ⟨data, hpart, rfl⟩ := exists_of_map? hdata
  obtain ⟨binaryData, hbinaryPart, rfl⟩ := exists_of_map? hbinary
  exact ⟨data, binaryData, hpart, hbinaryPart, rfl⟩

theorem exists_of_secret {fields : List (String × Json)} {s : Secret} (h : Secret.ofJson? (.obj fields) = some s) :
    ∃ data, Part fields "data" Json.bytes? data ∧ Source.secret s = (secret s.metadata data).source := by
  simp only [Secret.ofJson?, Option.bind_eq_bind, Option.bind_eq_some_iff, Option.pure_def, Option.some.injEq] at h
  obtain ⟨m, -, data, hdata, rfl⟩ := h
  obtain ⟨data, hpart, rfl⟩ := exists_of_map? hdata
  exact ⟨data, hpart, rfl⟩

end Given

/-! ### Fingerprints -/

/-- **The order of entries does not show in a fingerprint.**  Sources whose entries are given in another order, source by
source, have the same one. A config map contributes its entries in the order of the bytes of their keys, those of text before
the others; a part that is absent or empty contributes nothing, and that is how parts are read from JSON. -/
theorem fingerprint_order_free :
    (∀ given given' : List Given, List.Forall₂ Given.Reordered given given' →
      fingerprint (given.map Given.source) = fingerprint (given'.map Given.source)) ∧
    (∀ m data binaryData, (∀ l ∈ data, DistinctKeys l) → (∀ l ∈ binaryData, DistinctKeys l) →
      ∃ d b, Arranged (data.getD []) d ∧ Arranged (binaryData.getD []) b ∧
        (Given.configMap m data binaryData).source.bytes =
          (d.flatMap fun e => utf8 e.1 ++ utf8 e.2) ++ b.flatMap fun e => utf8 e.1 ++ e.2) ∧
    (∀ m data binaryData,
      (Given.configMap m data binaryData).source.bytes =
        (Given.configMap m data none).source.bytes ++ (Given.configMap m none binaryData).source.bytes ∧
      (data.getD [] = [] → (Given.configMap m data none).source.bytes = []) ∧
      (binaryData.getD [] = [] → (Given.configMap m none binaryData).source.bytes = [] ∧
        (Given.secret m binaryData).source.bytes = [])) ∧
    (∀ fields c, ConfigMap.ofJson? (.obj fields) = some c → ∃ data binaryData,
      Given.Part fields "data" Json.str? data ∧ Given.Part fields "binaryData" Json.bytes? binaryData ∧
        Source.configMap c = (Given.configMap c.metadata data binaryData).source) ∧
    ∀ fields s, Secret.ofJson? (.obj fields) = some s → ∃ data, Given.Part fields "data" Json.bytes? data ∧
      Source.secret s = (Given.secret s.metadata data).source := by
  refine ⟨fun given given' h => ?_, fun m data binaryData hdata hbinary => ?_, fun m data binaryData => ?_,
    fun _ _ => Given.exists_of_configMap, fun _ _ => Given.exists_of_secret⟩
  · rw [fingerprint, fingerprint, Given.stream_eq_of_reordered h]
  · exact ⟨_, _, Given.arranged_partMap hdata, Given.arranged_partMap hbinary, Given.bytes_configMap m data binaryData⟩
  · have hnone {β : Type} : (Given.partMap (none : Option (List (String × β)))).toList = [] := rfl
    have hempty {β : Type} {part : Option (List (String × β))} (h : part.getD [] = []) :
        (Given.partMap part).toList = [] := by
      rw [Given.partMap_eq_empty h]
      rfl
    simp only [Given.bytes_configMap, hnone, List.flatMap_nil, List.append_nil, List.nil_append, true_and]
    refine ⟨fun h => ?_, fun h => ⟨?_, ?_⟩⟩
    · rw [hempty h, List.flatMap_nil]
    · rw [hempty h, List.flatMap_nil]
    · rw [Given.source, Source.bytes, Given.entriesBytes_toList, hempty h, List.flatMap_nil]

/-- The variables of a microservice. -/
def shopVariables (data : List (String × String)) : Given := .configMap .empty (some data) none

/-- Keys of several scripts, some of them beyond the first 65536 characters. -/
theorem order_free_scripts :
    fingerprint ([.entries [("ω", [2]), ("a", [1])], shopVariables [("𝟘", "x"), ("ω", "y"), ("b", "z")]].map Given.source) =
      fingerprint ([.entries [("a", [1]), ("ω", [2])], shopVariables [("b", "z"), ("ω", "y"), ("𝟘", "x")]].map Given.source) ∧
    (shopVariables []).source.bytes = [] ∧
    ∃ d b, Arranged [("ω", "y"), ("b", "z")] d ∧ Arranged [] b ∧
      (shopVariables [("ω", "y"), ("b", "z")]).source.bytes =
        (d.flatMap fun e => utf8 e.1 ++ utf8 e.2) ++ b.flatMap fun e => utf8 e.1 ++ e.2 := by
  obtain ⟨hfree, harranged, hparts, -, -⟩ := fingerprint_order_free
  refine ⟨hfree _ _ (.cons (.entries ⟨by decide, by decide⟩) (.cons (.configMap ?_ .none) .nil)), ?_, ?_⟩
  · exact .some ⟨by decide, by decide⟩
  · exact (hparts .empty (some []) none).2.1 rfl
  · refine harranged .empty (some [("ω", "y"), ("b", "z")]) none ?_ nofun
    rintro l ⟨⟩
    decide

end FleetAtlas
