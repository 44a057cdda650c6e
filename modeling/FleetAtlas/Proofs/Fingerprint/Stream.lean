import FleetAtlas.Handler.Pods
import FleetAtlas.Proofs.Dictionary

/-!
# What a fingerprint tells apart

The keys and values of sources follow each other in the stream with nothing in between. So a stream does not say where they
begin and end, and who knows that can read the sources back from it.

* `Framed`: an encoding that can be read back from the front of a stream, given a frame; `Framed.flatMap`: so can a list of
  such things be, given the list of their frames;
* `contents`: the maps of sources, `layout` their frame; `stream_eq_flatMap`: the stream is an encoding of the maps;
* `fingerprint_eq_iff`: the digits of a hash say what its bytes say;
* `Covered`: what the fingerprints of a microservice cover; `Covered.Cached.fingerprints_eq`: it has them if all of that is
  cached;
* `fingerprints_tell_apart`: the maps of sources are equal exactly if their streams and their layouts are;
  `exists_shared_fingerprint`: streams alone do not suffice.
-/

namespace FleetAtlas

/-! ### Framed encodings -/

/-- An encoding such that a stream and a frame say what the stream begins with, and what follows. -/
def Framed {α β γ : Type} (encode : α → List β) (frame : α → γ) : Prop :=
  ∀ ⦃a b : α⦄ ⦃x y : List β⦄, frame a = frame b → encode a ++ x = encode b ++ y → a = b ∧ x = y

namespace Framed

variable {α α' β γ γ' : Type} {encode : α → List β} {frame : α → γ}

theorem eq_of_eq (h : Framed encode frame) {a b : α} (hframe : frame a = frame b) (he : encode a = encode b) : a = b :=
  (h hframe (congrArg (fun l => l ++ []) he)).1

/-- Things of which the length is known. -/
theorem of_injective (h : Function.Injective encode) : Framed encode fun a => (encode a).length := by
  intro a b x y hlength he
  obtain ⟨hab, hxy⟩ := List.append_inj he hlength
  exact ⟨h hab, hxy⟩

theorem comp {g : α' → α} (hg : Function.Injective g) (h : Framed encode frame) :
    Framed (fun a => encode (g a)) fun a => frame (g a) := by
  intro a b x y hframe he
  obtain ⟨hab, hxy⟩ := h hframe he
  exact ⟨hg hab, hxy⟩

/-- One thing before another. -/
theorem append {encode' : α' → List β} {frame' : α' → γ'} (h : Framed encode frame) (h' : Framed encode' frame') :
    Framed (fun p : α × α' => encode p.1 ++ encode' p.2) fun p => (frame p.1, frame' p.2) := by
  rintro ⟨a, a'⟩ ⟨b, b'⟩ x y hframe he
  obtain ⟨hframe, hframe'⟩ := Prod.mk.inj hframe
  rw [List.append_assoc, List.append_assoc] at he
  obtain ⟨rfl, hrest⟩ := h hframe he
  obtain ⟨rfl, rfl⟩ := h' hframe' hrest
  exact ⟨rfl, rfl⟩

/-- **Things one after the other.** -/
theorem flatMap (h : Framed encode frame) :
    Framed (fun l : List α => l.flatMap encode) fun l => l.map frame := by
  intro l m x y hframe he
  induction l generalizing m with
  | nil =>
    cases m with
    | nil => exact ⟨rfl, he⟩
    | cons b m => exact nomatch hframe
  | cons a l ih =>
    cases m with
    | nil => exact nomatch hframe
    | cons b m =>
      obtain ⟨hab, hlm⟩ := List.cons.inj hframe
      have he : encode a ++ (l.flatMap encode ++ x) = encode b ++ (m.flatMap encode ++ y) := by
        simpa only [List.flatMap_cons, List.append_assoc] using he
      obtain ⟨rfl, hrest⟩ := h hab he
      obtain ⟨rfl, rfl⟩ := ih hlm hrest
      exact ⟨rfl, rfl⟩

end Framed

/-! ### The bytes of maps -/

theorem utf8_injective : Function.Injective utf8 := by
  intro s t h
  have hbytes : s.toByteArray = t.toByteArray := ByteArray.ext (Array.toList_inj.mp h)
  exact String.toByteArray_inj.mp hbytes

namespace Dict

/-- The bytes of the entries of a map, each key before its value. -/
def bytes (d : Dict String (List UInt8)) : List UInt8 := d.toList.flatMap fun e => utf8 e.1 ++ e.2

/-- How many bytes each key and each value of a map has. -/
def extents (d : Dict String (List UInt8)) : List (Nat × Nat) := d.toList.map fun e => ((utf8 e.1).length, e.2.length)

theorem framed_bytes : Framed bytes extents := by
  have hentry : Framed (fun e : String × List UInt8 => utf8 e.1 ++ e.2) fun e => ((utf8 e.1).length, e.2.length) :=
    (Framed.of_injective utf8_injective).append (Framed.of_injective Function.injective_id)
  have htoList : Function.Injective (toList : Dict String (List UInt8) → _) := fun _ _ => ext_entries
  exact Framed.comp (g := toList) htoList hentry.flatMap

end Dict

/-- The entries of a map come sorted out of any list of them. -/
theorem sortByKey_eq_toList {α : Type} {l : List (String × α)} (hl : (l.map Prod.fst).Nodup) :
    sortByKey l = (Dict.ofList l).toList := by
  have hle {a b : String × α} : (!decide (b.1 < a.1)) = true ↔ a.1 ≤ b.1 := by
    rw [Bool.not_eq_true', decide_eq_false_iff_not, String.not_lt]
  have hsorted : (sortByKey l).Pairwise fun a b => a.1 ≤ b.1 := by
    refine (List.pairwise_mergeSort (fun a b c hab hbc => ?_) (fun a b => ?_) l).imp hle.mp
    · exact hle.mpr (String.le_trans (hle.mp hab) (hle.mp hbc))
    · rw [Bool.or_eq_true, hle, hle]
      exact String.le_total a.1 b.1
  have hentries : (Dict.ofList l).toList.Pairwise fun a b => a.1 ≤ b.1 :=
    (Dict.ofList l).sorted.imp fun hab => String.not_lt.mp fun hba => String.lt_irrefl _ (String.lt_trans hab hba)
  have hperm : (sortByKey l).Perm (Dict.ofList l).toList := by
    refine (List.mergeSort_perm l _).trans ((List.perm_ext_iff_of_nodup ?_ ?_).mpr fun e => ?_)
    · exact List.Pairwise.of_map Prod.fst (fun _ _ hne e => hne (congrArg Prod.fst e)) hl
    · exact List.Pairwise.of_map Prod.fst (fun _ _ hne e => hne (congrArg Prod.fst e)) (Dict.ofList l).nodup_keys
    · rw [Dict.mem_toList_iff, Dict.get?_ofList hl]
  refine hperm.eq_of_pairwise (fun a b ha hb hab hba => ?_) hsorted hentries
  -- two entries of the map with one key have one value
  have hkey : a.1 = b.1 := String.le_antisymm hab hba
  have hvalue := Dict.mem_toList_iff.mp (hperm.mem_iff.mp ha)
  rw [hkey, Dict.mem_toList_iff.mp hb] at hvalue
  exact Prod.ext hkey (Option.some.inj hvalue).symm

/-! ### The maps of sources -/

namespace Source

/-- The maps that a source consists of. -/
def maps : Source → List (Dict String (List UInt8))
  | entries l => [Dict.ofList l]
  | configMap c => [c.data.mapValues fun _ text => utf8 text, c.binaryData]
  | secret s => [s.data]

/-- Whether a source has no key twice. -/
def Distinct : Source → Prop
  | entries l => (l.map Prod.fst).Nodup
  | configMap _ | secret _ => True

theorem bytes_eq_flatMap {s : Source} (h : s.Distinct) : s.bytes = s.maps.flatMap Dict.bytes := by
  have hsort (d : Dict String (List UInt8)) : entriesBytes d.toList = d.bytes := by
    rw [entriesBytes, sortByKey_eq_toList d.nodup_keys, Dict.ofList_toList]
    rfl
  cases s with
  | entries l =>
    rw [bytes, entriesBytes, sortByKey_eq_toList h]
    exact (List.append_nil _).symm
  | configMap c =>
    rw [bytes, hsort, hsort]
    exact congrArg _ (List.append_nil _).symm
  | secret s =>
    rw [bytes, hsort]
    exact (List.append_nil _).symm

end Source

/-- The maps of sources, source by source. -/
def contents (sources : List Source) : List (List (Dict String (List UInt8))) := sources.map Source.maps

/-- How many bytes each key and each value has, map by map and source by source. -/
def layout (sources : List Source) : List (List (List (Nat × Nat))) :=
  (contents sources).map fun maps => maps.map Dict.extents

variable {s t : List Source}

/-- **The stream** is an encoding of the maps. -/
theorem stream_eq_flatMap (hs : ∀ x ∈ s, x.Distinct) :
    stream s = (contents s).flatMap fun maps => maps.flatMap Dict.bytes := by
  rw [stream, contents, List.flatMap_map, List.flatMap, List.flatMap]
  exact congrArg List.flatten (List.map_congr_left fun x hx => Source.bytes_eq_flatMap (hs x hx))

/-- **Sources with equal streams** have equal maps exactly if their layouts are equal. -/
theorem contents_eq_iff (hs : ∀ x ∈ s, x.Distinct) (ht : ∀ x ∈ t, x.Distinct) :
    contents s = contents t ↔ stream s = stream t ∧ layout s = layout t := by
  rw [stream_eq_flatMap hs, stream_eq_flatMap ht, layout, layout]
  constructor
  · intro h
    rw [h]
    exact ⟨rfl, rfl⟩
  · rintro ⟨hstream, hlayout⟩
    exact Dict.framed_bytes.flatMap.flatMap.eq_of_eq hlayout hstream

/-! ### Digits -/

theorem framed_hexByte : Framed hexByte fun _ => () := by
  intro a b x y _ he
  have hdigit : ∀ n < 16, ∀ m < 16,
      (if n < 10 then Char.ofNat ('0'.toNat + n) else Char.ofNat ('a'.toNat + (n - 10))) =
        (if m < 10 then Char.ofNat ('0'.toNat + m) else Char.ofNat ('a'.toNat + (m - 10))) → n = m := by decide
  simp only [hexByte, List.cons_append, List.nil_append, List.cons.injEq] at he
  obtain ⟨hhigh, hlow, hrest⟩ := he
  have ha := a.toNat_lt
  have hb := b.toNat_lt
  have hdiv : a.toNat / 16 = b.toNat / 16 := hdigit _ (by omega) _ (by omega) hhigh
  have hmod : a.toNat % 16 = b.toNat % 16 := hdigit _ (by omega) _ (by omega) hlow
  exact ⟨UInt8.toNat_inj.mp (by omega), hrest⟩

/-- Fingerprints say as much as hashes do. -/
theorem fingerprint_eq_iff : fingerprint s = fingerprint t ↔ Sha512.digest (stream s) = Sha512.digest (stream t) := by
  constructor
  · intro h
    have hlength (message : List UInt8) : (Sha512.digest message).length = 64 := by
      simp [Sha512.digest, Sha512.bytesOf]
    refine framed_hexByte.flatMap.eq_of_eq ?_ (String.ofList_injective h)
    rw [List.map_const', List.map_const', hlength, hlength]
  · intro h
    rw [fingerprint, fingerprint, h]

/-- Whether the hash tells two messages apart, in case they differ. -/
def Sha512.Separates (a b : List UInt8) : Prop := Sha512.digest a = Sha512.digest b → a = b

theorem contents_eq_iff_fingerprint (hs : ∀ x ∈ s, x.Distinct) (ht : ∀ x ∈ t, x.Distinct)
    (hsha : Sha512.Separates (stream s) (stream t)) :
    contents s = contents t ↔ fingerprint s = fingerprint t ∧ layout s = layout t := by
  have hstream : stream s = stream t ↔ fingerprint s = fingerprint t :=
    ⟨fun h => fingerprint_eq_iff.mpr (congrArg Sha512.digest h), fun h => hsha (fingerprint_eq_iff.mp h)⟩
  rw [contents_eq_iff hs ht, hstream]

/-! ### What pods use -/

/-- What the two fingerprints of a microservice cover. -/
structure Covered where
  tenants : ConfigMap
  platform : ConfigMap
  files : ConfigMap
  environment : ConfigMap
  secretEnvironment : Secret

namespace Covered

/-- The sources of the one fingerprint. -/
def runtime (x : Covered) : List Source := [.configMap x.tenants, .configMap x.platform]

/-- The sources of the other one. -/
def artifact (x : Covered) : List Source := [.configMap x.files, .configMap x.environment, .secret x.secretEnvironment]

def prints (x : Covered) : Fingerprints := ⟨fingerprint x.runtime, fingerprint x.artifact⟩

/-- What a microservice uses in a namespace, as it is cached. -/
structure Cached (x : Covered) (c : Caches) (scope : String) (m : Mounts) : Prop where
  tenants : c.configMaps.lookup scope m.tenants = some x.tenants
  platform : c.configMaps.lookup scope m.platform = some x.platform
  files : c.configMaps.lookup scope m.files = some x.files
  environment : c.configMaps.lookup scope m.environment = some x.environment
  secretEnvironment : c.secrets.lookup scope m.secretEnvironment = some x.secretEnvironment

theorem distinct_runtime (x : Covered) : ∀ y ∈ x.runtime, y.Distinct := by
  simp [runtime, Source.Distinct]

theorem distinct_artifact (x : Covered) : ∀ y ∈ x.artifact, y.Distinct := by
  simp [artifact, Source.Distinct]

variable {x : Covered} {c : Caches} {scope : String} {m : Mounts}

/-- A microservice has fingerprints if all that it uses is cached. -/
theorem Cached.fingerprints_eq (h : x.Cached c scope m) : fingerprints c scope m = .ok x.prints := by
  have configMap {name : String} {o : ConfigMap} (ho : c.configMaps.lookup scope name = some o) :
      c.configMap scope name = .ok (.configMap o) := by
    rw [Caches.configMap, ho]
  have secret : c.secret scope m.secretEnvironment = .ok (.secret x.secretEnvironment) := by
    rw [Caches.secret, h.secretEnvironment]
  rw [fingerprints, configMap h.tenants, configMap h.platform, configMap h.files, configMap h.environment, secret]
  rfl

end Covered

/-- **What fingerprints tell apart.** Sources, each without a key twice, have the same maps exactly if their streams and their
layouts are equal. So two microservices use the same maps exactly if they share the fingerprint of them and the layouts are
equal, whenever the hash separates the two streams. -/
theorem fingerprints_tell_apart (hs : ∀ x ∈ s, x.Distinct) (ht : ∀ x ∈ t, x.Distinct) {x y : Covered} {c d : Caches}
    {scope scope' : String} {m m' : Mounts} (hx : x.Cached c scope m) (hy : y.Cached d scope' m') :
    (contents s = contents t ↔ stream s = stream t ∧ layout s = layout t) ∧
    ∃ f g, fingerprints c scope m = .ok f ∧ fingerprints d scope' m' = .ok g ∧
      (Sha512.Separates (stream x.runtime) (stream y.runtime) →
        (contents x.runtime = contents y.runtime ↔ f.runtime = g.runtime ∧ layout x.runtime = layout y.runtime)) ∧
      (Sha512.Separates (stream x.artifact) (stream y.artifact) →
        (contents x.artifact = contents y.artifact ↔ f.artifact = g.artifact ∧ layout x.artifact = layout y.artifact)) := by
  refine ⟨contents_eq_iff hs ht, x.prints, y.prints, hx.fingerprints_eq, hy.fingerprints_eq, ?_, ?_⟩
  · exact contents_eq_iff_fingerprint x.distinct_runtime y.distinct_runtime
  · exact contents_eq_iff_fingerprint x.distinct_artifact y.distinct_artifact

/-- The names of what one microservice uses. -/
def shopMounts : Mounts :=
  ⟨"dev-shop-tenants", "dev-shop-dolittle", "dev-shop-config-files", "dev-shop-env-variables",
    "dev-shop-secret-env-variables"⟩

/-- A microservice with given files and variables. -/
def shopWith (files environment : Dict String String) : Covered :=
  let metadata (name : String) : Metadata := { Metadata.empty with name := some name, scope := some "application-a1" }
  { tenants := ⟨metadata shopMounts.tenants, ∅, ∅⟩
    platform := ⟨metadata shopMounts.platform, ∅, ∅⟩
    files := ⟨metadata shopMounts.files, files, ∅⟩
    environment := ⟨metadata shopMounts.environment, environment, ∅⟩
    secretEnvironment := ⟨metadata shopMounts.secretEnvironment, ∅⟩ }

namespace Covered

/-- Caches with what a microservice uses. -/
def caches (x : Covered) : Caches :=
  ⟨.ofList [x.tenants, x.platform, x.files, x.environment], .ofList [x.secretEnvironment], .empty, .empty⟩

end Covered

/-- The order of entries does not count, and another level of the same length does. -/
theorem tell_apart_shop :
    (stream [.entries [("b", [2]), ("a", [1])]] = stream [.entries [("a", [1]), ("b", [2])]]) ∧
    ∃ f g,
      fingerprints (shopWith (.ofList [("level", "1")]) ∅).caches "application-a1" shopMounts = .ok f ∧
      fingerprints (shopWith (.ofList [("level", "2")]) ∅).caches "application-a1" shopMounts = .ok g ∧
      f.artifact ≠ g.artifact := by
  have hcached (text : String) (h : text = "1" ∨ text = "2") :
      (shopWith (.ofList [("level", text)]) ∅).Cached (shopWith (.ofList [("level", text)]) ∅).caches
        "application-a1" shopMounts := by
    rcases h with rfl | rfl <;> constructor <;> decide
  have hsha : Sha512.Separates (stream (shopWith (.ofList [("level", "1")]) ∅).artifact)
      (stream (shopWith (.ofList [("level", "2")]) ∅).artifact) := by
    rw [stream_eq_flatMap (Covered.distinct_artifact _), stream_eq_flatMap (Covered.distinct_artifact _)]
    exact fun h => absurd h (by decide +kernel)
  obtain ⟨hlists, f, g, hf, hg, -, hartifact⟩ := fingerprints_tell_apart
    (s := [.entries [("b", [2]), ("a", [1])]]) (t := [.entries [("a", [1]), ("b", [2])]])
    (by simp [Source.Distinct]) (by simp [Source.Distinct]) (hcached "1" (.inl rfl)) (hcached "2" (.inr rfl))
  refine ⟨(hlists.mp (by decide)).1, f, g, hf, hg, fun he => ?_⟩
  exact absurd ((hartifact hsha).mpr ⟨he, by decide⟩) (by decide)

/-- **Values that change places.** The files and the variables of a microservice may take each other's value and leave its
fingerprints as they are. -/
theorem exists_shared_fingerprint :
    ∃ (x y : Covered) (c d : Caches) (scope : String) (m : Mounts),
      x.Cached c scope m ∧ y.Cached d scope m ∧
      (∀ z ∈ x.artifact, z.Distinct) ∧ (∀ z ∈ y.artifact, z.Distinct) ∧ x.artifact.length = y.artifact.length ∧
      stream x.artifact = stream y.artifact ∧ contents x.artifact ≠ contents y.artifact ∧
      fingerprints c scope m = fingerprints d scope m := by
  let x := shopWith (.ofList [("a", "aa")]) (.ofList [("a", "a")])
  let y := shopWith (.ofList [("a", "a")]) (.ofList [("a", "aa")])
  have hx : x.Cached x.caches "application-a1" shopMounts := by constructor <;> decide
  have hy : y.Cached y.caches "application-a1" shopMounts := by constructor <;> decide
  have hstream : stream x.artifact = stream y.artifact := by
    rw [stream_eq_flatMap x.distinct_artifact, stream_eq_flatMap y.distinct_artifact]
    decide
  refine ⟨x, y, x.caches, y.caches, "application-a1", shopMounts, hx, hy, x.distinct_artifact, y.distinct_artifact, rfl,
    hstream, by decide, ?_⟩
  have hprints : x.prints = y.prints :=
    congrArg (Fingerprints.mk (fingerprint x.runtime)) (fingerprint_eq_iff.mpr (congrArg Sha512.digest hstream))
  rw [hx.fingerprints_eq, hy.fingerprints_eq, hprints]

end FleetAtlas
