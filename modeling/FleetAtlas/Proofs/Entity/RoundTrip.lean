import FleetAtlas.Entity.Json
import FleetAtlas.Proofs.Dictionary
import FleetAtlas.Proofs.Time.RoundTrip

/-!
# Records read back as entities

* `Json.Agree`: fields that are the same up to those that are `null`; a reader of properties cannot tell them apart;
* `Properties.ofFields?_fields`, `Links.ofFields?_eq`: what is written is read back; `Links.lookup_of_ofFields?`: a link that
  is read is there;
* `Record.Covers r e`: the record has what the entity says, up to `null` properties, and what it refers to;
* `Record.Covers.exists_ofRecord?`: **such a record reads as an entity that says the same**, so `Entity.ofRecord?_toRecord`.
-/

namespace FleetAtlas

/-! ### Readers -/

namespace Json

/-- The fields are the same up to those that are `null`. -/
def Agree (a b : List (String × Json)) : Prop :=
  ∀ name, (lookup name a).filter (!isNull ·) = (lookup name b).filter (!isNull ·)

theorem required?_congr {α : Type} (read : Json → Option α) (hread : read .null = none)
    {a b : List (String × Json)} (h : Agree a b) (name : String) : required? a name read = required? b name read := by
  have key : ∀ l, required? l name read = ((lookup name l).filter (!isNull ·)).bind read := by
    intro l
    unfold required?
    cases lookup name l with
    | none => rfl
    | some j => cases j <;> simp [isNull, hread, Option.filter]
  rw [key a, key b, h name]

theorem optional?_congr {α : Type} (read : Json → Option α) {a b : List (String × Json)} (h : Agree a b)
    (name : String) : optional? a name read = optional? b name read := by
  have key : ∀ l, optional? l name read =
      ((lookup name l).filter (!isNull ·)).elim (some none) fun j => (read j).map some := by
    intro l
    unfold optional?
    cases lookup name l with
    | none => rfl
    | some j => cases j <;> simp [isNull, Option.filter]
  rw [key a, key b, h name]

@[simp] theorem time?_ofTime (t : Timestamp) : time? (ofTime t) = some t := Timestamp.ofText?_toText t

theorem uint32?_toNat (n : UInt32) : uint32? (.int n.toNat) = some n := by
  have h := n.toNat_lt
  simp only [uint32?]
  rw [if_pos (by omega)]
  simp

@[simp] theorem int32?_toInt (n : Int32) : int32? (.int n.toInt) = some n := by
  have h1 := n.le_toInt
  have h2 := n.toInt_lt
  simp only [int32?]
  rw [if_pos (by omega)]
  simp

theorem required?_of_lookup {α : Type} {l : List (String × Json)} {name : String} {j : Json} {read : Json → Option α}
    {a : α} (h : lookup name l = some j) (hread : read j = some a) : required? l name read = some a := by
  rw [required?, h]
  exact hread

theorem optional?_ofTime? {l : List (String × Json)} {name : String} {t : Option Timestamp}
    (h : lookup name l = some (ofTime? t)) : optional? l name time? = some t := by
  unfold optional?
  rw [h]
  cases t with
  | none => rfl
  | some t => exact congrArg (Option.map some) (time?_ofTime t)

end Json

/-! ### Properties -/

theorem Properties.nodup_fields (f : Family) (p : Properties f) : ((fields f p).map Prod.fst).Nodup := by
  cases f
  case runtimeVersion =>
    obtain ⟨major, minor, patch, prerelease, released⟩ := p
    cases prerelease <;> simp [fields]
  all_goals simp [fields]

open Json in
/-- Readers of properties pass over `null`. -/
theorem Properties.ofFields?_congr (f : Family) {a b : List (String × Json)} (h : Agree a b) :
    ofFields? f a = ofFields? f b := by
  have hstr := fun name => required?_congr str? rfl h name
  have htime := fun name => required?_congr time? rfl h name
  have hbool := fun name => required?_congr bool? rfl h name
  have hint := fun name => required?_congr int32? rfl h name
  have hnat := fun name => required?_congr uint32? rfl h name
  have hstr' := fun name => optional?_congr str? h name
  have htime' := fun name => optional?_congr time? h name
  cases f
  all_goals simp only [ofFields?, hstr, htime, hbool, hint, hnat, hstr', htime']; rfl

/-- **What an entity says about itself is read back.** -/
theorem Properties.ofFields?_fields (f : Family) (p : Properties f) : ofFields? f (fields f p) = some p := by
  cases f
  case artifactVersion =>
    obtain ⟨name, released⟩ := p
    have h : Json.optional? (fields .artifactVersion (⟨name, released⟩ : ArtifactVersionProperties)) "released"
        Json.time? = some released := Json.optional?_ofTime? rfl
    simp only [ofFields?, h]
    simp [fields, Json.required?, Json.lookup, Json.str?]
    rfl
  case runtimeVersion =>
    obtain ⟨major, minor, patch, prerelease, released⟩ := p
    have hnumbers : ∀ name n, Json.lookup name (fields .runtimeVersion (⟨major, minor, patch, prerelease, released⟩ :
        RuntimeVersionProperties)) = some (.int (UInt32.toNat n)) → Json.required? (fields .runtimeVersion
        (⟨major, minor, patch, prerelease, released⟩ : RuntimeVersionProperties)) name Json.uint32? = some n :=
      fun name n h => Json.required?_of_lookup h (Json.uint32?_toNat n)
    have hreleased : Json.optional? (fields .runtimeVersion (⟨major, minor, patch, prerelease, released⟩ :
        RuntimeVersionProperties)) "released" Json.time? = some released := by
      cases prerelease <;> exact Json.optional?_ofTime? (by simp [fields, Json.lookup])
    simp only [ofFields?, hreleased, hnumbers "major" major (by simp [fields, Json.lookup]),
      hnumbers "minor" minor (by simp [fields, Json.lookup]), hnumbers "patch" patch (by simp [fields, Json.lookup])]
    cases prerelease with
    | none => cases released <;> simp [fields, Json.optional?, Json.lookup, Json.ofTime?] <;> rfl
    | some text => simp [fields, Json.optional?, Json.lookup, Json.str?]; rfl
  case deploymentInstance =>
    obtain ⟨id, started, stopped⟩ := p
    have h : Json.optional? (fields .deploymentInstance (⟨id, started, stopped⟩ : DeploymentInstanceProperties))
        "stopped" Json.time? = some stopped := Json.optional?_ofTime? rfl
    simp only [ofFields?, h]
    simp [fields, Json.required?, Json.lookup, Json.str?]
    rfl
  all_goals simp [ofFields?, fields, Json.required?, Json.lookup, Json.str?, Json.bool?]; rfl

/-! ### Links -/

theorem Links.nodup_fields (f : Family) (l : Links f) : ((fields f l).map Prod.fst).Nodup := by
  cases f
  case deploymentInstance =>
    obtain ⟨of, artifact, runtime, scheduledOn⟩ := l
    cases scheduledOn <;> simp [fields]
  all_goals simp [fields]

/-- The links of an entity as fields. -/
def Links.toFields (f : Family) (l : Links f) : List (String × Json) := (fields f l).map fun e => (e.1, .str e.2)

/-- **What an entity refers to is read back.** -/
theorem Links.ofFields?_eq {f : Family} {l : Links f} {a : List (String × Json)}
    (h : ∀ name, Json.lookup name a = Json.lookup name (toFields f l)) : ofFields? f a = some l := by
  have hrequired : ∀ {α : Type} (name : String) (read : Json → Option α),
      Json.required? a name read = Json.required? (toFields f l) name read := fun name read => by
    unfold Json.required?
    rw [h]
  have hoptional : ∀ {α : Type} (name : String) (read : Json → Option α),
      Json.optional? a name read = Json.optional? (toFields f l) name read := fun name read => by
    unfold Json.optional?
    rw [h]
  cases f
  case deploymentInstance =>
    obtain ⟨of, artifact, runtime, scheduledOn⟩ := l
    simp only [ofFields?, hrequired, hoptional]
    cases scheduledOn <;>
      simp [toFields, fields, Json.required?, Json.optional?, Json.lookup, Json.uid?, Json.str?] <;> rfl
  case node | customer | runtimeVersion | artifactConfiguration | runtimeConfiguration => rfl
  all_goals
    simp only [ofFields?, hrequired]
    simp [toFields, fields, Json.required?, Json.lookup, Json.uid?, Json.str?]
    rfl

/-- What an entity refers to is read, also among other links. -/
theorem Links.exists_ofFields? {f : Family} {l : Links f} {a : List (String × Json)}
    (h : ∀ e ∈ toFields f l, Json.lookup e.1 a = some e.2) (hstr : ∀ name j, Json.lookup name a = some j → ∃ s, j = .str s) :
    ∃ l', ofFields? f a = some l' := by
  cases f
  case deploymentInstance =>
    obtain ⟨of, artifact, runtime, scheduledOn⟩ := l
    have h1 := h ("instanceOf", .str of.text) (by simp [toFields, fields])
    have h2 := h ("usesArtifactConfiguration", .str artifact.text) (by simp [toFields, fields])
    have h3 := h ("usesRuntimeConfiguration", .str runtime.text) (by simp [toFields, fields])
    have h4 : ∃ node : Option (Uid .node), Json.optional? a "scheduledOn" Json.uid? = some node := by
      unfold Json.optional?
      cases hl : Json.lookup "scheduledOn" a with
      | none => exact ⟨none, rfl⟩
      | some j =>
        obtain ⟨s, rfl⟩ := hstr _ _ hl
        exact ⟨some ⟨s⟩, rfl⟩
    obtain ⟨node, h4⟩ := h4
    refine ⟨(⟨of, artifact, runtime, node⟩ : DeploymentInstanceLinks), ?_⟩
    simp only [ofFields?, h4]
    simp [Json.required?, h1, h2, h3, Json.uid?, Json.str?]
    rfl
  case node | customer | runtimeVersion | artifactConfiguration | runtimeConfiguration => exact ⟨(), rfl⟩
  all_goals
    simp only [toFields, fields, List.map_cons, List.map_nil, List.forall_mem_cons, List.not_mem_nil, false_implies,
      implies_true, and_true] at h
    simp [ofFields?, Json.required?, h, Json.uid?, Json.str?]
    exact ⟨_, rfl⟩

theorem Links.none?_of_fields_eq_nil {f : Family} {l : Links f} (h : fields f l = []) : none? f = some l := by
  cases f
  case node | customer | runtimeVersion | artifactConfiguration | runtimeConfiguration => rfl
  all_goals simp [fields] at h

/-- A uid that is read is there. -/
theorem Json.lookup_of_required? {g : Family} {a : List (String × Json)} {name : String} {u : Uid g}
    (h : required? a name uid? = some u) : lookup name a = some (.str u.text) := by
  obtain ⟨j, hj, hread⟩ := Option.bind_eq_some_iff.mp h
  obtain ⟨text, htext, rfl⟩ := Option.map_eq_some_iff.mp hread
  cases j with
  | str s =>
    obtain rfl : s = text := Option.some.inj htext
    exact hj
  | _ => exact nomatch htext

theorem Json.lookup_of_optional? {g : Family} {a : List (String × Json)} {name : String} {u : Uid g}
    (h : optional? a name uid? = some (some u)) : lookup name a = some (.str u.text) := by
  refine lookup_of_required? ?_
  unfold optional? at h
  unfold required?
  split at h
  · exact nomatch h
  · exact nomatch h
  · next j _ hj =>
    rw [hj]
    obtain ⟨v, hv, heq⟩ := Option.map_eq_some_iff.mp h
    exact hv.trans heq

/-- **Links that are read are there.** -/
theorem Links.lookup_of_ofFields? {f : Family} {l : Links f} {a : List (String × Json)} (h : ofFields? f a = some l)
    {name uid : String} (hl : (name, uid) ∈ fields f l) : Json.lookup name a = some (.str uid) := by
  cases f
  case node | customer | runtimeVersion | artifactConfiguration | runtimeConfiguration => exact nomatch hl
  case deploymentInstance =>
    obtain ⟨deployment, hdeployment, h⟩ := Option.bind_eq_some_iff.mp h
    obtain ⟨artifact, hartifact, h⟩ := Option.bind_eq_some_iff.mp h
    obtain ⟨runtime, hruntime, h⟩ := Option.bind_eq_some_iff.mp h
    obtain ⟨node, hnode, h⟩ := Option.bind_eq_some_iff.mp h
    obtain rfl := Option.some.inj h
    have hall : ∀ e ∈ [("instanceOf", deployment.text), ("usesArtifactConfiguration", artifact.text),
        ("usesRuntimeConfiguration", runtime.text)] ++ (node.map fun node => ("scheduledOn", node.text)).toList,
        Json.lookup e.1 a = some (.str e.2) := by
      cases node with
      | none => simp [Json.lookup_of_required? hdeployment, Json.lookup_of_required? hartifact,
          Json.lookup_of_required? hruntime]
      | some node => simp [Json.lookup_of_required? hdeployment, Json.lookup_of_required? hartifact,
          Json.lookup_of_required? hruntime, Json.lookup_of_optional? hnode]
    exact hall (name, uid) hl
  case deployment =>
    obtain ⟨environment, henvironment, h⟩ := Option.bind_eq_some_iff.mp h
    obtain ⟨version, hversion, h⟩ := Option.bind_eq_some_iff.mp h
    obtain ⟨runtime, hruntime, h⟩ := Option.bind_eq_some_iff.mp h
    obtain rfl := Option.some.inj h
    have hall : ∀ e ∈ [("deployedIn", environment.text), ("usesArtifact", version.text),
        ("usesRuntime", runtime.text)], Json.lookup e.1 a = some (.str e.2) := by
      simp [Json.lookup_of_required? henvironment, Json.lookup_of_required? hversion, Json.lookup_of_required? hruntime]
    exact hall (name, uid) hl
  all_goals
    obtain ⟨u, hu, h⟩ := Option.bind_eq_some_iff.mp h
    obtain rfl := Option.some.inj h
    obtain ⟨rfl, rfl⟩ := Prod.mk.inj (List.mem_singleton.mp hl)
    exact Json.lookup_of_required? hu

theorem Links.fields_of_none? {f : Family} {l : Links f} (h : none? f = some l) : fields f l = [] := by
  cases f
  case node | customer | runtimeVersion | artifactConfiguration | runtimeConfiguration => rfl
  all_goals exact nomatch h

/-! ### Records -/

/-- **What a record reads as**: its properties and its links are read one by one. -/
theorem Entity.ofRecord?_eq (f : Family) (r : Record) :
    ofRecord? f r = (Properties.ofFields? f r.properties.toList).bind fun p =>
      (if r.links.isEmpty then Links.none? f
        else Links.ofFields? f (r.links.mapValues fun _ uid => Json.str uid).toList).map fun l =>
        ⟨⟨r.uid⟩, r.kind, p, l⟩ := by
  unfold ofRecord? ofJson? Record.toJson
  cases h : r.links.isEmpty <;>
    simp only [Json.fieldsOf?, Json.required?, Json.lookup, Json.uid?, Json.str?, Properties.ofJson?, Links.ofJson?,
      Json.ofDict, Record.linksJson, Option.map_eq_bind, Function.comp_def, Bool.false_eq_true, ↓reduceIte,
      List.cons_append, List.nil_append, List.append_nil, List.all_eq_true, Prod.forall, Bool.forall_bool, imp_false,
      implies_true, and_true, Option.pure_def, Option.bind_eq_bind, Option.bind_some, String.reduceEq]

/-- **What an entity that is read refers to is among the links of the record.** -/
theorem Entity.get?_links_of_ofRecord? {f : Family} {r : Record} {e : Entity f} (h : ofRecord? f r = some e)
    {name uid : String} (hl : (name, uid) ∈ Links.fields f e.links) : r.links.get? name = some uid := by
  rw [ofRecord?_eq] at h
  obtain ⟨p, -, h⟩ := Option.bind_eq_some_iff.mp h
  obtain ⟨l, hlinks, rfl⟩ := Option.map_eq_some_iff.mp h
  split at hlinks
  · rw [Links.fields_of_none? hlinks] at hl
    exact nomatch hl
  · have hlookup := Links.lookup_of_ofFields? hlinks hl
    rw [Json.lookup_toList, Dict.get?_mapValues] at hlookup
    obtain ⟨text, htext, heq⟩ := Option.map_eq_some_iff.mp hlookup
    rw [htext, Json.str.inj heq]

/-- The record has what an entity says, up to `null` properties, and what it refers to. -/
structure Record.Covers {f : Family} (r : Record) (e : Entity f) : Prop where
  uid : r.uid = e.uid.text
  properties : ∀ name, (r.properties.get? name).filter (!Json.isNull ·) =
    (e.toRecord.properties.get? name).filter (!Json.isNull ·)
  links : ∀ {name uid}, e.toRecord.links.get? name = some uid → r.links.get? name = some uid

namespace Record.Covers

variable {f : Family} {r : Record} {e : Entity f}

theorem refl (e : Entity f) : e.toRecord.Covers e := ⟨rfl, fun _ => rfl, id⟩

theorem ofFields?_properties (h : r.Covers e) :
    Properties.ofFields? f r.properties.toList = some e.properties := by
  rw [← Properties.ofFields?_fields f e.properties]
  refine Properties.ofFields?_congr f fun name => ?_
  rw [Json.lookup_toList, h.properties, ← Json.get?_ofList (Properties.nodup_fields f e.properties)]
  rfl

theorem get?_links (h : r.Covers e) {name uid : String} (hl : (name, uid) ∈ Links.fields f e.links) :
    r.links.get? name = some uid :=
  h.links ((Dict.get?_ofList (Links.nodup_fields f e.links)).mpr hl)

/-- A record without links is that of an entity without links. -/
theorem fields_eq_nil (h : r.Covers e) (he : r.links.isEmpty = true) : Links.fields f e.links = [] := by
  refine List.eq_nil_iff_forall_not_mem.mpr fun ⟨name, uid⟩ hl => ?_
  rw [Dict.ne_empty_of_get? (h.get?_links hl)] at he
  exact nomatch he

/-- **A record that has what an entity says reads as one that says the same.** -/
theorem exists_ofRecord? (h : r.Covers e) : ∃ e', Entity.ofRecord? f r = some e' ∧ e'.properties = e.properties := by
  rw [Entity.ofRecord?_eq, h.ofFields?_properties, Option.bind_some]
  cases he : r.links.isEmpty with
  | true =>
    rw [if_pos rfl, Links.none?_of_fields_eq_nil (h.fields_eq_nil he)]
    exact ⟨_, rfl, rfl⟩
  | false =>
    have hlookup : ∀ name, Json.lookup name (r.links.mapValues fun _ uid => Json.str uid).toList =
        (r.links.get? name).map Json.str := fun name => by rw [Json.lookup_toList, Dict.get?_mapValues]
    obtain ⟨l, hl⟩ := Links.exists_ofFields? (l := e.links)
      (a := (r.links.mapValues fun _ uid => Json.str uid).toList)
      (by
        intro field hfield
        obtain ⟨⟨name, uid⟩, hmem, rfl⟩ := List.mem_map.mp hfield
        rw [hlookup, h.get?_links hmem]
        rfl)
      (by
        intro name j hj
        rw [hlookup] at hj
        obtain ⟨uid, -, rfl⟩ := Option.map_eq_some_iff.mp hj
        exact ⟨uid, rfl⟩)
    rw [if_neg Bool.false_ne_true, hl]
    exact ⟨_, rfl, rfl⟩

/-- A record that has just what an entity says reads as that entity. -/
theorem ofRecord?_eq (h : r.Covers e) (hkind : r.kind = e.kind) (hlinks : r.links = e.toRecord.links) :
    Entity.ofRecord? f r = some e := by
  have hl : (if r.links.isEmpty then Links.none? f
      else Links.ofFields? f (r.links.mapValues fun _ uid => Json.str uid).toList) = some e.links := by
    split
    · next he => exact Links.none?_of_fields_eq_nil (h.fields_eq_nil he)
    · refine Links.ofFields?_eq fun name => Option.ext fun j => ?_
      have hnodup : ((Links.toFields f e.links).map Prod.fst).Nodup := by
        rw [Links.toFields, List.map_map]
        exact Links.nodup_fields f e.links
      rw [Json.lookup_toList, Dict.get?_mapValues, hlinks, Json.lookup_eq_some_iff hnodup, Option.map_eq_some_iff,
        Links.toFields, List.mem_map]
      constructor
      · rintro ⟨uid, hget, rfl⟩
        exact ⟨(name, uid), (Dict.get?_ofList (Links.nodup_fields f e.links)).mp hget, rfl⟩
      · rintro ⟨⟨name', uid⟩, hmem, heq⟩
        obtain ⟨rfl, rfl⟩ := Prod.mk.inj heq
        exact ⟨uid, (Dict.get?_ofList (Links.nodup_fields f e.links)).mpr hmem, rfl⟩
  rw [Entity.ofRecord?_eq, h.ofFields?_properties, Option.bind_some, hl, h.uid, hkind]
  rfl

end Record.Covers

/-- **The record of an entity reads as that entity.** -/
theorem Entity.ofRecord?_toRecord {f : Family} (e : Entity f) : ofRecord? f e.toRecord = some e :=
  (Record.Covers.refl e).ofRecord?_eq rfl rfl

end FleetAtlas
